import KubeClient.Document.Documented
import KubeClient.Text.Utf8

/-!
# Channels of a remote session

One connection carries several streams. A frame is the number of its channel and a payload.

* `Channel`, `Channel.frame`, `Channel.ofFrame` : channels and their frames;
* `TerminalSize` : what the resize channel carries.
-/

namespace KubeClient

/-- A stream of a connection. -/
inductive Channel
  | stdin
  | stdout
  | stderr
  /-- Carries the outcome of the remote process. -/
  | error
  /-- Carries the size of the terminal. -/
  | resize
  deriving DecidableEq, Repr, Inhabited

/-- Why bytes are no frame. -/
inductive FrameError
  | empty
  | unknownChannel (id : UInt8)
  deriving DecidableEq, Repr, Inhabited

/-- The sentence shown to a user. -/
def FrameError.message : FrameError → String
  | .empty => "empty frame"
  | .unknownChannel id => s!"unknown channel id {id.toNat}"

namespace Channel

/-- The protocol that is asked for when a connection opens. -/
def subprotocol : String := "v4.channel.k8s.io"

/-- The number of a channel. -/
def id : Channel → UInt8
  | .stdin => 0
  | .stdout => 1
  | .stderr => 2
  | .error => 3
  | .resize => 4

/-- The channel of a number. -/
def ofId (id : UInt8) : Except FrameError Channel :=
  if id = 0 then .ok .stdin
  else if id = 1 then .ok .stdout
  else if id = 2 then .ok .stderr
  else if id = 3 then .ok .error
  else if id = 4 then .ok .resize
  else .error (.unknownChannel id)

/-- The name in messages. -/
def name : Channel → String
  | .stdin => "Stdin"
  | .stdout => "Stdout"
  | .stderr => "Stderr"
  | .error => "Error"
  | .resize => "Resize"

/-- The frame of a payload. -/
def frame (c : Channel) (payload : Bytes) : Bytes :=
  c.id :: payload

/-- The channel and the payload of a frame. -/
def ofFrame : Bytes → Except FrameError (Channel × Bytes)
  | [] => .error .empty
  | id :: payload => (ofId id).map (·, payload)

theorem ofId_id (c : Channel) : ofId c.id = .ok c := by
  cases c <;> rfl

theorem ofFrame_frame (c : Channel) (payload : Bytes) :
    ofFrame (c.frame payload) = .ok (c, payload) := by
  simp [frame, ofFrame, ofId_id, Except.map]

end Channel

/-- The columns and rows of a terminal. -/
structure TerminalSize where
  width : UInt16
  height : UInt16
  deriving DecidableEq, Repr, Inhabited

namespace TerminalSize

/-- Columns. -/
def widthKey : Key UInt16 := .always "Width"

/-- Rows. -/
def heightKey : Key UInt16 := .always "Height"

instance : Documented TerminalSize where
  target := "kbx_proto::channel::TerminalSize"
  shape := .ofFields "TerminalSize" [widthKey.declared, heightKey.declared]
  ofValue v := ⟨widthKey.of v, heightKey.of v⟩
  toValue t := .record [widthKey.entry t.width, heightKey.entry t.height]

end TerminalSize
end KubeClient
