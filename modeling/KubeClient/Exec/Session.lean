import KubeClient.Codec.Registry
import KubeClient.Exec.Inbound
import KubeClient.Exec.Outbound
import KubeClient.Text.Inspect

/-!
# Sessions

A session talks to a remote process: it receives the output and the outcome, and sends input. The
session ends when its owner has waited for the outcome, closes it or drops it; those who write to
it may go on until the connection is closed.

* `Session` : a session, with what it has received and sent, over a connection of any kind;
* `Session.receive`, `Session.write`, `Session.takeOutput`, `Session.join`, `Session.close`,
  `Session.drop`, `Session.giveUp`, `Session.callOff` : what happens to it;
* `Session.settle` : everything goes on that can;
* `Session.readFrame`, `Session.breakDown` : what a peer does.
-/

namespace KubeClient

/-- How an owner has ended a session. -/
inductive Conclusion
  /-- The owner has waited for the outcome. -/
  | joined (outcome : Except ClientError Status)
  | closed (outcome : Except ClientError Unit)
  | dropped
  deriving Inhabited

/-- How far the owner of a session has come. -/
inductive Ownership
  | owned
  /-- The owner waits for the outcome. -/
  | joining
  /-- The connection is being closed by a user of it; `outcome` is what the owner has waited for. -/
  | closing (user : Nat) (outcome : Option (Except ClientError Status))
  | concluded (conclusion : Conclusion)
  deriving Inhabited

/-- A session, with what it has received and sent. -/
structure Session (κ : Type := Peer) where
  serializer : Serializer
  inbound : Inbound
  outbound : Outbound κ
  ownership : Ownership
  /-- How many handles there are for writing, besides the owner's. -/
  writers : Nat
  /-- The owner has given away the reader of the output. -/
  stdoutTaken : Bool
  /-- The owner has given away the reader of the error output. -/
  stderrTaken : Bool
  deriving Inhabited

namespace Session

variable {κ δ : Type} [Connection κ δ]

/-- The session of a connection in the state `state`. -/
def startOn (path : String) (serializer : Serializer) (state : κ) : Session κ :=
  ⟨serializer, .start, .start path state, .owned, 0, false, false⟩

/-- The session of a new connection to a peer. -/
def start (path : String) (serializer : Serializer) (slow : Bool) : Session :=
  startOn path serializer (.start slow)

/-- The owner still has the session. -/
def isOwned (s : Session κ) : Bool :=
  match s.ownership with
  | .owned => true
  | _ => false

/-- How the owner has ended the session. -/
def conclusion? (s : Session κ) : Option Conclusion :=
  match s.ownership with
  | .concluded c => some c
  | _ => none

/-- Nobody waits for messages any more. -/
def isStopped (s : Session κ) : Bool :=
  s.outbound.fired || s.conclusion?.isSome

/-- Stops receiving if nobody waits any more. -/
def settleInbound (s : Session κ) : Session κ :=
  if s.isStopped then { s with inbound := s.inbound.callOff } else s

/-- The line of those who write moves on. -/
def settleOutbound (s : Session κ) : Session κ :=
  { s with outbound := s.outbound.settle }

/-- Gets in line to close the connection. -/
def startClosing (s : Session κ) (outcome : Option (Except ClientError Status)) : Session κ :=
  let user := s.outbound.users.length
  { s with outbound := (s.outbound.join .close).settle, ownership := .closing user outcome }

/-- An owner who waits for the outcome closes the connection once it is there. -/
def settleJoin (s : Session κ) : Session κ :=
  match s.ownership, s.inbound.outcome with
  | .joining, some outcome => s.startClosing (some outcome)
  | _, _ => s

/-- An owner whose connection is closed has ended the session. -/
def settleClose (s : Session κ) : Session κ :=
  match s.ownership with
  | .closing user outcome =>
    match s.outbound.outcome? user with
    | none => s
    | some closed =>
      let conclusion := match outcome with
        | some outcome => .joined outcome
        | none => .closed closed
      { s with ownership := .concluded conclusion }
  | _ => s

/-- Everything goes on that can. -/
def settle (s : Session κ) : Session κ :=
  s.settleInbound.settleOutbound.settleJoin.settleClose.settleInbound

/-- A message comes. -/
def receive (s : Session κ) (m : Message) : Session κ :=
  settle { s with inbound := s.inbound.receive s.serializer s.outbound.path m }

/-- The caller calls off. -/
def callOff (s : Session κ) : Session κ :=
  settle { s with outbound := { s.outbound with fired := true } }

/-- The outside does something to the connection. -/
def happen (s : Session κ) (deed : δ) : Session κ :=
  settle { s with outbound := s.outbound.happen deed }

/-- Somebody writes; answers who it is. -/
def write (s : Session κ) (channel : Channel) (payload : Bytes) : Session κ × Nat :=
  (settle { s with outbound := s.outbound.join (.write channel payload) }, s.outbound.users.length)

/-- Somebody who has come to write gives up. -/
def abandon (s : Session κ) (user : Nat) : Session κ :=
  if s.outbound.isWriting user then settle { s with outbound := s.outbound.leave user } else s

/-- The owner writes, unless that would have to wait; what does not fit any more is given up. -/
def tryWrite (s : Session κ) (channel : Channel) (payload : Bytes) :
    Option (Except ClientError Unit) × Session κ :=
  let (s, user) := s.write channel payload
  match s.outbound.outcome? user with
  | some outcome => (some outcome, s)
  | none => (none, s.abandon user)

/-- What is sent for a new size of the terminal. -/
def sizePayload (size : TerminalSize) : Bytes :=
  Serializer.encode ⟨MediaType.json, .json⟩ size

/-- The owner waits for the outcome. -/
def join (s : Session κ) : Session κ :=
  if s.isOwned then settle { s with ownership := .joining } else s

/-- The owner closes the connection. -/
def close (s : Session κ) : Session κ :=
  if s.isOwned then settle (s.startClosing none) else s

/-- The owner lets the session go. Nobody reads for it any more, and no one in line is concerned. -/
def letGo (s : Session κ) : Session κ :=
  settleInbound { s with ownership := .concluded .dropped }

/-- The owner drops the session. -/
def drop (s : Session κ) : Session κ :=
  if s.isOwned then s.letGo else s

/-- An owner who waits for the outcome, or for the connection to be closed, gives up and drops the
session. Whoever has begun to close the connection leaves the line, and it counts as closed. -/
def giveUp (s : Session κ) : Session κ :=
  match s.ownership with
  | .joining => s.letGo
  | .closing user _ => settle { s.letGo with outbound := s.outbound.giveUp user }
  | _ => s

/-- A new handle for writing. -/
def addWriter (s : Session κ) : Session κ :=
  { s with writers := s.writers + 1 }

/-- A handle for writing goes. -/
def dropWriter (s : Session κ) : Session κ :=
  { s with writers := s.writers - 1 }

/-- Nobody holds the connection any more. -/
def isReleased (s : Session κ) : Bool :=
  s.inbound.hasEnded && s.conclusion?.isSome && s.writers == 0 && !s.outbound.isInUse

/-- The owner gives away a reader, which there is only once. -/
def takeReader (s : Session κ) (stderr : Bool) : Bool × Session κ :=
  let free := s.isOwned && !(if stderr then s.stderrTaken else s.stdoutTaken)
  (free, if !free then s
    else if stderr then { s with stderrTaken := true } else { s with stdoutTaken := true })

/-- A reader takes output, if there is a reader. -/
def takeOutput (s : Session κ) (stderr : Bool) (take : Output → Bool → Received × Output) :
    Option Received × Session κ :=
  if stderr then
    let (got, output) := take s.inbound.stderr s.inbound.hasEnded
    if s.stderrTaken then (some got, { s with inbound := { s.inbound with stderr := output } })
    else (none, s)
  else
    let (got, output) := take s.inbound.stdout s.inbound.hasEnded
    if s.stdoutTaken then (some got, { s with inbound := { s.inbound with stdout := output } })
    else (none, s)

/-- How a session is inspected. -/
def inspect (s : Session κ) : String :=
  Inspect.openRecord "ExecSession" [("path", Inspect.string s.outbound.path)]

/-- How a handle for writing is inspected. -/
def inspectWriter (s : Session κ) : String :=
  Inspect.openRecord "SessionWriter" [("path", Inspect.string s.outbound.path)]

/-! ### Peers -/

/-- All that is sent from now on fails. -/
def breakDown (s : Session) (e : TransportError) : Session :=
  s.happen (.breaksDown e)

/-- The other side reads a frame. -/
def readFrame (s : Session) : Received × Session :=
  let wire := s.outbound.sink.wire
  let got := match wire.state.unread with
    | frame :: _ => .bytes frame
    | [] => if wire.closed || s.isReleased then .ended else .pending
  (got, s.happen .reads)

end Session
end KubeClient
