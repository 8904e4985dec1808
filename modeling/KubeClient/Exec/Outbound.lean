import KubeClient.Exec.Connection

/-!
# What a session sends

Everybody who writes to a connection, or closes it, stands in line. The first in line holds the
connection until the frame has gone out whole; then comes the next.

* `Sink` : a connection behind a place for one frame;
* `Outbound` : the sink, those who use it, and the line;
* `Outbound.join`, `Outbound.leave`, `Outbound.settle` : somebody gets in line, or leaves, and the
  line moves on as far as it can.
-/

namespace KubeClient

/-- A connection behind a place for one frame. -/
structure Sink (κ : Type) where
  wire : Wire κ
  slot : Option Bytes
  deriving DecidableEq, Repr, Inhabited

variable {κ δ : Type} [Connection κ δ]

namespace Sink

/-- Hands over the frame in the place, if there is one. -/
def clear (s : Sink κ) : Wire.Progress × Sink κ :=
  match s.slot with
  | none => (some (.ok ()), s)
  | some frame =>
    match s.wire.ready with
    | (some (.ok ()), wire) =>
      let (outcome, wire) := wire.put frame
      (some outcome, ⟨wire, none⟩)
    | (progress, wire) => (progress, { s with wire })

/-- Waits until all frames have gone out. -/
def flush (s : Sink κ) : Wire.Progress × Sink κ :=
  match s.clear with
  | (some (.ok ()), s) =>
    let (progress, wire) := s.wire.flush
    (progress, { s with wire })
  | blocked => blocked

/-- Puts `frame` into the place, if it is not there yet, and waits until it has gone out. -/
def send (s : Sink κ) (frame : Option Bytes) : Wire.Progress × Sink κ × Option Bytes :=
  match frame with
  | none =>
    let (progress, s) := s.flush
    (progress, s, none)
  | some frame =>
    match s.clear with
    | (some (.ok ()), s) =>
      let (progress, s) := flush { s with slot := some frame }
      (progress, s, none)
    | (progress, s) => (progress, s, some frame)

/-- Closes the connection behind the frame in the place. -/
def close (s : Sink κ) : Wire.Progress × Sink κ :=
  match s.clear with
  | (some (.ok ()), s) =>
    let (progress, wire) := s.wire.close
    (progress, { s with wire })
  | blocked => blocked

/-- The outside does something to the connection. -/
def happen (s : Sink κ) (deed : δ) : Sink κ :=
  { s with wire := s.wire.happen deed }

end Sink

/-- What a connection is used for. -/
inductive Use
  | write (channel : Channel) (payload : Bytes)
  | close
  deriving DecidableEq, Repr, Inhabited

/-- How far somebody in line has come. -/
inductive Turn
  | waiting
  /-- Holds the connection; `frame` still has to get into the place. -/
  | holding (frame : Option Bytes)
  | done (outcome : Except ClientError Unit)
  /-- Gone without an outcome. -/
  | left
  deriving Inhabited

/-- Somebody who uses a connection. -/
structure User where
  use : Use
  turn : Turn
  deriving Inhabited

/-- The sink, those who use it in the order in which they came, and the line of those that are not
done; the first one in line holds the connection. -/
structure Outbound (κ : Type) where
  path : String
  sink : Sink κ
  /-- Somebody has begun to close the connection. -/
  closed : Bool
  /-- The caller has called off. -/
  fired : Bool
  users : List User
  line : List Nat
  deriving Inhabited

namespace Outbound

/-- A new connection. -/
def start (path : String) (state : κ) : Outbound κ :=
  ⟨path, ⟨⟨state, [], false⟩, none⟩, false, false, [], []⟩

/-- A failure of the connection. -/
def failure (o : Outbound κ) (e : TransportError) : ClientError :=
  .transport .get o.path e

/-- Somebody has come so far. -/
def move (o : Outbound κ) (i : Nat) (turn : Turn) : Outbound κ :=
  { o with users := o.users.modify i ({ · with turn }) }

/-- Somebody gets in line. -/
def join (o : Outbound κ) (use : Use) : Outbound κ :=
  { o with users := o.users ++ [⟨use, .waiting⟩], line := o.line ++ [o.users.length] }

/-- The first in line is done. -/
def finish (o : Outbound κ) (i : Nat) (outcome : Except ClientError Unit) : Outbound κ :=
  { o.move i (.done outcome) with line := o.line.tail }

/-- Somebody goes without an outcome. -/
def leave (o : Outbound κ) (i : Nat) : Outbound κ :=
  { o.move i .left with line := o.line.filter (· ≠ i) }

/-- Whoever holds the connection goes on: to the end, or as far as the connection allows. -/
def proceed (o : Outbound κ) (i : Nat) (use : Use) (frame : Option Bytes) : Outbound κ :=
  match use with
  | .write .. =>
    if o.fired then o.finish i (.error .cancelled)
    else match o.sink.send frame with
      | (none, sink, frame) => { o with sink }.move i (.holding frame)
      | (some outcome, sink, _) => { o with sink }.finish i (outcome.mapError o.failure)
  | .close =>
    match o.sink.close with
    | (none, sink) => { o with sink }.move i (.holding none)
    | (some outcome, sink) => { o with sink }.finish i (outcome.mapError o.failure)

/-- The first in line gets the connection. Nobody writes any more once the connection is closed
or the caller has called off, and it is closed only once. -/
def acquire (o : Outbound κ) (i : Nat) (use : Use) : Outbound κ :=
  match use with
  | .write channel payload =>
    if o.closed || o.fired then o.finish i (.error (o.failure .closed))
    else o.proceed i use (some (channel.frame payload))
  | .close =>
    if o.closed then o.finish i (.ok ()) else { o with closed := true }.proceed i use none

/-- The first in line goes on. -/
def advance (o : Outbound κ) : Outbound κ :=
  match o.line with
  | [] => o
  | i :: _ =>
    match o.users[i]? with
    | some ⟨use, .waiting⟩ => o.acquire i use
    | some ⟨use, .holding frame⟩ => o.proceed i use frame
    | _ => { o with line := o.line.tail }

/-- The line moves on, at most `fuel` times. -/
def drain : Nat → Outbound κ → Outbound κ
  | 0, o => o
  | fuel + 1, o =>
    let next := o.advance
    if next.line.length < o.line.length then drain fuel next else next

/-- The line moves on as far as it can. -/
def settle (o : Outbound κ) : Outbound κ :=
  drain o.line.length o

/-- The outside does something to the connection. -/
def happen (o : Outbound κ) (deed : δ) : Outbound κ :=
  { o with sink := o.sink.happen deed }

/-- The outcome of somebody who is done. -/
def outcome? (o : Outbound κ) (i : Nat) : Option (Except ClientError Unit) :=
  match o.users[i]? with
  | some ⟨_, .done outcome⟩ => some outcome
  | _ => none

/-- Somebody has come to write, and is not done. -/
def isWriting (o : Outbound κ) (i : Nat) : Bool :=
  match o.users[i]? with
  | some ⟨.write .., .waiting⟩ | some ⟨.write .., .holding _⟩ => true
  | _ => false

/-- Somebody who is not done gives up. -/
def giveUp (o : Outbound κ) (i : Nat) : Outbound κ :=
  match o.users[i]? with
  | some ⟨_, .waiting⟩ | some ⟨_, .holding _⟩ => o.leave i
  | _ => o

/-- Somebody still uses the connection to write. -/
def isInUse (o : Outbound κ) : Bool :=
  !o.line.isEmpty

end Outbound
end KubeClient
