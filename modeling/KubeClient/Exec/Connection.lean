import KubeClient.Client.Error

/-!
# Connections

A connection takes frames one by one. Whether it takes one now, what becomes of one that is handed
over, when all have gone out, and how it closes is up to the connection and to those at its other
end.

* `Connection` : a kind of connection: what it answers, and what the outside may do to it;
* `Wire` : a connection in use, with the frames that were handed to it;
* `Peer` : a connection whose other side reads when it is told to.
-/

namespace KubeClient

/-- How far something has come: none if it has to wait. -/
abbrev Wire.Progress := Option (Except TransportError Unit)

/-- A kind of connection, whose states are `κ`. Whatever it is asked may change its state, and so
may all that the outside does, `δ`. -/
class Connection (κ : Type) (δ : outParam Type) where
  /-- Whether it takes a frame, or why it never will. -/
  ready : κ → Wire.Progress × κ
  /-- A frame is handed over, once the connection takes one. -/
  put : Bytes → κ → Except TransportError Unit × κ
  /-- Whether all frames have gone out. -/
  flush : κ → Wire.Progress × κ
  /-- Whether it is closed. -/
  close : κ → Wire.Progress × κ
  happen : δ → κ → κ

/-- A connection in use, with the frames that were handed to it. -/
structure Wire (κ : Type) where
  state : κ
  /-- What became of them is up to the connection. -/
  frames : List Bytes
  /-- The connection has answered that it is closed. -/
  closed : Bool
  deriving DecidableEq, Repr, Inhabited

namespace Wire

variable {κ δ : Type} [Connection κ δ] (w : Wire κ)

/-- Whether the connection takes a frame. -/
def ready : Progress × Wire κ :=
  let (progress, state) := Connection.ready w.state
  (progress, { w with state })

/-- A frame is handed over. -/
def put (frame : Bytes) : Except TransportError Unit × Wire κ :=
  let (outcome, state) := Connection.put frame w.state
  (outcome, { w with state, frames := w.frames ++ [frame] })

/-- Whether all frames have gone out. -/
def flush : Progress × Wire κ :=
  let (progress, state) := Connection.flush w.state
  (progress, { w with state })

/-- Closes the connection. -/
def close : Progress × Wire κ :=
  match Connection.close w.state with
  | (some (.ok ()), state) => (some (.ok ()), { w with state, closed := true })
  | (progress, state) => (progress, { w with state })

/-- The outside does something to the connection. -/
def happen (deed : δ) : Wire κ :=
  { w with state := Connection.happen deed w.state }

end Wire

/-! ### Peers -/

/-- A connection to somebody who reads when told to. -/
structure Peer where
  /-- It takes a frame only when all others have been read. -/
  slow : Bool
  /-- The frames that were not read yet. -/
  unread : List Bytes
  failure : Option TransportError
  deriving DecidableEq, Repr, Inhabited

namespace Peer

/-- What the other side does. -/
inductive Deed
  /-- A frame is read. -/
  | reads
  /-- All that is sent from now on fails. -/
  | breaksDown (e : TransportError)
  deriving DecidableEq

/-- Nothing has been sent yet. -/
def start (slow : Bool) : Peer :=
  ⟨slow, [], none⟩

/-- Whether all frames have gone out and another one is taken, or why none ever will be. -/
def answer (p : Peer) : Wire.Progress :=
  match p.failure with
  | some e => some (.error e)
  | none => if p.slow ∧ p.unread ≠ [] then none else some (.ok ())

instance : Connection Peer Deed where
  ready p := (p.answer, p)
  put frame p := (.ok (), { p with unread := p.unread ++ [frame] })
  flush p := (p.answer, p)
  -- closing does not wait for the other side
  close p := (some (p.failure.elim (.ok ()) .error), p)
  happen
    | .reads, p => { p with unread := p.unread.tail }
    | .breaksDown e, p => { p with failure := some e }

end Peer
end KubeClient
