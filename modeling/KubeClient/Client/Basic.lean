import KubeClient.Client.Error
import KubeClient.Codec.Registry

/-!
# Calls of a client

A call asks the outside for credentials, responses and chunks, one after the other, until it is
done or the caller calls off.

* `Host` : the outside, with a state of its own;
* `Step`, `Progress` : what a call has asked for so far;
* `Call` : a call, as a function of the progress so far;
* `Call.await` : asks the outside, unless the caller has called off.
-/

namespace KubeClient

/-- The outside of a client, with a state of its own. -/
structure Host (σ : Type) where
  /-- Asks for a credential, a new one if `force` is set. -/
  credential : (force : Bool) → σ → Wait AuthError Credential × σ
  /-- Sends a request. -/
  send : Outgoing → σ → Wait TransportError Response × σ
  /-- Opens a connection. -/
  upgrade : Outgoing → σ → Wait TransportError Unit × σ
  /-- Whether the caller has called off by the time a body has ended. -/
  ending : σ → Bool := fun _ => false

/-- What a call asks the outside for. -/
inductive Step
  | credential (force : Bool)
  | send (outgoing : Outgoing)
  | chunk
  deriving DecidableEq, Repr, Inhabited

/-- The outside, whether the caller has called off, and what was asked for, in order. -/
structure Progress (σ : Type) where
  world : σ
  fired : Bool
  trace : List Step

/-- A call with an outcome in `α`. -/
def Call (σ α : Type) : Type :=
  Progress σ → Except ClientError α × Progress σ

namespace Call

variable {σ α β ε : Type}

instance : Monad (Call σ) where
  pure a p := (.ok a, p)
  bind x f p :=
    match x p with
    | (.ok a, p) => f a p
    | (.error e, p) => (.error e, p)

/-- A call that fails at once. -/
def fail (e : ClientError) : Call σ α := fun p =>
  (.error e, p)

/-- The outcome of a computation that asks for nothing. -/
def ofExcept (x : Except ClientError α) : Call σ α := fun p =>
  (x, p)

/-- Asks the outside, unless the caller has called off. -/
def await (step : Step) (ask : σ → Wait ε α × σ) (wrap : ε → ClientError) : Call σ α := fun p =>
  if p.fired then (.error .cancelled, p)
  else
    let (wait, world) := ask p.world
    let trace := p.trace ++ [step]
    match wait with
    | .ends outcome fired => (outcome.mapError wrap, ⟨world, fired, trace⟩)
    | .fires => (.error .cancelled, ⟨world, true, trace⟩)

/-- Runs a call from the start. -/
def run (c : Call σ α) (world : σ) (fired : Bool) : Except ClientError α × Progress σ :=
  c ⟨world, fired, []⟩

end Call

namespace Progress

variable {σ : Type}

/-- What was handed to the network. -/
def sent (p : Progress σ) : List Outgoing :=
  p.trace.filterMap fun
    | .send o => some o
    | _ => none

/-- Whether each credential had to be a new one. -/
def forced (p : Progress σ) : List Bool :=
  p.trace.filterMap fun
    | .credential force => some force
    | _ => none

end Progress

/-- A client: the server, the notations it knows, and the outside. -/
structure Client (σ : Type) where
  base : String
  registry : Registry
  defaultNamespace : String
  host : Host σ

end KubeClient
