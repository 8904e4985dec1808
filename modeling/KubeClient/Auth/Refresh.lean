import KubeClient.Auth.Vault

/-!
# Callers in line for a refresh

Many callers may ask for a credential at once, but only one refresh runs at a time. Callers stand
in line; the first one passes the gate and asks the source, unless a refresh that was finished
while it stood in line has already brought what it wants.

* `Refresh` : the vault, the callers, and the line;
* `Refresh.arrive`, `Refresh.enter`, `Refresh.settle`, `Refresh.leave` : the steps;
* `Refresh.Event`, `Refresh.step`, `Refresh.run` : the steps as events, in any order.
-/

namespace KubeClient

/-- How far a caller has come. -/
inductive Stage
  /-- In line; `seen` refreshes had been finished when the caller came. -/
  | waiting (seen : Nat)
  /-- Past the gate, asking the source. -/
  | running
  | done (outcome : Except AuthError Issued)
  /-- Gone without an outcome. -/
  | dropped

/-- A caller who asks for a credential, a new one if `force` is set. -/
structure Caller where
  force : Bool
  stage : Stage

/-- The vault, all callers in the order in which they came, and the line of those that wait: the
first one in line is the one who may pass the gate. -/
structure Refresh where
  vault : Vault
  callers : List Caller
  line : List Nat

namespace Refresh

/-- Nobody has come. -/
def start (v : Vault) : Refresh :=
  ⟨v, [], []⟩

/-- Changes how far a caller has come. -/
def move (s : Refresh) (i : Nat) (stage : Stage) : Refresh :=
  { s with callers := s.callers.modify i ({ · with stage }) }

/-- A caller comes: it is served at once, or it gets in line. -/
def arrive (s : Refresh) (policy : Policy) (now : Clock) (force : Bool) : Refresh :=
  match if force then none else s.vault.fresh? policy now with
  | some issued => { s with callers := s.callers ++ [⟨force, .done (.ok issued)⟩] }
  | none =>
    { s with
      callers := s.callers ++ [⟨force, .waiting s.vault.runs⟩]
      line := s.line ++ [s.callers.length] }

/-- The first in line comes to the gate: it is served if it may share what was brought while it
waited, or else asks the source. -/
def enter (s : Refresh) (policy : Policy) (now : Clock) : Refresh :=
  match s.line with
  | [] => s
  | i :: line =>
    match s.callers[i]? with
    | some ⟨force, .waiting seen⟩ =>
      match if !force || s.vault.runs ≠ seen then s.vault.fresh? policy now else none with
      | some issued => { s.move i (.done (.ok issued)) with line }
      | none => s.move i .running
    | _ => s

/-- The source has answered the caller past the gate. -/
def settle (s : Refresh) (now : Clock) (outcome : Except AuthError Credential) : Refresh :=
  match s.line with
  | [] => s
  | i :: line =>
    match s.callers[i]? with
    | some ⟨_, .running⟩ =>
      match outcome with
      | .ok c =>
        { s.move i (.done (.ok (s.vault.issue c now))) with vault := s.vault.store c now, line }
      | .error e => { s.move i (.done (.error e)) with line }
    | _ => s

/-- A caller goes without an outcome. -/
def leave (s : Refresh) (i : Nat) : Refresh :=
  match s.callers[i]? with
  | some ⟨_, .waiting _⟩ | some ⟨_, .running⟩ =>
    { s.move i .dropped with line := s.line.filter (· ≠ i) }
  | _ => s

/-- What can happen. -/
inductive Event
  | arrive (now : Clock) (force : Bool)
  | enter (now : Clock)
  | settle (now : Clock) (outcome : Except AuthError Credential)
  | leave (i : Nat)

/-- What an event does. -/
def step (policy : Policy) (s : Refresh) : Event → Refresh
  | .arrive now force => s.arrive policy now force
  | .enter now => s.enter policy now
  | .settle now outcome => s.settle now outcome
  | .leave i => s.leave i

/-- What a series of events does. -/
def run (policy : Policy) (s : Refresh) (events : List Event) : Refresh :=
  events.foldl (step policy) s

/-- The source is being asked. -/
def isRunning (s : Refresh) : Bool :=
  match s.line with
  | [] => false
  | i :: _ =>
    match s.callers[i]? with
    | some ⟨_, .running⟩ => true
    | _ => false

/-- The outcome of a caller, if it has one. -/
def outcome? (s : Refresh) (i : Nat) : Option (Except AuthError Issued) :=
  match s.callers[i]? with
  | some ⟨_, .done outcome⟩ => some outcome
  | _ => none

end Refresh
end KubeClient
