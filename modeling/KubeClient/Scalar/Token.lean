import KubeClient.Scalar.Error

/-!
# Closed sets of tokens

A type whose members stand for one token each. Any other text is refused; there is no default.
-/

namespace KubeClient

/-- A type whose members are written as one token each. -/
class WireToken (α : Type) where
  kind : String
  all : List α
  wire : α → String

namespace WireToken

variable {α : Type} [WireToken α]

/-- The member of a token. -/
def ofWire? (s : String) : Option α :=
  (all (α := α)).find? fun a => wire a == s

/-- The sentence that lists every token. -/
def expectation (α : Type) [WireToken α] : String :=
  (all (α := α)).foldl (fun s a => s ++ " " ++ wire a) "expected one of:"

/-- Reads a token. -/
def parse (s : String) : Except ScalarError α :=
  match ofWire? s with
  | some a => .ok a
  | none => .error ⟨kind α, s, expectation α⟩

end WireToken

/-- The type of a change that a watch reports. -/
inductive EventType
  | added
  | modified
  | deleted
  /-- A progress marker that carries only a version. -/
  | bookmark
  /-- The watch failed. -/
  | error
  deriving DecidableEq, Repr, Inhabited

instance : WireToken EventType where
  kind := "WatchEventType"
  all := [.added, .modified, .deleted, .bookmark, .error]
  wire
    | .added => "ADDED"
    | .modified => "MODIFIED"
    | .deleted => "DELETED"
    | .bookmark => "BOOKMARK"
    | .error => "ERROR"

/-- The outcome that a status records. -/
inductive StatusPhase
  | success
  | failure
  deriving DecidableEq, Repr, Inhabited

instance : WireToken StatusPhase where
  kind := "StatusPhase"
  all := [.success, .failure]
  wire
    | .success => "Success"
    | .failure => "Failure"

/-- What a deletion does to dependent objects. -/
inductive PropagationPolicy
  | orphan
  | background
  | foreground
  deriving DecidableEq, Repr, Inhabited

instance : WireToken PropagationPolicy where
  kind := "PropagationPolicy"
  all := [.orphan, .background, .foreground]
  wire
    | .orphan => "Orphan"
    | .background => "Background"
    | .foreground => "Foreground"

end KubeClient
