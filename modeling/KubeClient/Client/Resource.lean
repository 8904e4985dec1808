import KubeClient.Client.Connect
import KubeClient.Resource.Requests

/-!
# Calls on a resource

* `Client.find?` : an object, unless there is none;
* `Client.delete` : deletes an object and tells whether it is gone;
* `Client.logs` : a log as text;
* `Client.handle` : a handle in the client's namespace.

The other calls are `Client.invoke` of a request of `Handle`.
-/

namespace KubeClient

/-- What became of a deleted object. -/
inductive Deletion (α : Type)
  /-- It stays until others have agreed. -/
  | pending (object : α)
  | gone (status : Status)
  deriving DecidableEq, Inhabited

namespace Client

variable {σ : Type} (c : Client σ)

/-- A handle in the client's namespace. -/
def handle (r : Resource) : Handle :=
  ⟨r, some c.defaultNamespace⟩

/-- A call on a request that could perhaps not be made. -/
def withRequest {α : Type} (r : Except ClientError Request) (call : Request → Call σ α) :
    Call σ α :=
  match r with
  | .ok r => call r
  | .error e => .fail e

/-- The value that a request asks for, none if there is no such object. -/
def find? (α : Type) [Documented α] (r : Request) : Call σ (Option α) := fun p =>
  match c.invoke α r p with
  | (.ok a, p) => (.ok (some a), p)
  | (.error e, p) => (if e.isNotFound then .ok none else .error e, p)

/-- What the answer to a deletion tells: null or a status that the object is gone. -/
def deletionOf (α : Type) [Documented α] (contentType : String) (v : Value) :
    Except ClientError (Deletion α) :=
  match v with
  | .null => .ok (.gone .succeeded)
  | v =>
    match v.get? "kind" with
    | some (.string "Status") => .gone <$> Serializer.decodeDocument Status contentType [] v
    | _ => .pending <$> Serializer.decodeDocument α contentType [] v

/-- Sends a deletion and tells what became of the object. -/
def delete (α : Type) [Documented α] (r : Request) : Call σ (Deletion α) := do
  let v ← c.invoke Value r
  .ofExcept (deletionOf α c.registry.defaultType v)

/-- Sends a request for a log and reads it as text. -/
def logs (r : Request) : Call σ String := do
  return Utf8.decodeLossy (← c.invokeBytes r)

end Client
end KubeClient
