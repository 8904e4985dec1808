import KubeClient.Resource.Basic
import KubeClient.Resource.Options

/-!
# Requests for resources

Each call on a resource is one request.

* `Handle.list`, `Handle.get`, `Handle.create`, … : the requests;
* `Handle.exec`, `Handle.attach` : the requests that open a session.
-/

namespace KubeClient

namespace Registry

/-- A value in the default notation. -/
def payload {α : Type} [Documented α] (r : Registry) (a : α) : Payload :=
  r.defaultSerializer.payload a

/-- A patch in the notation of its strategy. -/
def patchPayload {α : Type} [Documented α] (r : Registry) (s : PatchStrategy) (patch : α) :
    Except ClientError Payload :=
  match r.serializerFor s.contentType with
  | .ok serializer => .ok (serializer.payload patch)
  | .error e => .error (.serialization e)

end Registry

namespace Handle

variable {α : Type} [Documented α]

/-- Asks for a page of objects. -/
def list (h : Handle) (o : ListOptions) : Request :=
  o.apply { method := .get, path := h.collection }

/-- Asks for one object. -/
def get (h : Handle) (name : String) : Request :=
  { method := .get, path := h.item name }

/-- Asks for the status of one object. -/
def getStatus (h : Handle) (name : String) : Request :=
  { method := .get, path := h.subresource name "status" }

/-- Adds an object. -/
def create (h : Handle) (r : Registry) (o : WriteOptions) (a : α) : Request :=
  o.apply { method := .post, path := h.collection, body := some (r.payload a) }

/-- Puts an object in the place of another one. -/
def replace (h : Handle) (r : Registry) (o : WriteOptions) (name : String) (a : α) : Request :=
  o.apply { method := .put, path := h.item name, body := some (r.payload a) }

/-- Puts a status in the place of another one. -/
def replaceStatus (h : Handle) (r : Registry) (o : WriteOptions) (name : String) (a : α) :
    Request :=
  o.apply { method := .put, path := h.subresource name "status", body := some (r.payload a) }

/-- Changes what is at `path`. -/
def patchAt (r : Registry) (o : PatchOptions) (s : PatchStrategy) (path : String) (patch : α) :
    Except ClientError Request := do
  let body ← r.patchPayload s patch
  (o.apply s { method := .patch, path, body := some body }).mapError .config

/-- Changes an object. -/
def patch (h : Handle) (r : Registry) (o : PatchOptions) (s : PatchStrategy) (name : String)
    (patch : α) : Except ClientError Request :=
  patchAt r o s (h.item name) patch

/-- Changes a status. -/
def patchStatus (h : Handle) (r : Registry) (o : PatchOptions) (s : PatchStrategy) (name : String)
    (patch : α) : Except ClientError Request :=
  patchAt r o s (h.subresource name "status") patch

/-- Deletes an object. -/
def delete (h : Handle) (o : DeleteOptions) (name : String) : Request :=
  o.apply { method := .delete, path := h.item name }

/-- Deletes all objects that a list would show. -/
def deleteCollection (h : Handle) (o : DeleteOptions) (l : ListOptions) : Request :=
  l.apply (o.apply { method := .delete, path := h.collection })

/-- Asks for the changes of the collection. -/
def watch (h : Handle) (o : WatchOptions) : Request :=
  o.apply { method := .get, path := h.collection }

/-- Asks for the log of an object. -/
def logs (h : Handle) (o : LogOptions) (name : String) : Request :=
  o.apply { method := .get, path := h.subresource name "log" }

/-- Runs a command in an object. -/
def exec (h : Handle) (o : StreamOptions) (name : String) (command : List String) :
    Except ClientError Request :=
  match o.apply { method := .get, path := h.subresource name "exec" } with
  | .error e => .error (.config e)
  | .ok r =>
    if command = [] then .error (.config .noCommand)
    else .ok { r with query := r.query ++ command.map fun word => ("command", word) }

/-- Joins the process that runs in an object. -/
def attach (h : Handle) (o : StreamOptions) (name : String) : Except ClientError Request :=
  (o.apply { method := .get, path := h.subresource name "attach" }).mapError .config

end Handle
end KubeClient
