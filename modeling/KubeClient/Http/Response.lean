import KubeClient.Http.Request
import KubeClient.Text.Inspect

/-!
# Responses

* `TransportError` : why the network gave no answer;
* `Wait` : how a wait for the outside ends;
* `Response` : status, headers, and the chunks of the body as they come.
-/

namespace KubeClient

/-- Why the network gave no answer. -/
inductive TransportError
  | io (reason : String)
  | http (reason : String)
  | webSocket (reason : String)
  | closed
  deriving DecidableEq, Repr, Inhabited

/-- The sentence shown to a user. -/
def TransportError.message : TransportError → String
  | .io reason => reason
  | .http reason => "http: " ++ reason
  | .webSocket reason => "websocket: " ++ reason
  | .closed => "connection closed"

/-- How a wait for the outside ends. -/
inductive Wait (ε α : Type)
  /-- What was waited for comes; `fired` says whether the caller has called off by then. -/
  | ends (outcome : Except ε α) (fired : Bool)
  /-- The caller calls off before anything comes. -/
  | fires

/-- The chunks of a body, which ends behind the last one. -/
abbrev Body := List (Wait TransportError Bytes)

/-- Status, headers, and the chunks of the body as they come. -/
structure Response where
  status : UInt16
  headers : Pairs
  body : Body

namespace Response

/-- The value of the first header of a name; case does not matter in ASCII. -/
def header? (r : Response) (name : String) : Option String :=
  (r.headers.find? fun h => h.1.toList.map Char.toLower == name.toList.map Char.toLower).map (·.2)

/-- The status says that the request was carried out. -/
def isSuccess (r : Response) : Bool :=
  200 ≤ r.status && r.status < 300

/-- How a response is inspected; the body is left out. -/
def inspect (r : Response) : String :=
  let headers := r.headers.map fun h =>
    "(" ++ Inspect.string h.1 ++ ", " ++ Inspect.string h.2 ++ ")"
  Inspect.openRecord "HttpResponse"
    [("status", toString r.status.toNat), ("headers", Inspect.list headers)]

end Response
end KubeClient
