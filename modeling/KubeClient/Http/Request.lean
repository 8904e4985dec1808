import KubeClient.Codec.Serializer
import KubeClient.Http.Percent

/-!
# Requests

* `Method` : what a request does;
* `Request` : a request to a server whose address is not part of it;
* `Request.url` : where it goes once the address is known;
* `Outgoing` : what is handed to the network.
-/

namespace KubeClient

/-- What a request does. -/
inductive Method
  | get
  | post
  | put
  | patch
  | delete
  deriving DecidableEq, Repr, Inhabited

/-- The token of a method. -/
def Method.text : Method → String
  | .get => "GET"
  | .post => "POST"
  | .put => "PUT"
  | .patch => "PATCH"
  | .delete => "DELETE"

/-- Bytes and the content type that says what they are. -/
structure Payload where
  contentType : String
  bytes : Bytes
  deriving DecidableEq, Repr, Inhabited

/-- The bytes of a value under the serializer's content type. -/
def Serializer.payload {α : Type} [Documented α] (s : Serializer) (a : α) : Payload :=
  ⟨s.contentType, s.encode a⟩

/-- Names and values in order; a name may come more than once. -/
abbrev Pairs := List (String × String)

/-- A request to a server whose address is not part of it. -/
structure Request where
  method : Method
  path : String
  query : Pairs := []
  body : Option Payload := none
  deriving DecidableEq, Repr, Inhabited

namespace Request

/-- Adds a pair at the end of the query. -/
def add (r : Request) (name value : String) : Request :=
  { r with query := r.query ++ [(name, value)] }

/-- Adds a pair if there is a value. -/
def add? (r : Request) (name : String) (value : Option String) : Request :=
  match value with
  | none => r
  | some v => r.add name v

/-- Adds `name=true` if the flag is set. -/
def addFlag (r : Request) (name : String) (flag : Bool) : Request :=
  if flag then r.add name "true" else r

/-- The written form of a pair. -/
def pairText (p : String × String) : List Char :=
  (Percent.encode p.1).toList ++ '=' :: (Percent.encode p.2).toList

/-- The written form of a query: pairs behind `?`, with `&` between them. -/
def queryText : Pairs → List Char
  | [] => []
  | p :: ps => '?' :: pairText p ++ ps.flatMap fun p => '&' :: pairText p

/-- An address without slashes at its end. -/
def trimSlashes (base : List Char) : List Char :=
  (base.reverse.dropWhile (· == '/')).reverse

/-- Where a request to the server at `base` goes. -/
def url (r : Request) (base : String) : String :=
  String.ofList (trimSlashes base.toList ++ r.path.toList ++ queryText r.query)

end Request

/-- What is handed to the network. -/
inductive Outgoing
  | request (method : Method) (url : String) (headers : Pairs) (body : Option Bytes)
  /-- Asks for a connection that carries messages both ways. -/
  | upgrade (url : String) (headers : Pairs) (protocols : List String)
  deriving DecidableEq, Repr, Inhabited

end KubeClient
