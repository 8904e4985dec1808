import KubeClient.Client.Basic

/-!
# One request and its response

* `Client.sendAuthorized` : a request is sent with a credential; if the server rejects that, once
  more with a new one;
* `Client.readBody` : all chunks of a body;
* `Client.refuse` : the failure that a response stands for which is no success;
* `Client.invoke`, `Client.invokeBytes` : the value, or the bytes, of a successful response.
-/

namespace KubeClient

open Documented

namespace Serializer

/-- The words for the length of a list of which only so many items were read. -/
def surplus : Content.Surplus := fun _ => "fewer elements in array"

/-- The value of a document. -/
def ofDocument (α : Type) [Documented α] (v : Value) : Except Cause α :=
  ((shape α).read surplus (Content.ofValue v)).map ofValue

/-- The value of a document that came as `bs`, of which no byte is to blame. -/
def decodeDocument (α : Type) [Documented α] (contentType : String) (bs : Bytes) (v : Value) :
    Except ClientError α :=
  (ofDocument α v).mapError fun cause =>
    .serialization (.decodeAt contentType (target α) bs 0 (cause.message Json.wording))

/-- The value of a body; one that stands for no value is read as null. -/
def decodeBody (α : Type) [Documented α] (s : Serializer) (bs : Bytes) : Except ClientError α :=
  match s.decode α bs with
  | .error e => .error (.serialization e)
  | .ok (some a) => .ok a
  | .ok none => decodeDocument α s.contentType bs .null

/-- The status in a body; a body that tells nothing is replaced by what `code` tells. -/
def decodeStatus (s : Serializer) (code : UInt16) (bs : Bytes) : Status :=
  match s.decode Status bs with
  | .ok (some status) =>
    if status.code ≠ 0 ∨ ¬status.message.isEmpty then
      { status with
        code := if status.code = 0 then code else status.code
        reason := if status.reason.isEmpty then Status.reasonFor code.toNat else status.reason }
    else .synthesize code bs
  | _ => .synthesize code bs

end Serializer

/-- The serializer of a response: that of its content type, or else the default one. -/
def Registry.serializerOf (r : Registry) (response : Response) : Serializer :=
  match response.header? "Content-Type" with
  | none => r.defaultSerializer
  | some contentType => (r.serializerFor contentType).toOption.getD r.defaultSerializer

namespace Client

variable {σ : Type} (c : Client σ)

/-- The status that says that the credential was rejected. -/
def unauthorized : UInt16 := 401

/-- Asks for a credential. -/
def credential (force : Bool) : Call σ Credential :=
  .await (.credential force) (c.host.credential force) .auth

/-- The headers of a request: what is accepted, who asks, and what the body is. -/
def headers (r : Request) (credential : Credential) : Pairs :=
  [("Accept", c.registry.defaultType)] ++
  (credential.authorization.map (("Authorization", ·))).toList ++
  (r.body.map fun b => ("Content-Type", b.contentType)).toList

/-- What goes to the network for a request. -/
def outgoing (r : Request) (credential : Credential) : Outgoing :=
  .request r.method (r.url c.base) (c.headers r credential) (r.body.map (·.bytes))

/-- Sends a request with a credential. -/
def dispatch (r : Request) (credential : Credential) : Call σ Response :=
  let o := c.outgoing r credential
  .await (.send o) (c.host.send o) (.transport r.method r.path)

/-- Sends a request; a rejected credential is replaced once. -/
def sendAuthorized (r : Request) : Call σ Response := do
  let credential ← c.credential false
  let response ← c.dispatch r credential
  if response.status = unauthorized then
    let credential ← c.credential true
    c.dispatch r credential
  else return response

/-- Waits for the next chunk, or for the end of a body. -/
def chunk {α : Type} (r : Request) (wait : Wait TransportError α) : Call σ α :=
  .await .chunk (fun world => (wait, world)) (.transport r.method r.path)

/-- Waits for the end of a body, behind its last chunk. -/
def bodyEnd (r : Request) : Call σ Unit := fun p =>
  chunk r (.ends (.ok ()) (c.host.ending p.world)) p

/-- All chunks of a body. -/
def readBody (r : Request) : Body → Call σ Bytes
  | [] => do
    bodyEnd c r
    return []
  | wait :: body => do
    let bytes ← chunk r wait
    return bytes ++ (← readBody r body)

/-- Fails with the status of a response that is no success. -/
def refuse {α : Type} (r : Request) (response : Response) : Call σ α := do
  let bytes ← c.readBody r response.body
  .fail (.api ((c.registry.serializerOf response).decodeStatus response.status bytes))

/-- The serializer of a successful response and all bytes of its body. -/
def finish (r : Request) (response : Response) : Call σ (Serializer × Bytes) := do
  if response.isSuccess then
    let bytes ← c.readBody r response.body
    return (c.registry.serializerOf response, bytes)
  else c.refuse r response

/-- Sends a request and reads the response. -/
def exchange (r : Request) : Call σ (Serializer × Bytes) := do
  c.finish r (← c.sendAuthorized r)

/-- Sends a request and reads a value. -/
def invoke (α : Type) [Documented α] (r : Request) : Call σ α := do
  let (serializer, bytes) ← c.exchange r
  .ofExcept (serializer.decodeBody α bytes)

/-- Sends a request and reads bytes. -/
def invokeBytes (r : Request) : Call σ Bytes := do
  let (_, bytes) ← c.exchange r
  return bytes

end Client
end KubeClient
