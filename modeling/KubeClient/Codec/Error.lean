import KubeClient.Text.Utf8

/-!
# Payloads that could not be read or written

* `SerializationError` : why a payload could not be read or written;
* `SerializationError.decodeAt` : a failed reading at some offset, with the bytes around it.
-/

namespace KubeClient

/-- Why a payload could not be read or written. -/
inductive SerializationError
  | decode (contentType target : String) (offset : Nat) (snippet message : String)
  | encode (contentType source message : String)
  | unsupported (contentType : String)
  deriving DecidableEq, Repr, Inhabited

namespace SerializationError

/-- The bytes that are shown on each side of a failure. -/
def snippetRadius : Nat := 24

/-- The bytes around an offset. -/
def around (bs : Bytes) (offset : Nat) : Bytes :=
  (bs.take (offset + snippetRadius)).drop (offset - snippetRadius)

/-- A failed reading of `bs` at `offset`. -/
def decodeAt (contentType target : String) (bs : Bytes) (offset : Nat) (message : String) :
    SerializationError :=
  let offset := min offset bs.length
  .decode contentType target offset (Utf8.decodeLossy (around bs offset)) message

/-- The byte at which a reading failed. -/
def offset? : SerializationError → Option Nat
  | .decode _ _ offset _ _ => some offset
  | _ => none

/-- The sentence shown to a user. -/
def message : SerializationError → String
  | .decode contentType target offset snippet message =>
    s!"cannot decode {contentType} into {target} at byte {offset}: {message} (near `{snippet}`)"
  | .encode contentType source message => s!"cannot encode {source} as {contentType}: {message}"
  | .unsupported contentType => s!"unsupported content type: {contentType}"

end SerializationError
end KubeClient
