import KubeClient.Codec.Error
import KubeClient.Document.Documented
import KubeClient.Document.Json.Printer
import KubeClient.Document.Json.Reader
import KubeClient.Document.Yaml.Printer
import KubeClient.Document.Yaml.Reader
import KubeClient.Text.Blank

/-!
# Serializers

* `Serializer` : a notation under the name of a content type;
* `Serializer.encode` : the bytes of a value;
* `Serializer.decode` : the value of bytes; blank bytes and `null` stand for no value.
-/

namespace KubeClient

/-- A notation for documents. -/
inductive Format
  | json
  | yaml
  deriving DecidableEq, Repr, Inhabited

/-! ### Offsets of positions -/

namespace Json

/-- The parts of `bs` between line feeds. -/
def lines : Bytes → List Bytes
  | [] => [[]]
  | b :: bs =>
    if b = lineFeed then [] :: lines bs
    else match lines bs with
      | [] => [[b]]
      | l :: ls => (b :: l) :: ls

/-- The offset of the byte in front of a position. -/
def Position.offset (p : Position) (bs : Bytes) : Nat :=
  (((lines bs).take (p.line - 1)).map fun l => l.length + 1).sum + (p.column - 1)

/-- The offset of the byte at which a reader gave up. -/
def Fault.at (f : Fault) (bs : Bytes) : Nat :=
  match f.position? bs with
  | some p => p.offset bs
  | none => bs.length

end Json

/-! ### Notations -/

namespace Format

/-- The bytes of a document. -/
def print : Format → Value → Bytes
  | .json, v => Json.print v
  | .yaml, v => Utf8.encode (String.ofList (Yaml.print v))

/-- The document of bytes, or the offset and the words of a failure. -/
def read (s : Shape) (bs : Bytes) : Format → Except (Nat × String) Value
  | .json => (Json.read s bs).mapError fun f => (f.at bs, f.message bs)
  | .yaml => (Yaml.read s bs).mapError fun f =>
    ((f.mark?.map (·.index)).getD bs.length, f.message)

end Format

/-! ### Serializers -/

/-- A notation under the name of a content type. -/
structure Serializer where
  contentType : String
  format : Format
  deriving DecidableEq, Repr, Inhabited

namespace Serializer

open Documented

/-- Blank bytes and `null` stand for no value. -/
def isNothing (bs : Bytes) : Bool :=
  let bs := Blank.trimBytes bs
  bs.isEmpty || bs == [0x6E, 0x75, 0x6C, 0x6C]

/-- The bytes of a value. -/
def encode {α : Type} [Documented α] (s : Serializer) (a : α) : Bytes :=
  s.format.print (toValue a)

/-- The bytes of a document which may be refused, being of the type `source`. -/
def encodeChecked (s : Serializer) (source : String) (v : Except String Value) :
    Except SerializationError Bytes :=
  match v with
  | .ok v => .ok (s.format.print v)
  | .error message => .error (.encode s.contentType source message)

/-- The value of bytes, none if they stand for no value. -/
def decode (α : Type) [Documented α] (s : Serializer) (bs : Bytes) :
    Except SerializationError (Option α) :=
  if isNothing bs then .ok none
  else match s.format.read (shape α) bs with
    | .ok v => .ok (some (ofValue v))
    | .error (offset, message) => .error (.decodeAt s.contentType (target α) bs offset message)

end Serializer
end KubeClient
