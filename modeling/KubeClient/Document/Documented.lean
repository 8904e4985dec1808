import KubeClient.Document.NameMap
import KubeClient.Document.Shape
import KubeClient.Scalar.Duration
import KubeClient.Scalar.IntOrString
import KubeClient.Scalar.Quantity
import KubeClient.Scalar.Timestamp
import KubeClient.Scalar.Token

/-!
# Types whose values are documents

* `Documented` : the shape of a type's documents, and both ways between values and documents;
* `Key` : a field of a record: its name, when it is left out, and what stands in for it then;
* `Value.record` : a record from its entries.

`Documented.ofValue` is total; it is applied to what a reader of the shape has accepted.
-/

namespace KubeClient

/-- A type whose values are documents. -/
class Documented (α : Type) where
  /-- The name of the type in messages. -/
  target : String
  shape : Shape
  ofValue : Value → α
  toValue : α → Value

namespace Value

/-- The text of a string. -/
def asString : Value → String
  | .string s => s
  | _ => ""

/-- The number of an integer. -/
def asInt : Value → Int
  | .number (.int n) => n
  | _ => 0

/-- The items of a list. -/
def asList : Value → List Value
  | .list vs => vs
  | _ => []

/-- The members of an object. -/
def asMembers : Value → List (String × Value)
  | .object ms => ms
  | _ => []

/-- A record: the entries that are there, in order. -/
def record (entries : List (String × Option Value)) : Value :=
  .object (entries.filterMap fun e => e.2.map fun v => (e.1, v))

end Value

open Documented

/-! ### Plain values -/

instance : Documented Value where
  target := "serde_json::value::Value"
  shape := .any
  ofValue v := v
  toValue v := v

instance : Documented Unit where
  target := "()"
  shape := .unit
  ofValue _ := ()
  toValue _ := .null

instance : Documented String where
  target := "String"
  shape := .string
  ofValue := Value.asString
  toValue := .string

instance : Documented Bool where
  target := "bool"
  shape := .bool
  ofValue
    | .bool b => b
    | _ => false
  toValue := .bool

instance : Documented Int64 where
  target := "i64"
  shape := .signed 64
  ofValue v := Int64.ofInt v.asInt
  toValue n := .int n.toInt

instance : Documented UInt16 where
  target := "u16"
  shape := .unsigned 16
  ofValue v := UInt16.ofNat v.asInt.toNat
  toValue n := .int n.toNat

instance : Documented UInt32 where
  target := "u32"
  shape := .unsigned 32
  ofValue v := UInt32.ofNat v.asInt.toNat
  toValue n := .int n.toNat

instance {α : Type} [Documented α] : Documented (Option α) where
  target := "core::option::Option<" ++ target α ++ ">"
  shape := .option (shape α)
  ofValue
    | .null => none
    | v => some (ofValue v)
  toValue
    | none => .null
    | some a => toValue a

instance {α : Type} [Documented α] : Documented (List α) where
  target := "List<" ++ target α ++ ">"
  shape := .list (shape α)
  ofValue v := v.asList.map ofValue
  toValue as := .list (as.map toValue)

instance {α : Type} [Documented α] : Documented (NameMap α) where
  target := "Map<" ++ target α ++ ">"
  shape := .map (shape α)
  ofValue v := .ofList (v.asMembers.map fun m => (m.1, ofValue m.2))
  toValue m := .object (m.members.map fun m => (m.1, toValue m.2))

/-! ### Scalars that travel as strings -/

/-- A scalar that travels as a string. -/
class Scalar (α : Type) where
  kind : String
  parse : String → Except ScalarError α
  text : α → String

/-- The documents of a scalar. -/
@[reducible] def Documented.scalar {α : Type} [Scalar α] [Inhabited α] (target : String) :
    Documented α where
  target := target
  shape := .text s!"a {Scalar.kind α} string" fun s =>
    match Scalar.parse (α := α) s with
    | .ok _ => .ok ()
    | .error e => .error e.message
  ofValue v := (Scalar.parse v.asString).toOption.getD default
  toValue a := .string (Scalar.text a)

instance : Scalar Quantity := ⟨"quantity", Quantity.parse, Quantity.text⟩
instance : Scalar Duration := ⟨"duration", Duration.parse, Duration.text⟩
instance {p : Precision} : Scalar (Timestamp p) := ⟨p.kind, Timestamp.parse p, Timestamp.text⟩
instance {α : Type} [WireToken α] : Scalar α := ⟨WireToken.kind α, WireToken.parse, WireToken.wire⟩

instance : Documented Quantity := .scalar "kbx_proto::scalar::quantity::Quantity"
instance : Documented Duration := .scalar "kbx_proto::scalar::duration::Duration"
instance : Documented (Timestamp .seconds) := .scalar "kbx_proto::scalar::time::Time"
instance : Documented (Timestamp .micros) := .scalar "MicroTime"
instance : Documented EventType := .scalar "WatchEventType"
instance : Documented StatusPhase := .scalar "StatusPhase"
instance : Documented PropagationPolicy := .scalar "PropagationPolicy"

instance : Documented IntOrString where
  target := "kbx_proto::scalar::int_or_string::IntOrString"
  shape := .intOrString
  ofValue
    | .string s => .string s
    | v => (IntOrString.ofInt? v.asInt).getD default
  toValue
    | .int n _ => .int n
    | .string s => .string s

/-! ### Fields of records -/

/-- A field of a record: its name, when it is left out, and what stands in for it then. -/
structure Key (α : Type) where
  name : String
  required : Bool
  shape : Shape
  write : α → Option Value
  read : Option Value → α

namespace Key

variable {α : Type}

/-- How the field is declared in a shape. -/
def declared (k : Key α) : String × Bool × Shape :=
  (k.name, k.required, k.shape)

/-- The field in a record, unless it is left out. -/
def entry (k : Key α) (a : α) : String × Option Value :=
  (k.name, k.write a)

/-- The field of a document. -/
def of (k : Key α) (v : Value) : α :=
  k.read (v.get? k.name)

/-- Always present. -/
def always [Documented α] (name : String) : Key α where
  name := name
  required := true
  shape := Documented.shape α
  write a := some (toValue a)
  read v := ofValue (v.getD .null)

/-- Always written; `a` if it is absent. -/
def defaulting [Documented α] (name : String) (a : α) : Key α where
  name := name
  required := false
  shape := Documented.shape α
  write a := some (toValue a)
  read
    | none => a
    | some v => ofValue v

/-- Left out when it is `none`; null also reads as `none`. -/
def optional [Documented α] (name : String) : Key (Option α) where
  name := name
  required := false
  shape := .option (Documented.shape α)
  write a := a.map toValue
  read v := ofValue (v.getD .null)

/-- Left out when it is `a`. -/
def omitting [Documented α] [DecidableEq α] (name : String) (a : α) : Key α where
  name := name
  required := false
  shape := Documented.shape α
  write b := if b = a then none else some (toValue b)
  read
    | none => a
    | some v => ofValue v

/-- A text that is left out when it is empty. -/
def text (name : String) : Key String :=
  .omitting name ""

/-- A list that is left out when it is empty. -/
def list [Documented α] (name : String) : Key (List α) where
  name := name
  required := false
  shape := .list (Documented.shape α)
  write as := if as.isEmpty then none else some (toValue as)
  read
    | none => []
    | some v => ofValue v

/-- A map that is left out when it is empty. -/
def map [Documented α] (name : String) : Key (NameMap α) where
  name := name
  required := false
  shape := .map (Documented.shape α)
  write m := if m.isEmpty then none else some (toValue m)
  read
    | none => .empty
    | some v => ofValue v

end Key
end KubeClient
