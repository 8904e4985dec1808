import KubeClient.Number.Instance

/-!
# Shapes of documents

A `Shape` says what a reader accepts at one place of a document: a scalar, a list, a map, a record
with named fields. Readers of all notations are driven by the same shapes.

* `Shape`, `Fields` : what is accepted;
* `Shape.expectation` : the words for it in a message;
* `Fields.names` : the names of the fields, in order.
-/

namespace KubeClient

mutual

/-- What is accepted at one place of a document. -/
inductive Shape
  /-- Any value. -/
  | any
  /-- A string. -/
  | string
  /-- A string that passes a check, which else gives the reason. -/
  | text (expectation : String) (check : String → Except String Unit)
  | bool
  /-- An integer between two bounds, named for its word. -/
  | int (word : String) (low high : Int)
  /-- A 32-bit integer, or a string. -/
  | intOrString
  /-- Null alone. -/
  | unit
  /-- Null, or the shape. -/
  | option (some : Shape)
  | list (item : Shape)
  /-- An object whose members all have one shape, kept in the order of their names. -/
  | map (member : Shape)
  /-- A record of named fields. -/
  | record (name : String) (fields : Fields)
  /-- A record that takes over the fields of an inner one. -/
  | merged (name : String) (fields inner : Fields)
  /-- One of several records, told apart by the string in the field `tag`. -/
  | tagged (name tag : String) (cases : Fields)

/-- Named shapes in order. A field that is not required may be absent. -/
inductive Fields
  | nil
  | cons (name : String) (required : Bool) (shape : Shape) (rest : Fields)

end

instance : Inhabited Shape := ⟨.any⟩
instance : Inhabited Fields := ⟨.nil⟩

namespace Fields

/-- The names and whether they are required. -/
def names : Fields → List (String × Bool)
  | .nil => []
  | .cons name required _ rest => (name, required) :: names rest

/-- The number of fields. -/
def length (fs : Fields) : Nat :=
  fs.names.length

/-- Fields from a list. -/
def ofList : List (String × Bool × Shape) → Fields
  | [] => .nil
  | (name, required, shape) :: rest => .cons name required shape (ofList rest)

end Fields

namespace Shape

/-- A field that has to be present. -/
def required (name : String) (s : Shape) : String × Bool × Shape :=
  (name, true, s)

/-- A field that may be absent. -/
def optional (name : String) (s : Shape) : String × Bool × Shape :=
  (name, false, s)

/-- A record from a list of fields. -/
def ofFields (name : String) (fields : List (String × Bool × Shape)) : Shape :=
  .record name (Fields.ofList fields)

/-- A signed word of `b` bits. -/
def signed (b : Nat) : Shape :=
  .int s!"i{b}" (-2 ^ (b - 1)) (2 ^ (b - 1) - 1)

/-- An unsigned word of `b` bits. -/
def unsigned (b : Nat) : Shape :=
  .int s!"u{b}" 0 (2 ^ b - 1)

/-- The words for a shape in a message. -/
def expectation : Shape → String
  | .any => "any valid JSON value"
  | .string => "a string"
  | .text e _ => e
  | .bool => "a boolean"
  | .int word _ _ => word
  | .intOrString => "an integer or a string"
  | .unit => "unit"
  | .option _ => "option"
  | .list _ => "a sequence"
  | .map _ => "a map"
  | .record name _ => "struct " ++ name
  | .merged name _ _ => "struct " ++ name
  | .tagged name _ _ => "internally tagged enum " ++ name

end Shape
end KubeClient
