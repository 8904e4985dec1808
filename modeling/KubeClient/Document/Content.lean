import KubeClient.Document.Cause
import KubeClient.Document.Shape
import KubeClient.Text.Numeral

/-!
# Documents that were read before their shape was known

* `Content` : a tree with every member in the order of the text, names included as they were read;
* `Content.toValue`, `Content.ofValue` : to and from values;
* `Slots` : the fields of a record that were read so far;
* `Shape.read` : reads a shape from a tree.
-/

namespace KubeClient

/-- A tree in the order of its text; an object may repeat names, and names need not be strings. -/
inductive Content
  | null
  | bool (b : Bool)
  | number (n : Number)
  | string (s : String)
  | list (items : List Content)
  | map (members : List (Content × Content))
  deriving Inhabited

namespace Content

/-- What a tree is, in a message. -/
def found : Content → Found
  | .null => .null
  | .bool b => .bool b
  | .number (.int n) => .int n
  | .number (.float x) => .float x
  | .string s => .string s
  | .list _ => .list
  | .map _ => .map

/-- A name, if it is a string. -/
def name? : Content → Option String
  | .string s => some s
  | _ => none

mutual

/-- The tree of a value. -/
def ofValue : Value → Content
  | .null => .null
  | .bool b => .bool b
  | .number n => .number n
  | .string s => .string s
  | .list items => .list (ofValues items)
  | .object members => .map (ofMembers members)

/-- The trees of values. -/
def ofValues : List Value → List Content
  | [] => []
  | v :: vs => ofValue v :: ofValues vs

/-- The members of an object as they stand. -/
def ofMembers : List (String × Value) → List (Content × Content)
  | [] => []
  | m :: ms => (.string m.1, ofValue m.2) :: ofMembers ms

end

theorem ofValues_eq_map (vs : List Value) : ofValues vs = vs.map ofValue := by
  induction vs with
  | nil => rfl
  | cons v vs ih => rw [ofValues, ih, List.map_cons]

theorem ofMembers_eq_map (ms : List (String × Value)) :
    ofMembers ms = ms.map fun m => (.string m.1, ofValue m.2) := by
  induction ms with
  | nil => rfl
  | cons m ms ih => rw [ofMembers, ih, List.map_cons]

mutual

/-- The value of a tree: members in the order of their names, the last of equal names, and those
without a name left out. -/
def toValue : Content → Value
  | .null => .null
  | .bool b => .bool b
  | .number n => .number n
  | .string s => .string s
  | .list items => .list (toValues items)
  | .map members => .object (Members.ofList (toMembers members))

/-- The values of trees. -/
def toValues : List Content → List Value
  | [] => []
  | c :: cs => toValue c :: toValues cs

/-- The named members. -/
def toMembers : List (Content × Content) → List (String × Value)
  | [] => []
  | (.string s, c) :: ms => (s, toValue c) :: toMembers ms
  | (_, _) :: ms => toMembers ms

end

end Content

/-! ### Fields of a record -/

/-- The fields of a record that were read so far. -/
abbrev Slots := List (String × Value)

namespace Slots

/-- Adds a field behind those that were read before. -/
def put (slots : Slots) (name : String) (v : Value) : Slots :=
  slots ++ [(name, v)]

/-- The record: the fields that were read in the order of their declaration. -/
def finish (slots : Slots) : List (String × Bool) → Except Cause (List (String × Value))
  | [] => .ok []
  | (name, required) :: rest =>
    match slots.lookup name with
    | some v => (finish slots rest).map ((name, v) :: ·)
    | none => if required then .error (.missingField name) else finish slots rest

end Slots

/-- The words for a record that was given as a list. -/
def Shape.lengthExpectation (name : String) (n : Nat) : String :=
  if n = 1 then s!"{name} with 1 element" else s!"{name} with {n} elements"

/-! ### Reading a shape from a tree -/

/-- A reader of trees. -/
abbrev Content.Reader := Content → Except Cause Value

namespace Content

/-- The words for the length of a list of which only so many items were read. -/
abbrev Surplus := Nat → String

/-- A named field and how to read it. -/
structure Field where
  name : String
  required : Bool
  read : Reader

/-- The field that a name stands for: by its text, or by its number. -/
def selectField (fields : List Field) : Content → Except Cause (Option Field)
  | .string s => .ok (fields.find? fun f => f.name == s)
  | .number (.int n) => if n < 0 then .error (.wrongType (.int n) "field identifier")
      else .ok fields[n.toNat]?
  | c => .error (.wrongType c.found "field identifier")

/-- Reads the members of a record one by one. -/
def readMembers (fields : List Field) (slots : Slots) : List (Content × Content) →
    Except Cause Slots
  | [] => .ok slots
  | (name, c) :: ms => do
    match ← selectField fields name with
    | none => readMembers fields slots ms
    | some f =>
      if (slots.lookup f.name).isSome then .error (.duplicateField f.name)
      else readMembers fields (slots.put f.name (← f.read c)) ms

/-- Reads the fields of a record from a list, in order. -/
def readPositions (expectation : String) (index : Nat) (slots : Slots) :
    List Field → List Content → Except Cause (Slots × List Content)
  | [], cs => .ok (slots, cs)
  | f :: fs, [] =>
    if f.required then .error (.wrongLength index expectation)
    else readPositions expectation (index + 1) slots fs []
  | f :: fs, c :: cs => do
    readPositions expectation (index + 1) (slots.put f.name (← f.read c)) fs cs

/-- Reads a record from an object or a list. -/
def readRecord (surplus : Surplus) (expectation : String) (fields : List Field) : Reader
  | .map members => do
    let slots ← readMembers fields [] members
    .object <$> slots.finish (fields.map fun f => (f.name, f.required))
  | .list items => do
    let words := Shape.lengthExpectation expectation fields.length
    let (slots, rest) ← readPositions words 0 [] fields items
    if rest.isEmpty then
      .object <$> slots.finish (fields.map fun f => (f.name, false))
    else .error (.wrongLength items.length (surplus fields.length))
  | c => .error (.wrongType c.found expectation)

/-- Reads the items of a list. -/
def readItems (read : Reader) : List Content → Except Cause (List Value)
  | [] => .ok []
  | c :: cs => do
    let v ← read c
    return v :: (← readItems read cs)

/-- Reads the members of a map. -/
def readMap (read : Reader) : List (Content × Content) → Except Cause (List (String × Value))
  | [] => .ok []
  | (.string s, c) :: ms => do
    let v ← read c
    return (s, v) :: (← readMap read ms)
  | (name, _) :: _ => .error (.wrongType name.found "a string")

/-- An integer between two bounds. -/
def readInt (word : String) (low high : Int) : Reader
  | .number (.int n) =>
    if low ≤ n ∧ n ≤ high then .ok (.int n) else .error (.wrongValue (.int n) word)
  | c => .error (.wrongType c.found word)

/-- A checked string. -/
def readText (expectation : String) (check : String → Except String Unit) : Reader
  | .string s =>
    match check s with
    | .ok () => .ok (.string s)
    | .error reason => .error (.refused reason)
  | c => .error (.wrongType c.found expectation)

/-- A 32-bit integer, or a string. -/
def readIntOrString : Reader
  | .string s => .ok (.string s)
  | .number (.int n) =>
    if Fits 32 n then .ok (.int n) else .error (.wrongValue (.int n) Shape.intOrString.expectation)
  | c => .error (.wrongType c.found Shape.intOrString.expectation)

/-- Takes the member `tag` out of an object. -/
def takeTag (tag : String) : List (Content × Content) →
    Except Cause (Option Content × List (Content × Content))
  | [] => .ok (none, [])
  | (name, c) :: ms => do
    let (found, rest) ← takeTag tag ms
    match name.name? == some tag, found with
    | true, some _ => .error (.duplicateField tag)
    | true, none => .ok (some c, rest)
    | false, found => .ok (found, (name, c) :: rest)

/-- The case that a tag names. -/
def selectCase (cases : List Field) : Content → Except Cause Field
  | .string s =>
    match cases.find? fun f => f.name == s with
    | some f => .ok f
    | none => .error (.unknownVariant s (cases.map (·.name)))
  | c => .error (.wrongType c.found "variant identifier")

/-- The tag stays in front of what the case holds. -/
def withTag (tag name : String) : Value → Value
  | .object ms => .object ((tag, .string name) :: ms)
  | v => v

/-- Reads one of several tagged records. -/
def readTagged (expectation tag : String) (cases : List Field) : Reader
  | .map members => do
    let (found, rest) ← takeTag tag members
    match found with
    | none => .error (.missingField tag)
    | some c =>
      let f ← selectCase cases c
      withTag tag f.name <$> f.read (.map rest)
  | .list [] => .error (.missingField tag)
  | .list (c :: cs) => do
    let f ← selectCase cases c
    withTag tag f.name <$> f.read (.list cs)
  | c => .error (.wrongType c.found expectation)

/-- Reads a record that takes over fields of an inner one. -/
def readMerged (expectation : String) (fields inner : List Field) : Reader
  | .map members => do
    let slots ← readMembers fields [] members
    let own ← slots.finish (fields.map fun f => (f.name, f.required))
    let rest := members.filter fun m => fields.all fun f => some f.name != m.1.name?
    let taken := rest.filter fun m => inner.any fun f => some f.name == m.1.name?
    let more ← readMembers inner [] taken
    let more ← Slots.finish more (inner.map fun f => (f.name, f.required))
    return .object (more ++ own)
  | c => .error (.wrongType c.found expectation)

end Content

mutual

/-- Reads a shape from a tree. -/
def Shape.read (surplus : Content.Surplus) : Shape → Content.Reader
  | .any => fun c => .ok c.toValue
  | .string => Content.readText Shape.string.expectation fun _ => .ok ()
  | .text e check => Content.readText e check
  | .bool => fun
    | .bool b => .ok (.bool b)
    | c => .error (.wrongType c.found Shape.bool.expectation)
  | .int word low high => Content.readInt word low high
  | .intOrString => Content.readIntOrString
  | .unit => fun
    | .null => .ok .null
    | c => .error (.wrongType c.found Shape.unit.expectation)
  | .option s => fun
    | .null => .ok .null
    | c => s.read surplus c
  | .list s => fun
    | .list items => .list <$> Content.readItems (s.read surplus) items
    | c => .error (.wrongType c.found (Shape.list s).expectation)
  | .map s => fun
    | .map members =>
      (fun ms => .object (Members.ofList ms)) <$> Content.readMap (s.read surplus) members
    | c => .error (.wrongType c.found (Shape.map s).expectation)
  | .record name fields =>
    Content.readRecord surplus ("struct " ++ name) (fields.readers surplus)
  | .merged name fields inner =>
    Content.readMerged ("struct " ++ name) (fields.readers surplus) (inner.readers surplus)
  | .tagged name tag cases =>
    Content.readTagged ("internally tagged enum " ++ name) tag (cases.readers surplus)

/-- The fields with their readers. -/
def Fields.readers (surplus : Content.Surplus) : Fields → List Content.Field
  | .nil => []
  | .cons name required shape rest =>
    ⟨name, required, shape.read surplus⟩ :: rest.readers surplus

end

end KubeClient
