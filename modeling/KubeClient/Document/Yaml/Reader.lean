import KubeClient.Document.Content
import KubeClient.Document.Yaml.Scalar
import KubeClient.Document.Yaml.Stream

/-!
# Reading shapes from YAML

A document is walked event by event. What does not have the shape is reported with the place where
its node begins, and the path that leads to it; what is wrong with the text comes up when the walk
reaches it, or at the end.

* `Yaml.Reader` : walks over a document;
* `Shape.ofEvents` : reads a shape;
* `Yaml.read` : reads a whole stream.
-/

namespace KubeClient

namespace Yaml

/-- Why a stream cannot be read. -/
inductive Fault
  | shape (cause : Cause) (place : Option (Mark × String))
  | stream (f : StreamFault)
  | endOfStream
  | manyDocuments
  | tooDeep (mark : Mark)
  | tooManyAliases
  deriving Inhabited

/-- How far the walk has come. -/
structure Walk where
  position : Nat
  /-- The number of aliases that were followed. -/
  jumps : Nat

/-- Where the walk takes place. -/
structure Place where
  document : Document
  /-- The levels that may still be entered. -/
  depth : Nat
  /-- The path to here, none at the root. -/
  path : Option String

/-- Walks over a document. -/
abbrev Reader := ReaderT Place (EStateM Fault Walk)

namespace Reader

variable {α : Type}

/-- Fails for a reason whose place is not known yet. -/
def failShape (cause : Cause) : Reader α :=
  throw (.shape cause none)

/-- The outcome of a check that knows no place. -/
def ofExcept : Except Cause α → Reader α
  | .ok a => return a
  | .error cause => failShape cause

/-- The next event, which stays. -/
def peek : Reader (Node × Mark) := do
  let d := (← read).document
  match d.events[(← get).position]? with
  | some e => return e
  | none => throw (d.fault.elim .endOfStream .stream)

/-- Steps over the next event. -/
def advance : Reader Unit :=
  modify fun w => { w with position := w.position + 1 }

/-- Gives a failure without a place the place `m`. -/
def locate (m : Mark) (r : Reader α) : Reader α := fun p w =>
  match r p w with
  | .ok a w => .ok a w
  | .error (.shape cause none) w => .error (.shape cause (some (m, p.path.getD "."))) w
  | .error f w => .error f w

/-- Runs `r` at the anchor, if an alias comes next. -/
def jumping (r : Reader α) : Reader α := do
  match ← peek with
  | (.alias id, _) =>
    advance
    let d := (← read).document
    modify fun w => { w with jumps := w.jumps + 1 }
    if d.events.size * 100 < (← get).jumps then throw .tooManyAliases
    let after := (← get).position
    modify fun w => { w with position := (d.anchors.lookup id).getD d.events.size }
    let a ← r
    modify fun w => { w with position := after }
    return a
  | _ => r

/-- Runs `r` on the node that comes next. -/
def node (r : Node → Mark → Reader α) : Reader α :=
  jumping do
    let (n, m) ← peek
    advance
    locate m (r n m)

/-- One level deeper; levels are limited. -/
def deeper (m : Mark) (r : Reader α) : Reader α := do
  let p ← read
  if p.depth = 0 then throw (.tooDeep m)
  else withReader (fun p => { p with depth := p.depth - 1 }) r

/-- Runs `r` at the item `i`. -/
def atItem (i : Nat) (r : Reader α) : Reader α :=
  withReader (fun p => { p with path := some (p.path.getD "." ++ s!"[{i}]") }) r

/-- Runs `r` at the member whose name is read as `text`. -/
def atMember (text : Option String) (r : Reader α) : Reader α :=
  withReader (fun p =>
    { p with path := some ((p.path.elim "" (· ++ ".")) ++ text.getD "?") }) r

/-! ### Sequences and mappings -/

/-- Items one by one, folded into `a`, to the end of the sequence. -/
def foldItems (item : α → Reader α) (index : Nat) (a : α) : Nat → Reader α
  | 0 => throw .endOfStream
  | fuel + 1 => do
    match (← peek).1 with
    | .sequenceEnd =>
      advance
      return a
    | _ => foldItems item (index + 1) (← atItem index (item a)) fuel

/-- Members one by one, folded into `a`, to the end of the mapping. -/
def foldMembers {κ : Type} (key : Bool → Reader κ) (member : α → κ → Reader α) (first : Bool)
    (a : α) : Nat → Reader α
  | 0 => throw .endOfStream
  | fuel + 1 => do
    let text ← match (← peek).1 with
      | .mappingEnd =>
        advance
        return a
      | .scalar _ text _ => pure (some (String.ofList text))
      | _ => pure none
    let k ← key first
    foldMembers key member false (← atMember text (member a k)) fuel

/-- The number of events, which bounds the items of a sequence. -/
def size : Reader Nat := do
  return (← read).document.events.size + 1

/-- The items of a sequence that began at `m`, folded into `a`. -/
def items (m : Mark) (item : α → Reader α) (a : α) : Reader α := do
  deeper m (foldItems item 0 a (← size))

/-- The members of a mapping that began at `m`, folded into `a`; `key` is told whether the first
name is read. -/
def members {κ : Type} (m : Mark) (key : Bool → Reader κ) (member : α → κ → Reader α) (a : α) :
    Reader α := do
  deeper m (foldMembers key member true a (← size))

/-- Nothing, where a collection may stand. -/
def isEmpty : Node → Bool
  | .void => true
  | .scalar _ [] .plain => true
  | _ => false

/-- Steps over nodes until the open collections are closed. -/
def skipOpen (level : Nat) : Nat → Reader Unit
  | 0 => return ()
  | fuel + 1 => do
    let level := match (← peek).1 with
      | .sequenceStart _ | .mappingStart _ => level + 1
      | .sequenceEnd | .mappingEnd => level - 1
      | _ => level
    advance
    if level = 0 then return () else skipOpen level fuel

/-- Steps over a node. -/
def skip : Reader Unit := do
  skipOpen 0 (← size)

/-! ### Scalars -/

/-- The full form of a tag that YAML defines. -/
def coreTag (name : String) : List Char :=
  ("tag:yaml.org,2002:" ++ name).toList

/-- The characters of a tag stand for its bytes, which are UTF-8 or not. -/
def isText (tag : List Char) : Bool :=
  (Utf8.decode? (tag.map fun c => c.toNat.toUInt8)).isSome

/-- Tags with an exclamation mark in front name variants, if they are text. -/
def isVariantTag (tag : Option (List Char)) : Bool :=
  tag.any fun t => t.head? == some '!' && isText t

/-- What a scalar is, given its tag and style. -/
def found (tag : Option (List Char)) (text : List Char) (style : ScalarStyle) :
    Except Cause Found :=
  let s := String.ofList text
  let wrong (expected : String) : Except Cause Found := .error (.wrongValue (.string s) expected)
  match tag with
  | none => .ok (if style = .plain then Plain.found text else .string s)
  | some t =>
    if t = coreTag "bool" then
      match Plain.bool? text with
      | some b => .ok (.bool b)
      | none => wrong "a boolean"
    else if t = coreTag "int" then
      match Plain.integerFound? text with
      | some n => .ok n
      | none => wrong "an integer"
    else if t = coreTag "float" then
      match Plain.float? text with
      | some x => .ok (.float x)
      | none => wrong "a float"
    else if t = coreTag "null" then
      if Plain.isNull text then .ok .null else wrong "null"
    else if t.head? = some '!' ∧ style = .plain then .ok (Plain.found text)
    else .ok (.string s)

/-- Fails for a node where `expected` was asked for. -/
def mismatch (n : Node) (expected : String) : Reader α := do
  match n with
  | .scalar tag text style => failShape (.wrongType (← ofExcept (found tag text style)) expected)
  | .sequenceStart _ => failShape (.wrongType .list expected)
  | .mappingStart _ => failShape (.wrongType .map expected)
  | _ => throw .endOfStream

/-- The text of a scalar, whatever it stands for. -/
def text (expected : String) : Reader String :=
  node fun n _ =>
    match n with
    | .scalar _ text _ => return String.ofList text
    | n => mismatch n expected

/-- A checked string. -/
def checkedString (expected : String) (check : String → Except String Unit) : Reader Value :=
  node fun n _ =>
    match n with
    | .scalar _ text _ =>
      let s := String.ofList text
      match check s with
      | .ok () => return .string s
      | .error reason => failShape (.refused reason)
    | n => mismatch n expected

/-- The scalar may be read as a kind of its own: it is plain, or literal with the kind's tag. -/
def isOfKind (kind : String) (tag : Option (List Char)) (style : ScalarStyle) : Bool :=
  style == .plain || (style == .literal && tag == some (coreTag kind))

/-- A boolean. -/
def boolean : Reader Value :=
  node fun n _ =>
    match n with
    | .scalar tag text style =>
      match if isOfKind "bool" tag style then Plain.bool? text else none with
      | some b => return .bool b
      | none => mismatch n Shape.bool.expectation
    | n => mismatch n Shape.bool.expectation

/-- An integer between two bounds. -/
def boundedInt (word : String) (low high : Int) : Reader Value :=
  node fun n _ =>
    match n with
    | .scalar tag text style =>
      let read := if low < 0 then Plain.int64? else Plain.uint64?
      match if isOfKind "int" tag style then read text else none with
      | some i => ofExcept (Content.readInt word low high (.number (.int i)))
      | none => mismatch n word
    | n => mismatch n word

/-- Null alone. -/
def unit : Reader Value :=
  node fun n _ =>
    match n with
    | .void => return .null
    | .scalar tag text style =>
      let isNull := style == .plain && match tag with
        | some t => t == coreTag "null" && Plain.isNull text
        | none => text.isEmpty || Plain.isNull text
      if isNull then return .null
      else failShape (.wrongValue (.string (String.ofList text)) "null")
    | n => mismatch n Shape.unit.expectation

/-- Something is there, where null would do. -/
def isPresent : Node → Except Cause Bool
  | .scalar (some tag) text .plain =>
    if tag = coreTag "null" then
      if Plain.isNull text then .ok false
      else .error (.wrongValue (.string (String.ofList text)) "null")
    else .ok true
  | .scalar none text .plain => .ok (!(text.isEmpty || Plain.isNull text))
  | .void => .ok false
  | _ => .ok true

/-- Null, or what `r` reads. -/
def optional (r : Reader Value) : Reader Value :=
  jumping do
    if ← ofExcept (isPresent (← peek).1) then r
    else
      advance
      return .null

/-! ### Values of any shape -/

/-- What is asked for where anything will do. -/
structure Wish where
  expected : String
  /-- The complaint about tags that name variants. -/
  variant : Cause
  /-- The complaint about integers of more than 64 bits. -/
  wide : Int → String → Cause

/-- A scalar of any kind. -/
def anyScalar (w : Wish) (tag : Option (List Char)) (text : List Char) (style : ScalarStyle) :
    Reader Content := do
  match ← ofExcept (found tag text style) with
  | .null => return .null
  | .bool b => return .bool b
  | .int n => return .number (.int n)
  | .float x => return .number (.float x)
  | .string s => return .string s
  | .wide n word => failShape (w.wide n word)
  | f => failShape (.wrongType f w.expected)

/-- A node of any kind, given how its collections are read. -/
def anyNode (w : Wish) (onList onMap : Mark → Reader Content) : Reader Content :=
  node fun n m => do
    match n with
    | .void => return .null
    | .scalar tag text style =>
      if isVariantTag tag then failShape w.variant else anyScalar w tag text style
    | .sequenceStart tag => if isVariantTag tag then failShape w.variant else onList m
    | .mappingStart tag => if isVariantTag tag then failShape w.variant else onMap m
    | _ => throw .endOfStream

/-- A node whose shape is not known yet. -/
def contentWish : Wish where
  expected := "any value"
  variant := .refused "untagged and internally tagged enums do not support enum input"
  wide n word := .wrongType (.wide n word) "any value"

/-- A node whose shape is not known yet. -/
def content : Nat → Reader Content
  | 0 => throw .endOfStream
  | fuel + 1 =>
    anyNode contentWish
      (fun m => do
        let cs ← items m (fun cs => do return (← content fuel) :: cs) []
        return .list cs.reverse)
      (fun m => do
        let ms ← members m (fun _ => content fuel)
          (fun ms k => do return (k, ← content fuel) :: ms) []
        return .map ms.reverse)

/-- A node of any shape. -/
def valueWish : Wish where
  expected := Shape.any.expectation
  variant := .wrongType .variant Shape.any.expectation
  wide _ _ := .refused "JSON number out of range"

/-- Doubles that are not finite stand for null. -/
def finite : Content → Content
  | .number (.float x) => if x.isNaN || x.isInf then .null else .number (.float x)
  | c => c

/-- A node of any shape; its names are strings. -/
def value : Nat → Reader Content
  | 0 => throw .endOfStream
  | fuel + 1 => do
    finite <$> anyNode valueWish
      (fun m => do
        let cs ← items m (fun cs => do return (← value fuel) :: cs) []
        return .list cs.reverse)
      (fun m => do
        let ms ← members m (fun first => text (if first then "a string key" else "a string"))
          (fun ms k => do return (.string k, ← value fuel) :: ms) []
        return .map ms.reverse)

/-- A 32-bit integer, or a string. -/
def intOrString : Reader Value :=
  let expected := Shape.intOrString.expectation
  node fun n _ => do
    match n with
    | .void => failShape (.wrongType .option expected)
    | .scalar tag text style =>
      if isVariantTag tag then failShape (.wrongType .variant expected)
      else
        match ← ofExcept (found tag text style) with
        | .string s => return .string s
        | .int i => ofExcept (Content.readIntOrString (.number (.int i)))
        | f => failShape (.wrongType f expected)
    | .sequenceStart tag =>
      failShape (.wrongType (if isVariantTag tag then .variant else .list) expected)
    | .mappingStart tag =>
      failShape (.wrongType (if isVariantTag tag then .variant else .map) expected)
    | _ => throw .endOfStream

/-! ### Collections -/

/-- Lists and mappings nest less deep than this. -/
def maxDepth : Nat := 128

/-- Enough for every value: levels are limited, and an alias leads to a collection. -/
def anyFuel : Nat := maxDepth + 2

/-- A list of one shape. -/
def list (expected : String) (r : Reader Value) : Reader Value :=
  node fun n m => do
    match n with
    | .sequenceStart _ =>
      let vs ← items m (fun vs => do return (← r) :: vs) []
      return .list vs.reverse
    | n => if isEmpty n then return .list [] else mismatch n expected

/-- A map whose members have one shape. -/
def map (expected : String) (r : Reader Value) : Reader Value :=
  node fun n m => do
    match n with
    | .mappingStart _ =>
      let ms ← members m (fun _ => text Shape.string.expectation)
        (fun ms k => do return Members.insert k (← r) ms) []
      return .object ms
    | n => if isEmpty n then return .object [] else mismatch n expected

/-- A named field and how to read it. -/
structure Field where
  name : String
  required : Bool
  read : Reader Value

/-- The words for the names of fields. -/
def fieldIdentifier : String := "field identifier"

/-- Reads the value of a member into the field of its name; other members are skipped. -/
def fieldMember (fields : List Field) (slots : Slots) (k : String) : Reader Slots := do
  match fields.find? fun f => f.name == k with
  | none =>
    skip
    return slots
  | some f =>
    if (slots.lookup k).isSome then failShape (.duplicateField k)
    else return slots.put k (← f.read)

/-- The fields with whether they are required. -/
def declared (fields : List Field) : List (String × Bool) :=
  fields.map fun f => (f.name, f.required)

/-- A record. -/
def record (expected : String) (fields : List Field) : Reader Value :=
  node fun n m => do
    match n with
    | .mappingStart _ =>
      let slots ← members m (fun _ => text fieldIdentifier) (fieldMember fields) []
      .object <$> ofExcept (Slots.finish slots (declared fields))
    | n =>
      if isEmpty n then .object <$> ofExcept (Slots.finish [] (declared fields))
      else mismatch n expected

/-- The words for the length of a list that was read before its shape was known. -/
def surplus : Content.Surplus := fun n =>
  if n = 1 then "1 element in sequence" else s!"{n} elements in sequence"

/-- The record from its own fields and the members that none of them took. -/
def finishMerged (expected : String) (fields : List Field) (inner : List Content.Field)
    (slots : Slots) (others : List (Content × Content)) : Except Cause Value := do
  let own ← Slots.finish slots (declared fields)
  let taken := others.filter fun m => inner.any fun f => some f.name == m.1.name?
  match ← Content.readRecord surplus expected inner (.map taken) with
  | .object ms => return .object (ms ++ own)
  | v => return v

/-- A record that takes over the fields of an inner one. -/
def merged (expected : String) (fields : List Field) (inner : List Content.Field) :
    Reader Value :=
  node fun n m => do
    match n with
    | .mappingStart _ =>
      let (slots, others) ← members m (fun _ => text fieldIdentifier) (fun (slots, others) k => do
        match fields.find? fun f => f.name == k with
        | none => return (slots, (.string k, ← content anyFuel) :: others)
        | some _ => return (← fieldMember fields slots k, others)) (([] : Slots), [])
      ofExcept (finishMerged expected fields inner slots others.reverse)
    | n =>
      if isEmpty n then ofExcept (finishMerged expected fields inner [] [])
      else mismatch n expected

/-- The name of a case. -/
def caseName (cases : List Content.Field) : Reader Content :=
  node fun n _ => do
    match n with
    | .scalar _ text _ =>
      let s := String.ofList text
      let _ ← ofExcept (Content.selectCase cases (.string s))
      return .string s
    | n => mismatch n "variant identifier"

/-- The members of a tagged record; its tag is read as the name of a case. -/
def taggedMembers (tag : String) (cases : List Content.Field) (m : Mark) : Reader Content := do
  let (found, others) ← members m (fun _ => content anyFuel) (fun (found, others) k => do
    if k.name? = some tag then
      if found.isSome then failShape (.duplicateField tag)
      else return (some (← caseName cases), others)
    else return (found, (k, ← content anyFuel) :: others)) ((none : Option Content), [])
  match found with
  | none => failShape (.missingField tag)
  | some c => return .map ((.string tag, c) :: others.reverse)

/-- The items of a tagged record; its tag comes first. -/
def taggedItems (tag : String) (cases : List Content.Field) (m : Mark) : Reader Content := do
  let cs ← items m (fun cs => do
    if cs.isEmpty then return [← caseName cases] else return (← content anyFuel) :: cs) []
  if cs.isEmpty then failShape (.missingField tag) else return .list cs.reverse

/-- One of several tagged records. A fault in what its case holds is one of the record around. -/
def tagged (expected tag : String) (cases : List Content.Field) : Reader Value := do
  let c ← node fun n m => do
    let variant (t : Option (List Char)) (r : Reader Content) : Reader Content :=
      if isVariantTag t then failShape (.wrongType .variant expected) else r
    match n with
    | .void => failShape (.wrongType .option expected)
    | .mappingStart t => variant t (taggedMembers tag cases m)
    | .sequenceStart t => variant t (taggedItems tag cases m)
    | .scalar t _ _ => variant t (mismatch n expected)
    | n => mismatch n expected
  ofExcept (Content.readTagged expected tag cases c)

end Reader

end Yaml

open Yaml

mutual

/-- Reads a shape from the events of a document. -/
def Shape.ofEvents : Shape → Reader Value
  | .any => Content.toValue <$> Reader.value Reader.anyFuel
  | .string => Reader.checkedString Shape.string.expectation fun _ => .ok ()
  | .text e check => Reader.checkedString e check
  | .bool => Reader.boolean
  | .int word low high => Reader.boundedInt word low high
  | .intOrString => Reader.intOrString
  | .unit => Reader.unit
  | .option s => Reader.optional s.ofEvents
  | .list s => Reader.list (Shape.list s).expectation s.ofEvents
  | .map s => Reader.map (Shape.map s).expectation s.ofEvents
  | .record n fields => Reader.record ("struct " ++ n) fields.ofEvents
  | .merged n fields inner =>
    Reader.merged ("struct " ++ n) fields.ofEvents (inner.readers Reader.surplus)
  | .tagged n tag cases =>
    Reader.tagged ("internally tagged enum " ++ n) tag (cases.readers Reader.surplus)

/-- The fields with their readers. -/
def Fields.ofEvents : Fields → List Reader.Field
  | .nil => []
  | .cons n required shape rest => ⟨n, required, shape.ofEvents⟩ :: rest.ofEvents

end

namespace Yaml

/-- Reads the only document of a stream. -/
def read (s : Shape) (bs : Bytes) : Except Fault Value :=
  let (d, more) := Document.ofBytes bs
  match s.ofEvents ⟨d, Reader.maxDepth, none⟩ ⟨0, 0⟩ with
  | .error f _ => .error f
  | .ok v _ =>
    match d.fault with
    | some f => .error (.stream f)
    | none => if more then .error .manyDocuments else .ok v

/-- How YAML words what was found. -/
def wording : Wording where
  null := "unit value"
  float x := String.ofList (FloatText.positional x)

/-- Where a fault was noticed. -/
def Fault.mark? : Fault → Option Mark
  | .shape _ place => place.map (·.1)
  | .stream f => some f.mark
  | .tooDeep m => some m
  | _ => none

/-- The words for a fault. -/
def Fault.message : Fault → String
  | .shape cause place =>
    let path := match place with
      | some (_, path) => if path = "." then "" else path ++ ": "
      | none => ""
    let mark := match place with
      | some (m, _) => if m.isStart then "" else " at " ++ m.words
      | none => ""
    path ++ cause.message wording ++ mark
  | .stream f => f.message
  | .endOfStream => "EOF while parsing a value"
  | .manyDocuments =>
    "deserializing from YAML containing more than one document is not supported"
  | .tooDeep m => "recursion limit exceeded" ++ if m.isStart then "" else " at " ++ m.words
  | .tooManyAliases => "repetition limit exceeded"

end Yaml
end KubeClient
