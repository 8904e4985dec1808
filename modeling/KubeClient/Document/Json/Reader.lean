import KubeClient.Document.Content
import KubeClient.Document.Json.Scalar

/-!
# Reading shapes from JSON text

A document is read once, front to back, and the first thing that goes wrong is reported, whether
it is the text or the shape.

* `Reader.skipValue` : a value that nothing asks for;
* `Reader.content` : a value whose shape is not known yet;
* `Shape.ofText` : a shape;
* `Json.read` : a whole document.
-/

namespace KubeClient

namespace Json

namespace Reader

variable {α : Type}

/-! ### Lists and objects -/

/-- Some item comes next in a list. -/
def moreItems (first : Bool) : Reader Bool := do
  match ← peekToken with
  | none => failNext .endInList
  | some b =>
    if b = 0x5D then return false
    else if first then return true
    else if b = 0x2C then
      advance
      match ← peekToken with
      | none => failNext .endInValue
      | some b => if b = 0x5D then failNext .trailingComma else return true
    else failNext .noListEnd

/-- The bracket that ends a list. -/
def endList : Reader Unit := do
  match ← peekToken with
  | none => failNext .endInList
  | some b =>
    if b = 0x5D then advance
    else if b = 0x2C then
      advance
      if (← peekToken) = some 0x5D then failNext .trailingComma else failNext .trailingCharacters
    else failNext .trailingCharacters

/-- Some member comes next in an object. -/
def moreMembers (first : Bool) : Reader Bool := do
  match ← peekToken with
  | none => failNext .endInObject
  | some b =>
    if b = 0x7D then return false
    else if first then
      if b = 0x22 then return true else failNext .keyNotString
    else if b = 0x2C then
      advance
      match ← peekToken with
      | none => failNext .endInValue
      | some b =>
        if b = 0x22 then return true
        else if b = 0x7D then failNext .trailingComma
        else failNext .keyNotString
    else failNext .noObjectEnd

/-- The brace that ends an object. -/
def endObject : Reader Unit := do
  match ← peekToken with
  | none => failNext .endInObject
  | some b =>
    if b = 0x7D then advance
    else if b = 0x2C then failNext .trailingComma
    else failNext .trailingCharacters

/-- The name of a member, its quote being next. -/
def name : Reader String := do
  advance
  stringBody

/-- The colon behind a name. -/
def colon : Reader Unit := do
  match ← peekToken with
  | none => failNext .endInObject
  | some b => if b = 0x3A then advance else failNext .noColon

/-- One level deeper, past the opening byte; levels are limited. -/
def nested (depth : Nat) (r : Nat → Reader α) (close : Reader Unit) : Reader α := do
  if depth ≤ 1 then failNext .tooDeep
  else closing (do advance; r (depth - 1)) close

/-- Items one by one, folded into `a`; `fuel` bounds their number by the bytes that are left. -/
def foldItems (item : α → Reader α) (first : Bool) (a : α) : Nat → Reader α
  | 0 => return a
  | fuel + 1 => do
    if ← moreItems first then foldItems item false (← item a) fuel else return a

/-- Members one by one, folded into `a`; `member` reads what follows the name. -/
def foldMembers (member : α → String → Reader α) (first : Bool) (a : α) : Nat → Reader α
  | 0 => return a
  | fuel + 1 => do
    if ← moreMembers first then
      let n ← name
      foldMembers member false (← member a n) fuel
    else return a

/-- The items of a list, folded into `a`. -/
def items (item : α → Reader α) (a : α) : Reader α := do
  foldItems item true a ((← remaining) + 1)

/-- The members of an object, folded into `a`. -/
def members (member : α → String → Reader α) (a : α) : Reader α := do
  foldMembers member true a ((← remaining) + 1)

/-! ### Values that nothing asks for -/

/-- What an opening byte started. -/
inductive Frame
  | list
  | object
  deriving DecidableEq, Repr

/-- A name and its colon in a skipped object. -/
def skipName : Reader Unit := do
  match ← peekToken with
  | none => failNext .endInObject
  | some b =>
    if b = 0x22 then
      advance
      skipString ((← remaining) + 1)
      match ← peekToken with
      | none => failNext .endInObject
      | some b => if b = 0x3A then advance else failNext .noColon
    else failNext .keyNotString

/-- Steps over one scalar, or into a list or an object. -/
def skipStart : Reader (Option Frame) := do
  match ← peekToken with
  | none => failNext .endInValue
  | some b =>
    if b = 0x6E then advance; ident [0x75, 0x6C, 0x6C]; return none
    else if b = 0x74 then advance; ident [0x72, 0x75, 0x65]; return none
    else if b = 0x66 then advance; ident [0x61, 0x6C, 0x73, 0x65]; return none
    else if b = 0x2D then advance; skipNumber; return none
    else if isDigit b then skipNumber; return none
    else if b = 0x22 then advance; skipString ((← remaining) + 1); return none
    else if b = 0x5B then advance; return some .list
    else if b = 0x7B then advance; return some .object
    else failNext .noValue

/-- Closes what ends here. `open_` are the frames around this place, the innermost first; answers
those that are still open when another value follows. -/
def skipClosers (mayClose : Bool) (open_ : List Frame) : Nat → Reader (List Frame)
  | 0 => return open_
  | fuel + 1 => do
    match open_ with
    | [] => return []
    | f :: outer =>
      match ← peekToken with
      | none => failNext (if f = .list then .endInList else .endInObject)
      | some b =>
        if b = 0x2C ∧ mayClose then advance; return open_
        else if (b = 0x5D ∧ f = .list) ∨ (b = 0x7D ∧ f = .object) then
          advance
          skipClosers true outer fuel
        else if mayClose then failNext (if f = .list then .noListEnd else .noObjectEnd)
        else return open_

/-- Steps over values until `open_` is closed. -/
def skipOpen (open_ : List Frame) : Nat → Reader Unit
  | 0 => failNext .endInValue
  | fuel + 1 => do
    let started ← skipStart
    let inside := match started with
      | some f => f :: open_
      | none => open_
    match ← skipClosers started.isNone inside ((← remaining) + 1) with
    | [] => return ()
    | f :: outer =>
      if f = .object then skipName
      skipOpen (f :: outer) fuel

/-- Steps over a value. -/
def skipValue : Reader Unit := do
  skipOpen [] ((← remaining) + 1)

/-! ### Values of any shape -/

/-- A word such as `null`, its first byte being next. -/
def word (rest : Bytes) (a : α) : Reader α := do
  advance
  ident rest
  return a

/-- A scalar of any kind, or the byte that does not start one. -/
def scalar : Reader (Content ⊕ UInt8) := do
  match ← peekToken with
  | none => failNext .endInValue
  | some b =>
    if b = 0x6E then word [0x75, 0x6C, 0x6C] (.inl .null)
    else if b = 0x74 then word [0x72, 0x75, 0x65] (.inl (.bool true))
    else if b = 0x66 then word [0x61, 0x6C, 0x73, 0x65] (.inl (.bool false))
    else if b = 0x2D ∨ isDigit b then return .inl (.number (← number))
    else if b = 0x22 then return .inl (.string (← name))
    else return .inr b

/-- A value whose shape is not known yet. -/
def content : Nat → Reader Content
  | 0 => failNext .tooDeep
  | depth + 1 => locate do
    match ← scalar with
    | .inl c => return c
    | .inr b =>
      if b = 0x5B then
        nested (depth + 1) (fun _ => do
          let cs ← items (fun cs => do return (← content depth) :: cs) []
          return .list cs.reverse) endList
      else if b = 0x7B then
        nested (depth + 1) (fun _ => do
          let ms ← members (fun ms n => do
            colon
            return (.string n, ← content depth) :: ms) []
          return .map ms.reverse) endObject
      else failNext .noValue

/-! ### Shapes -/

/-- Fails for the value that comes next, where `expected` was asked for. -/
def mismatch (expected : String) : Reader α := locate do
  match ← scalar with
  | .inl c => failShape (.wrongType c.found expected)
  | .inr b =>
    if b = 0x5B then failShape (.wrongType .list expected)
    else if b = 0x7B then failShape (.wrongType .map expected)
    else failNext .noValue

/-- The outcome of a check that knows no place. -/
def ofExcept : Except Cause α → Reader α
  | .ok a => return a
  | .error cause => failShape cause

/-- A checked string. -/
def checkedString (expected : String) (check : String → Except String Unit) : Reader Value :=
  locate do
    match ← peekToken with
    | none => failNext .endInValue
    | some b =>
      if b = 0x22 then
        let s ← name
        match check s with
        | .ok () => return .string s
        | .error reason => failShape (.refused reason)
      else mismatch expected

/-- A boolean. -/
def boolean : Reader Value := locate do
  match ← peekToken with
  | none => failNext .endInValue
  | some b =>
    if b = 0x74 then word [0x72, 0x75, 0x65] (.bool true)
    else if b = 0x66 then word [0x61, 0x6C, 0x73, 0x65] (.bool false)
    else mismatch Shape.bool.expectation

/-- An integer between two bounds. -/
def boundedInt (expected : String) (low high : Int) : Reader Value := locate do
  match ← peekToken with
  | none => failNext .endInValue
  | some b =>
    if b = 0x2D ∨ isDigit b then
      ofExcept (Content.readInt expected low high (.number (← number)))
    else mismatch expected

/-- Null alone. -/
def unit : Reader Value := locate do
  match ← peekToken with
  | none => failNext .endInValue
  | some b => if b = 0x6E then word [0x75, 0x6C, 0x6C] .null else mismatch Shape.unit.expectation

/-- Null, or what `r` reads. -/
def optional (r : Reader Value) : Reader Value := do
  if (← peekToken) = some 0x6E then word [0x75, 0x6C, 0x6C] .null else r

/-- A list or an object where a scalar could stand, but not either of these. -/
def containerMismatch (depth : Nat) (expected : String) (b : UInt8) : Reader α :=
  if b = 0x5B then nested depth (fun _ => failShape (.wrongType .list expected)) endList
  else if b = 0x7B then nested depth (fun _ => failShape (.wrongType .map expected)) endObject
  else failNext .noValue

/-- A 32-bit integer, or a string. -/
def intOrString (depth : Nat) : Reader Value := locate do
  match ← scalar with
  | .inl c => ofExcept (Content.readIntOrString c)
  | .inr b => containerMismatch depth Shape.intOrString.expectation b

/-- A list between its brackets. -/
def list (depth : Nat) (expected : String) (r : Nat → Reader α) : Reader α := locate do
  match ← peekToken with
  | none => failNext .endInValue
  | some b => if b = 0x5B then nested depth r endList else mismatch expected

/-- An object between its braces. -/
def object (depth : Nat) (expected : String) (r : Nat → Reader α) : Reader α := locate do
  match ← peekToken with
  | none => failNext .endInValue
  | some b => if b = 0x7B then nested depth r endObject else mismatch expected

/-- A named field and how to read it at some depth. -/
structure Field where
  name : String
  required : Bool
  read : Nat → Reader Value

/-- Reads the value of a member into the field of its name; other members are skipped. -/
def fieldMember (fields : List Field) (depth : Nat) (slots : Slots) (n : String) :
    Reader Slots := do
  match fields.find? fun f => f.name == n with
  | none =>
    colon
    skipValue
    return slots
  | some f =>
    if (slots.lookup n).isSome then failShape (.duplicateField n)
    else
      colon
      return slots.put n (← f.read depth)

/-- The fields of a record from an object. -/
def namedFields (fields : List Field) (depth : Nat) : Reader Value := do
  let slots ← members (fieldMember fields depth) []
  .object <$> ofExcept (Slots.finish slots (fields.map fun f => (f.name, f.required)))

/-- The fields of a record from a list, in order. -/
def positionalFields (expected : String) (depth : Nat) (index : Nat) (slots : Slots) :
    List Field → Reader Slots
  | [] => return slots
  | f :: fs => do
    if ← moreItems (index = 0) then
      positionalFields expected depth (index + 1) (slots.put f.name (← f.read depth)) fs
    else if f.required then failShape (.wrongLength index expected)
    else positionalFields expected depth (index + 1) slots fs

/-- A record from an object or a list. -/
def record (expected : String) (fields : List Field) (depth : Nat) : Reader Value := locate do
  match ← peekToken with
  | none => failNext .endInValue
  | some b =>
    if b = 0x7B then nested depth (namedFields fields) endObject
    else if b = 0x5B then
      nested depth (fun depth => do
        let words := Shape.lengthExpectation expected fields.length
        let slots ← positionalFields words depth 0 [] fields
        .object <$> ofExcept (Slots.finish slots (fields.map fun f => (f.name, false)))) endList
    else mismatch expected

/-- The words for the length of a list that was read before its shape was known. -/
def surplus : Content.Surplus := fun n =>
  if n = 1 then "1 element in sequence" else s!"{n} elements in sequence"

/-- A record that takes over the fields of an inner one. -/
def merged (expected : String) (fields : List Field) (inner : List Content.Field) (depth : Nat) :
    Reader Value :=
  object depth expected fun depth => do
    let (slots, others) ← members (fun (slots, others) n => do
      match fields.find? fun f => f.name == n with
      | none =>
        colon
        return (slots, (.string n, ← content depth) :: others)
      | some _ => return (← fieldMember fields depth slots n, others)) (([] : Slots), [])
    let own ← ofExcept (Slots.finish slots (fields.map fun f => (f.name, f.required)))
    let taken := others.reverse.filter fun m => inner.any fun f => some f.name == m.1.name?
    match ← ofExcept (Content.readRecord surplus expected inner (.map taken)) with
    | .object ms => return .object (ms ++ own)
    | v => return v

/-- The name of a case. -/
def caseName (cases : List Content.Field) : Reader Content := locate do
  match ← peekToken with
  | none => failNext .endInValue
  | some b =>
    if b = 0x22 then
      let s ← name
      let _ ← ofExcept (Content.selectCase cases (.string s))
      return .string s
    else mismatch "variant identifier"

/-- One of several tagged records. -/
def tagged (expected tag : String) (cases : List Content.Field) (depth : Nat) : Reader Value := do
  let found ← locate do
    match ← scalar with
    | .inl c => failShape (.wrongType c.found expected)
    | .inr b =>
      if b = 0x7B then
        nested depth (fun depth => do
          let (found, others) ← members (fun (found, others) n => do
            if n = tag then
              if found.isSome then failShape (.duplicateField tag)
              else
                colon
                return (some (← caseName cases), others)
            else
              colon
              return (found, (.string n, ← content depth) :: others)) ((none : Option Content), [])
          match found with
          | none => failShape (.missingField tag)
          | some c => return (.map ((.string tag, c) :: others.reverse) : Content)) endObject
      else if b = 0x5B then
        nested depth (fun depth => do
          if ← moreItems true then
            let c ← caseName cases
            let cs ← foldItems (fun cs => do return (← content depth) :: cs) false []
              ((← remaining) + 1)
            return .list (c :: cs.reverse)
          else failShape (.missingField tag)) endList
      else failNext .noValue
  ofExcept (Content.readTagged expected tag cases found)

end Reader

end Json

open Json

mutual

/-- Reads a shape at some depth. -/
def Shape.ofText : Shape → Nat → Reader Value
  | .any => fun depth => Content.toValue <$> Reader.content depth
  | .string => fun _ => Reader.checkedString Shape.string.expectation fun _ => .ok ()
  | .text e check => fun _ => Reader.checkedString e check
  | .bool => fun _ => Reader.boolean
  | .int word low high => fun _ => Reader.boundedInt word low high
  | .intOrString => Reader.intOrString
  | .unit => fun _ => Reader.unit
  | .option s => fun depth => Reader.optional (s.ofText depth)
  | .list s => fun depth =>
    Reader.list depth (Shape.list s).expectation fun depth => do
      let vs ← Reader.items (fun vs => do return (← s.ofText depth) :: vs) []
      return .list vs.reverse
  | .map s => fun depth =>
    Reader.object depth (Shape.map s).expectation fun depth => do
      let ms ← Reader.members (fun ms n => do
        Reader.colon
        return Members.insert n (← s.ofText depth) ms) []
      return .object ms
  | .record n fields => Reader.record ("struct " ++ n) fields.ofText
  | .merged n fields inner =>
    Reader.merged ("struct " ++ n) fields.ofText (inner.readers Reader.surplus)
  | .tagged n tag cases =>
    Reader.tagged ("internally tagged enum " ++ n) tag (cases.readers Reader.surplus)

/-- The fields with their readers. -/
def Fields.ofText : Fields → List Reader.Field
  | .nil => []
  | .cons n required shape rest => ⟨n, required, shape.ofText⟩ :: rest.ofText

end

namespace Json

/-- Lists and objects nest less deep than this. -/
def maxDepth : Nat := 128

/-- A document of a shape, and nothing behind it. -/
def document (s : Shape) : Reader Value := do
  let v ← s.ofText maxDepth
  match ← Reader.peekToken with
  | none => return v
  | some _ => Reader.failNext .trailingCharacters

/-- Reads the whole of `bs`. -/
def read (s : Shape) (bs : Bytes) : Except Fault Value :=
  match document s ⟨0, bs⟩ with
  | .ok v _ => .ok v
  | .error f _ => .error f

/-- How JSON words what was found. -/
def wording : Wording where
  null := "null"
  float x := String.ofList (FloatText.general true x)

/-- The words for a problem. -/
def Problem.message : Problem → String
  | .text f => f.message
  | .shape cause => cause.message wording

/-- The position of a fault in `bs`. -/
def Fault.position? (f : Fault) (bs : Bytes) : Option Position :=
  f.offset.map fun n => Position.after (bs.take n)

/-- The words for a fault, with its position. -/
def Fault.message (f : Fault) (bs : Bytes) : String :=
  match f.position? bs with
  | some p => s!"{f.problem.message} at line {p.line} column {p.column}"
  | none => f.problem.message

end Json
end KubeClient
