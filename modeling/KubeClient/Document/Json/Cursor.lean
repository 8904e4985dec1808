import KubeClient.Document.Cause
import KubeClient.Text.Utf8

/-!
# A cursor over JSON text

* `Json.SyntaxFault` : what can be wrong with the text itself;
* `Json.Fault` : a reason, and the number of bytes read when it was noticed, once that is known;
* `Json.Cursor`, `Json.Reader` : readers move a cursor, which stays where a failure left it;
* `Json.Position` : lines and columns, the column counting the bytes of the line that were read.
-/

namespace KubeClient.Json

/-- What can be wrong with the text itself. -/
inductive SyntaxFault
  | endInList
  | endInObject
  | endInString
  | endInValue
  | noColon
  | noListEnd
  | noObjectEnd
  | noIdent
  | noValue
  | badEscape
  | badNumber
  | numberRange
  | badUnicode
  | controlCharacter
  | keyNotString
  | loneSurrogate
  | trailingComma
  | trailingCharacters
  | unfinishedEscape
  | tooDeep
  deriving DecidableEq, Repr, Inhabited

/-- The words for a fault. -/
def SyntaxFault.message : SyntaxFault → String
  | .endInList => "EOF while parsing a list"
  | .endInObject => "EOF while parsing an object"
  | .endInString => "EOF while parsing a string"
  | .endInValue => "EOF while parsing a value"
  | .noColon => "expected `:`"
  | .noListEnd => "expected `,` or `]`"
  | .noObjectEnd => "expected `,` or `\x7d`"
  | .noIdent => "expected ident"
  | .noValue => "expected value"
  | .badEscape => "invalid escape"
  | .badNumber => "invalid number"
  | .numberRange => "number out of range"
  | .badUnicode => "invalid unicode code point"
  | .controlCharacter => "control character (\\u0000-\\u001F) found while parsing a string"
  | .keyNotString => "key must be a string"
  | .loneSurrogate => "lone leading surrogate in hex escape"
  | .trailingComma => "trailing comma"
  | .trailingCharacters => "trailing characters"
  | .unfinishedEscape => "unexpected end of hex escape"
  | .tooDeep => "recursion limit exceeded"

/-- Why a text cannot be read. -/
inductive Problem
  | text (fault : SyntaxFault)
  | shape (cause : Cause)
  deriving Inhabited

/-- A problem, and the number of bytes read when it was noticed, once that is known. -/
structure Fault where
  problem : Problem
  offset : Option Nat
  deriving Inhabited

/-- What was read, by its length, and what was not. -/
structure Cursor where
  offset : Nat
  rest : Bytes
  deriving Repr, Inhabited

/-- Readers of JSON text. -/
abbrev Reader := EStateM Fault Cursor

/-! ### Positions -/

/-- A line, counted from one, and the number of its bytes that were read. -/
structure Position where
  line : Nat
  column : Nat
  deriving DecidableEq, Repr

/-- A line feed. -/
def lineFeed : UInt8 := 0x0A

/-- The position after reading `front`. -/
def Position.after (front : Bytes) : Position :=
  { line := 1 + front.count lineFeed
    column := (front.reverse.takeWhile (· != lineFeed)).length }

/-! ### Primitive readers -/

namespace Reader

variable {α : Type}

/-- Fails for what was read so far. -/
def failHere (f : SyntaxFault) : Reader α := fun c =>
  .error ⟨.text f, some c.offset⟩ c

/-- Fails for the next byte. -/
def failNext (f : SyntaxFault) : Reader α := fun c =>
  .error ⟨.text f, some (if c.rest.isEmpty then c.offset else c.offset + 1)⟩ c

/-- Fails for a reason whose place is not known yet. -/
def failShape (cause : Cause) : Reader α := fun c =>
  .error ⟨.shape cause, none⟩ c

/-- Gives a failure without a place the place that was reached. -/
def locate (r : Reader α) : Reader α := fun c =>
  match r c with
  | .ok a c => .ok a c
  | .error f c => .error { f with offset := f.offset.or (some c.offset) } c

/-- The next byte. -/
def peek : Reader (Option UInt8) := fun c =>
  .ok c.rest.head? c

/-- Steps over the next byte. -/
def advance : Reader Unit := fun c =>
  match c.rest with
  | [] => .ok () c
  | _ :: bs => .ok () ⟨c.offset + 1, bs⟩

/-- Takes the next byte. -/
def next : Reader (Option UInt8) := fun c =>
  match c.rest with
  | [] => .ok none c
  | b :: bs => .ok (some b) ⟨c.offset + 1, bs⟩

/-- Steps over the bytes that satisfy `p`. -/
def skipWhile (p : UInt8 → Bool) : Reader Unit := fun c =>
  .ok () ⟨c.offset + (c.rest.takeWhile p).length, c.rest.dropWhile p⟩

/-- The number of bytes that are left. -/
def remaining : Reader Nat := fun c =>
  .ok c.rest.length c

/-- Space, tab, line feed and carriage return. -/
def isBlank (b : UInt8) : Bool :=
  b == 0x20 || b == 0x09 || b == lineFeed || b == 0x0D

/-- The first byte behind blanks. -/
def peekToken : Reader (Option UInt8) := do
  skipWhile isBlank
  peek

/-- The rest of a word whose first byte was read. -/
def ident : Bytes → Reader Unit
  | [] => pure ()
  | b :: bs => do
    match ← next with
    | none => failHere .endInValue
    | some b' => if b' = b then ident bs else failHere .noIdent

/-- Runs `close` after `r`, also when `r` fails; the failure of `r` counts first. -/
def closing (r : Reader α) (close : Reader Unit) : Reader α := fun c =>
  match r c with
  | .ok a c =>
    match close c with
    | .ok () c => .ok a c
    | .error f c => .error f c
  | .error f c =>
    match close c with
    | .ok () c => .error f c
    | .error _ c => .error f c

end Reader
end KubeClient.Json
