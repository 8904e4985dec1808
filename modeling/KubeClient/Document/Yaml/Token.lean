import KubeClient.Document.Yaml.Text

/-!
# Tokens of YAML

* `Yaml.Token` : a lexical unit with the places where it begins and ends;
* `Yaml.Scanner` : the text that is left, the tokens that wait, and the columns of the blocks;
* `Yaml.Scan` : actions on a scanner; the ones here read characters.
-/

namespace KubeClient.Yaml

/-- How a scalar is written. -/
inductive ScalarStyle
  | plain
  | singleQuoted
  | doubleQuoted
  | literal
  | folded
  deriving DecidableEq, Repr, Inhabited

/-- What a token is. -/
inductive TokenKind
  | streamStart
  | streamEnd
  | version (major minor : Nat)
  | tagDirective (handle start : List Char)
  | documentStart
  | documentEnd
  | blockSequenceStart
  | blockMappingStart
  | blockEnd
  | flowSequenceStart
  | flowSequenceEnd
  | flowMappingStart
  | flowMappingEnd
  | blockEntry
  | flowEntry
  | key
  | value
  | alias (name : List Char)
  | anchor (name : List Char)
  | tag (handle suffix : List Char)
  | scalar (text : List Char) (style : ScalarStyle)
  deriving DecidableEq, Repr, Inhabited

/-- A lexical unit with the places where it begins and ends. -/
structure Token where
  kind : TokenKind
  start : Mark
  stop : Mark
  deriving DecidableEq, Repr, Inhabited

/-- A place where a key may turn out to have begun, once a colon follows. -/
structure SimpleKey where
  /-- The block requires that a key begins here. -/
  required : Bool
  /-- The number of the token that begins here. -/
  number : Nat
  mark : Mark
  deriving DecidableEq, Repr, Inhabited

/-- The text that is left, the tokens that wait, and the blocks around this place. -/
structure Scanner where
  rest : List Char
  tail : Option TextFault
  mark : Mark
  /-- Tokens that wait to be taken. -/
  waiting : List Token
  /-- The number of tokens that were taken. -/
  taken : Nat
  started : Bool
  ended : Bool
  /-- The column of the innermost block, `-1` outside of all. -/
  indent : Int
  outer : List Int
  keyAllowed : Bool
  /-- The possible key of the innermost level, and those of the levels around it. -/
  key : Option SimpleKey
  outerKeys : List (Option SimpleKey)
  deriving Repr, Inhabited

namespace Scanner

/-- Before the first token. -/
def ofSource (s : Source) : Scanner :=
  { rest := s.chars
    tail := s.tail
    mark := .start
    waiting := []
    taken := 0
    started := false
    ended := false
    indent := -1
    outer := []
    keyAllowed := true
    key := none
    outerKeys := [] }

/-- Inside brackets or braces. -/
def inFlow (s : Scanner) : Bool :=
  !s.outerKeys.isEmpty

end Scanner

/-- Actions on a scanner. -/
abbrev Scan := EStateM TextFault Scanner

namespace Scan

variable {α : Type}

/-- Fails at the current place. -/
def fail (problem : Problem) (context : Option (Activity × Mark)) : Scan α := do
  throw { problem, mark := (← get).mark, context }

/-- Fails at the current place, while doing something since `start`. -/
def failIn (activity : Activity) (start : Mark) (problem : Problem) : Scan α :=
  fail problem (some (activity, start))

/-- At least `n` characters are there, unless the text ends properly before. -/
def need (n : Nat) : Scan Unit := do
  let s ← get
  match s.tail with
  | some f => if (s.rest.take n).length < n then throw f
  | none => pure ()

/-- The character `n` places ahead. -/
def peekAt (n : Nat) : Scan (Option Char) := do
  let s ← get
  match s.rest[n]? with
  | some c => return some c
  | none =>
    match s.tail with
    | some f => throw f
    | none => return none

/-- The next character. -/
def peek : Scan (Option Char) :=
  peekAt 0

/-- The next character is `c`. -/
def at_ (c : Char) : Scan Bool := do
  return (← peek) == some c

/-- The current place. -/
def mark : Scan Mark := do
  return (← get).mark

/-- Steps over `n` characters of one line. -/
def skip (n : Nat) : Scan Unit :=
  modify fun s =>
    { s with rest := s.rest.drop n, mark := s.mark.behind (s.rest.take n) }

/-- Takes the characters in front that satisfy `p`; no break may satisfy it. -/
def takeWhile (p : Char → Bool) : Scan (List Char) := do
  let cs := (← get).rest.takeWhile p
  skip cs.length
  let _ ← peek
  return cs

/-- Steps over the characters in front that satisfy `p`. -/
def skipWhile (p : Char → Bool) : Scan Unit := do
  let _ ← takeWhile p

/-- Steps over a comment, up to the break that ends it. -/
def skipComment : Scan Unit := do
  if ← at_ '#' then skipWhile (!isBreak ·)

/-- Takes a break, if one comes next: a line feed stands for most of them. -/
def takeBreak : Scan (List Char) := do
  let s ← get
  match s.rest with
  | '\r' :: '\n' :: rest =>
    set { s with rest, mark := s.mark.behindBreak ['\r', '\n'] }
    return ['\n']
  | c :: rest =>
    if isBreak c then
      set { s with rest, mark := s.mark.behindBreak [c] }
      return [if c.toNat = 0x2028 ∨ c.toNat = 0x2029 then c else '\n']
    else return []
  | [] => return []

/-- Steps over a break. -/
def skipBreak : Scan Unit := do
  let _ ← takeBreak

/-- The number of characters that are left. -/
def remaining : Scan Nat := do
  return (← get).rest.length

/-- A document mark, made of three times `c`, stands at the beginning of this line. -/
def atDocumentMark (c : Char) : Scan Bool := do
  let s ← get
  if s.mark.column = 0 ∧ s.rest.take 3 = [c, c, c] then
    return isBlankBreakEnd (← peekAt 3)
  else return false

/-- One of the two document marks stands at the beginning of this line. -/
def atAnyDocumentMark : Scan Bool := do
  if ← atDocumentMark '-' then return true else atDocumentMark '.'

end Scan
end KubeClient.Yaml
