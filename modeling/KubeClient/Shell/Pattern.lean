import KubeClient.Shell.Script

/-!
# Patterns

A pattern stands for the texts that fit it: an asterisk for any text, a question mark for any
character, and brackets for one of a set.

* `Shell.Glyph` : a character of a pattern;
* `Shell.fits` : a text fits a pattern;
* `Shell.trimStart`, `Shell.trimEnd` : cut off what fits.
-/

namespace KubeClient.Shell

/-- A character that words were put together from. One that is quoted stands for itself; one that
is `loose` came from a parameter and may end a word. -/
structure Glyph where
  char : Char
  quoted : Bool
  loose : Bool
  deriving DecidableEq, Repr, Inhabited

/-- The character is not quoted, and means more than itself. -/
def Glyph.marks (g : Glyph) (c : Char) : Bool :=
  !g.quoted && g.char == c

/-- The characters of a named class. -/
def inClass (name : String) (c : Char) : Bool :=
  match name with
  | "alpha" => c.isAlpha
  | "digit" => c.isDigit
  | "alnum" => c.isAlphanum
  | "upper" => c.isUpper
  | "lower" => c.isLower
  | "space" => c == ' ' || ('\t' ≤ c && c ≤ '\r')
  | "blank" => c == ' ' || c == '\t'
  | "punct" => '!' ≤ c && c ≤ '~' && !c.isAlphanum
  | "print" => ' ' ≤ c && c ≤ '~'
  | "graph" => '!' ≤ c && c ≤ '~'
  | "cntrl" => c < ' ' || c == '\x7f'
  | "xdigit" => c.isDigit || ('a' ≤ c && c ≤ 'f') || ('A' ≤ c && c ≤ 'F')
  | _ => false

/-- The name of a class behind an opening bracket and a colon, and what follows it. -/
def className? (gs : List Glyph) : Option (String × List Glyph) :=
  match gs with
  | colon :: more =>
    if colon.char = ':' then
      let name := more.takeWhile (·.char.isAlpha)
      match more.drop name.length with
      | a :: b :: rest =>
        if a.char = ':' ∧ b.char = ']' then some (String.ofList (name.map (·.char)), rest)
        else none
      | _ => none
    else none
  | [] => none

/-- Whether a character is in a set, and what follows the bracket that closes the set; `first` tells
that a bracket here would not close it. -/
def inSet (c : Char) (first found : Bool) : Nat → List Glyph → Option (Bool × List Glyph)
  | 0, _ => none
  | _, [] => none
  | fuel + 1, g :: gs =>
    if g.marks ']' ∧ !first then some (found, gs)
    else match if g.marks '[' then className? gs else none with
      | some (name, rest) => inSet c false (found || inClass name c) fuel rest
      | none =>
        match gs with
        | dash :: last :: rest =>
          if dash.marks '-' ∧ !last.marks ']' then
            inSet c false (found || (g.char ≤ c && c ≤ last.char)) fuel rest
          else inSet c false (found || g.char == c) fuel gs
        | gs => inSet c false (found || g.char == c) fuel gs

/-- Whether a character is in the set behind an opening bracket, and what follows the set. -/
def inBrackets (c : Char) (gs : List Glyph) : Option (Bool × List Glyph) :=
  match gs with
  | g :: more =>
    if g.marks '!' then (inSet c true false gs.length more).map fun r => (!r.1, r.2)
    else inSet c true false (gs.length + 1) gs
  | [] => none

/-- A text fits a pattern. -/
def fitsWithin : Nat → List Glyph → Text → Bool
  | 0, _, _ => false
  | _, [], text => text.isEmpty
  | fuel + 1, g :: more, [] => g.marks '*' && fitsWithin fuel more []
  | fuel + 1, g :: more, c :: cs =>
    if g.marks '*' then fitsWithin fuel more (c :: cs) || fitsWithin fuel (g :: more) cs
    else if g.marks '?' then fitsWithin fuel more cs
    else match if g.marks '[' then inBrackets c more else none with
      | some (found, rest) => found && fitsWithin fuel rest cs
      | none => g.char == c && fitsWithin fuel more cs

/-- A text fits a pattern. -/
def fits (pattern : List Glyph) (text : Text) : Bool :=
  fitsWithin (pattern.length + text.length + 1) pattern text

/-- Some character of a pattern means more than itself. -/
def isPattern (gs : List Glyph) : Bool :=
  gs.any fun g => g.marks '*' || g.marks '?' || g.marks '['

/-- Cuts off the shortest or longest beginning that fits. -/
def trimStart (longest : Bool) (pattern : List Glyph) (text : Text) : Text :=
  let cuts := List.range (text.length + 1)
  let cuts := if longest then cuts.reverse else cuts
  match cuts.find? fun n => fits pattern (text.take n) with
  | some n => text.drop n
  | none => text

/-- Cuts off the shortest or longest end that fits. -/
def trimEnd (longest : Bool) (pattern : List Glyph) (text : Text) : Text :=
  let cuts := List.range (text.length + 1)
  let cuts := if longest then cuts else cuts.reverse
  match cuts.find? fun n => fits pattern (text.drop n) with
  | some n => text.take n
  | none => text

end KubeClient.Shell
