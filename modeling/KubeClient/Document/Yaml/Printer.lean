import KubeClient.Document.Value
import KubeClient.Document.Yaml.Scalar
import KubeClient.Document.Yaml.Text
import KubeClient.Document.Yaml.Token
import KubeClient.Number.FloatText

/-!
# Writing YAML

Collections are written as blocks, two columns per level; a list in a mapping stays at the column
of its key. Strings are plain where they stand for themselves, quoted where they do not, and
literal when they have several lines.

* `Yaml.Traits` : what can be said about a text;
* `Yaml.Page` : what was written, and what may follow on this line;
* `Yaml.print` : the text of a value.
-/

namespace KubeClient.Yaml

/-! ### Traits of texts -/

/-- Characters that are shown as they are. -/
def isPrintable (c : Char) : Bool :=
  let n := c.toNat
  n == 0x0A || (0x20 ≤ n && n ≤ 0x7E) || (0xA0 ≤ n && n ≤ 0xD7FF) ||
  (0xE000 ≤ n && n ≤ 0xFFFD && n != 0xFEFF) || 0x10000 ≤ n

/-- What can be said about a text. -/
structure Traits where
  hasBreak : Bool
  /-- A space or a break stands at an end. -/
  paddedEnd : Bool
  trailingSpace : Bool
  /-- A space follows a break. -/
  spaceAfterBreak : Bool
  /-- A break follows a space, or some character cannot be shown. -/
  special : Bool
  /-- Some character means something in a block. -/
  indicator : Bool
  deriving DecidableEq, Repr

namespace Traits

/-- Characters that mean something at the beginning of a scalar. -/
def leadIndicators : List Char :=
  ['#', ',', '[', ']', '{', '}', '&', '*', '!', '|', '>', '\'', '"', '%', '@', '\x60']

/-- The first character means something in a block. -/
def leadIndicator : List Char → Bool
  | [] => false
  | c :: cs =>
    c ∈ leadIndicators || ((c == '?' || c == ':' || c == '-') && isBlankBreakEnd cs.head?)

/-- Some character behind `before` means something in a block. -/
def laterIndicator (before : Char) : List Char → Bool
  | [] => false
  | c :: cs =>
    (c == ':' && isBlankBreakEnd cs.head?) ||
    (c == '#' && isBlankBreakEnd (some before)) || laterIndicator c cs

/-- Two neighbours satisfy `p`. -/
def neighbours (p : Char → Char → Bool) : List Char → Bool
  | a :: b :: cs => p a b || neighbours p (b :: cs)
  | _ => false

/-- The traits of a text. -/
def ofText (cs : List Char) : Traits :=
  let isEdge (c : Option Char) : Bool := c.any fun c => c == ' ' || isBreak c
  { hasBreak := cs.any isBreak
    paddedEnd := isEdge cs.head? || isEdge cs.getLast?
    trailingSpace := cs.getLast? == some ' '
    spaceAfterBreak := neighbours (fun a b => isBreak a && b == ' ') cs
    special := cs.any (!isPrintable ·) || neighbours (fun a b => a == ' ' && isBreak b) cs
    indicator := cs.take 3 == ['-', '-', '-'] || cs.take 3 == ['.', '.', '.'] ||
      leadIndicator cs || cs.head?.any fun c => laterIndicator c cs.tail }

/-- The text may stand without quotes. -/
def allowsPlain (t : Traits) : Bool :=
  !(t.hasBreak || t.paddedEnd || t.spaceAfterBreak || t.special || t.indicator)

/-- The text may stand between single quotes. -/
def allowsSingle (t : Traits) : Bool :=
  !(t.spaceAfterBreak || t.special)

/-- The text may be written line by line. -/
def allowsBlock (t : Traits) : Bool :=
  !(t.trailingSpace || t.special)

end Traits

/-- How a string is written; a key stands on one line. -/
def styleOf (isKey : Bool) (cs : List Char) : ScalarStyle :=
  let t := Traits.ofText cs
  if cs.contains '\n' then
    if t.allowsBlock && !isKey && cs ≠ [] then .literal else .doubleQuoted
  else if Plain.isString cs && !Plain.hasLeadingZero cs && t.allowsPlain then .plain
  else if t.allowsSingle && !(isKey && t.hasBreak) then .singleQuoted
  else .doubleQuoted

/-! ### Pages -/

/-- What was written, last character first, and what may follow on this line. -/
structure Page where
  written : List Char
  column : Nat
  /-- A blank, or nothing, was written last. -/
  spaced : Bool
  /-- Only indentation and marks of blocks stand on this line. -/
  indented : Bool
  deriving Repr, Inhabited

namespace Page

/-- The empty page. -/
def blank : Page :=
  ⟨[], 0, true, true⟩

/-- Writes one character. -/
def put (c : Char) (p : Page) : Page :=
  { p with written := c :: p.written, column := p.column + 1 }

/-- Writes characters. -/
def puts (cs : List Char) (p : Page) : Page :=
  cs.foldl (fun p c => p.put c) p

/-- Writes a character that ends a line. -/
def putBreak (c : Char) (p : Page) : Page :=
  { p with written := c :: p.written, column := 0 }

/-- Goes to a column of this line, if nothing but marks stand there, or of the next one. -/
def indent (n : Nat) (p : Page) : Page :=
  let p := if !p.indented || n < p.column || (p.column = n && !p.spaced) then p.putBreak '\n'
    else p
  { p.puts (List.replicate (n - p.column) ' ') with spaced := true, indented := true }

/-- Writes a mark behind a blank. -/
def mark (cs : List Char) (needsBlank spaced indented : Bool) (p : Page) : Page :=
  let p := (if needsBlank && !p.spaced then p.put ' ' else p).puts cs
  { p with spaced, indented := p.indented && indented }

/-- Ends a scalar. -/
def close (p : Page) : Page :=
  { p with spaced := false, indented := false }

/-! ### Scalars -/

/-- Text as it is, behind a blank. -/
def plain (cs : List Char) (p : Page) : Page :=
  ((if p.spaced || cs.isEmpty then p else p.put ' ').puts cs).close

/-- Text between single quotes; breaks are doubled or kept. -/
def singleRun (column : Nat) (afterBreak : Bool) : List Char → Page → Page
  | [], p => if afterBreak then p.indent column else p
  | c :: cs, p =>
    if c = ' ' then singleRun column afterBreak cs (p.put c)
    else if isBreak c then
      let p := if !afterBreak && c == '\n' then p.putBreak '\n' else p
      singleRun column true cs { p.putBreak c with indented := true }
    else
      let p := if afterBreak then p.indent column else p
      let p := if c = '\'' then p.put '\'' else p
      singleRun column false cs { p.put c with indented := false }

/-- Between single quotes. -/
def singleQuoted (column : Nat) (cs : List Char) (p : Page) : Page :=
  let p := p.mark ['\''] true false false
  ((singleRun column false cs p).mark ['\''] false false false).close

/-- Hexadecimal digits, in upper case. -/
def hex (width n : Nat) : List Char :=
  let ds := (Nat.toDigits 16 n).map Char.toUpper
  List.replicate (width - ds.length) '0' ++ ds

/-- What stands for a character between double quotes. -/
def escape (c : Char) : List Char :=
  match c.toNat with
  | 0x00 => ['\\', '0']
  | 0x07 => ['\\', 'a']
  | 0x08 => ['\\', 'b']
  | 0x09 => ['\\', 't']
  | 0x0A => ['\\', 'n']
  | 0x0B => ['\\', 'v']
  | 0x0C => ['\\', 'f']
  | 0x0D => ['\\', 'r']
  | 0x1B => ['\\', 'e']
  | 0x22 => ['\\', '"']
  | 0x5C => ['\\', '\\']
  | 0x85 => ['\\', 'N']
  | 0xA0 => ['\\', '_']
  | 0x2028 => ['\\', 'L']
  | 0x2029 => ['\\', 'P']
  | n =>
    if n ≤ 0xFF then '\\' :: 'x' :: hex 2 n
    else if n ≤ 0xFFFF then '\\' :: 'u' :: hex 4 n
    else '\\' :: 'U' :: hex 8 n

/-- Between double quotes. -/
def doubleQuoted (cs : List Char) (p : Page) : Page :=
  let text := cs.flatMap fun c =>
    if !isPrintable c || isBreak c || c == '"' || c == '\\' then escape c else [c]
  (((p.mark ['"'] true false false).puts text).mark ['"'] false false false).close

/-- The indentation of a literal text is told when its first line does not show it. -/
def indentHint (cs : List Char) : List Char :=
  if cs.head?.any fun c => c == ' ' || isBreak c then ['2'] else []

/-- What is told about the breaks at the end of a literal text. -/
def chompHint (cs : List Char) : List Char :=
  match cs.reverse with
  | [] => ['-']
  | c :: rest =>
    if !isBreak c then ['-']
    else match rest with
      | [] => ['+']
      | d :: _ => if isBreak d then ['+'] else []

/-- The lines of a literal text. -/
def literalRun (column : Nat) (afterBreak : Bool) : List Char → Page → Page
  | [], p => p
  | c :: cs, p =>
    if isBreak c then literalRun column true cs { p.putBreak c with indented := true }
    else
      let p := if afterBreak then p.indent column else p
      literalRun column false cs { p.put c with indented := false }

/-- Line by line. -/
def literal (column : Nat) (cs : List Char) (p : Page) : Page :=
  let p := p.mark ('|' :: indentHint cs ++ chompHint cs) true false false
  literalRun column true cs { p.putBreak '\n' with spaced := true, indented := true }

/-- A string in its style; lines are indented to `column`. -/
def string (isKey : Bool) (column : Nat) (cs : List Char) (p : Page) : Page :=
  match styleOf isKey cs with
  | .plain => p.plain cs
  | .singleQuoted => p.singleQuoted column cs
  | .literal | .folded => p.literal column cs
  | .doubleQuoted => p.doubleQuoted cs

/-- A double. -/
def floatText (x : Float) : List Char :=
  if x.isNaN then ['.', 'n', 'a', 'n']
  else if x.isInf then (if x < 0 then ['-'] else []) ++ ['.', 'i', 'n', 'f']
  else FloatText.general false x

/-- A key of this text stands on the line of its value. -/
def isSimpleKey (cs : List Char) : Bool :=
  !cs.any isBreak && (Utf8.encode (String.ofList cs)).length ≤ 128

/-! ### Values -/

/-- The column of what belongs to a node at `n`; none is the root. -/
def inner (n : Option Nat) : Nat :=
  n.elim 0 (· + 2)

/-- The column of the lines of a scalar. -/
def scalarColumn (n : Option Nat) : Nat :=
  n.elim 2 (· + 2)

/-- A key and the mark behind it. -/
def key (column : Nat) (name : String) (p : Page) : Page :=
  let cs := name.toList
  let p := p.indent column
  if isSimpleKey cs then
    (p.string true (column + 2) cs).mark [':'] false false false
  else
    let p := (p.mark ['?'] true false true).string false (column + 2) cs
    (p.indent column).mark [':'] true false true

mutual

/-- A value. It belongs to a block at column `n`, which is a mapping or not. -/
def value (n : Option Nat) (inMapping : Bool) : Value → Page → Page
  | .null, p => p.plain ['n', 'u', 'l', 'l']
  | .bool true, p => p.plain ['t', 'r', 'u', 'e']
  | .bool false, p => p.plain ['f', 'a', 'l', 's', 'e']
  | .number (.int i), p => p.plain (Numeral.ofInt i)
  | .number (.float x), p => p.plain (floatText x)
  | .string s, p => p.string false (scalarColumn n) s.toList
  | .list [], p => (p.mark ['['] true true false).mark [']'] false false false
  | .list (v :: vs), p =>
    items (if inMapping && !p.indented then n.getD 0 else inner n) (v :: vs) p
  | .object [], p => (p.mark ['{'] true true false).mark ['}'] false false false
  | .object (m :: ms), p => members (inner n) (m :: ms) p

/-- The items of a list. -/
def items (column : Nat) : List Value → Page → Page
  | [], p => p
  | v :: vs, p =>
    items column vs (value (some column) false v ((p.indent column).mark ['-'] true false true))

/-- The members of an object. -/
def members (column : Nat) : List (String × Value) → Page → Page
  | [], p => p
  | m :: ms, p => members column ms (value (some column) true m.2 (p.key column m.1))

end

end Page

/-- The text of a value. -/
def print (v : Value) : List Char :=
  ((Page.blank.value none false v).indent 0).written.reverse

end KubeClient.Yaml
