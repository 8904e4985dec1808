import KubeClient.Shell.Format
import KubeClient.Shell.Pattern

/-!
# Filters

What small programs make of texts.

* `Shell.linesOf`, `Shell.ofLines` : the lines of a text, and the text of lines;
* `Shell.front`, `Shell.back` : the first and the last lines or characters;
* `Shell.dump`, `Shell.toBase64`, `Shell.exchange`, `Shell.cutLine`, `Shell.sortLines` : filters;
* `Shell.nanosOf?` : a number of seconds.
-/

namespace KubeClient.Shell

/-- A decimal number without a sign. -/
def nat? (text : Text) : Option Nat :=
  if text.isEmpty || !text.all Char.isDigit then none else some (Formula.ofDigits 10 text)

/-- The digits of a number. -/
def digitsOf (n : Int) : Text :=
  (toString n).toList

/-! ### Lines -/

/-- The lines of a text, and what stands behind the last end of a line. -/
def splitLines : Text → List Text × Text
  | [] => ([], [])
  | c :: cs =>
    let (lines, rest) := splitLines cs
    if c = '\n' then ([] :: lines, rest)
    else match lines with
      | [] => ([], c :: rest)
      | line :: lines => ((c :: line) :: lines, rest)

/-- The lines of a text; the last one need not be ended. -/
def linesOf (text : Text) : List Text :=
  let (lines, rest) := splitLines text
  if rest.isEmpty then lines else lines ++ [rest]

/-- The text of lines, each with its end. -/
def ofLines (lines : List Text) : Text :=
  lines.flatMap (· ++ ['\n'])

/-- Texts with another one between them. -/
def joinWith (between : Text) (texts : List Text) : Text :=
  between.intercalate texts

/-- Parts of a text between separators. -/
def splitAt (separator : Char) : Text → List Text
  | [] => [[]]
  | c :: cs =>
    match splitAt separator cs with
    | [] => [[c]]
    | part :: parts => if c = separator then [] :: part :: parts else (c :: part) :: parts

/-- Words between blanks. -/
def wordsIn (text : Text) : List Text :=
  (splitAt ' ' (text.map fun c => if Formula.isSpace c then ' ' else c)).filter (!·.isEmpty)

/-! ### Ends of texts -/

/-- What is taken of a text: so many lines or characters, counted from one end or from the other. -/
structure Portion where
  lines : Bool
  count : Nat
  /-- Counted from the other end: all but so many, or from the line of that number on. -/
  other : Bool
  deriving Repr, Inhabited

/-- A text in the pieces that a portion counts. -/
def Portion.pieces (p : Portion) (text : Text) : List Text :=
  if p.lines then
    let (lines, rest) := splitLines text
    lines.map (· ++ ['\n']) ++ if rest.isEmpty then [] else [rest]
  else text.map fun c => [c]

/-- The front of a text, or all but its end. -/
def front (p : Portion) (text : Text) : Text :=
  let pieces := p.pieces text
  (pieces.take (if p.other then pieces.length - p.count else p.count)).flatten

/-- The end of a text, or all from a number on. -/
def back (p : Portion) (text : Text) : Text :=
  let pieces := p.pieces text
  (pieces.drop (if p.other then p.count - 1 else pieces.length - p.count)).flatten

/-! ### Bytes as numbers -/

/-- How bytes are shown. -/
inductive Dump
  /-- As characters, or as escapes and octal numbers. -/
  | letters
  /-- As numbers of so many digits, with a character in front of shorter ones. -/
  | number (base digits : Nat) (filler : Char)
  deriving DecidableEq, Repr, Inhabited

/-- A number to a base, filled up in front. -/
def paddedNumber (base width : Nat) (filler : Char) (n : Nat) : Text :=
  let digits := Nat.toDigits base n
  List.replicate (width - digits.length) filler ++ digits

/-- A byte with what separates it from the one in front. -/
def Dump.byte (style : Dump) (c : Char) : Text :=
  match style with
  | .number base digits filler => ' ' :: paddedNumber base digits filler c.toNat
  | .letters =>
    let shown := match c with
      | '\x00' => ['\\', '0']
      | '\x07' => ['\\', 'a']
      | '\x08' => ['\\', 'b']
      | '\t' => ['\\', 't']
      | '\n' => ['\\', 'n']
      | '\x0b' => ['\\', 'v']
      | '\x0c' => ['\\', 'f']
      | '\r' => ['\\', 'r']
      | c => if ' ' ≤ c ∧ c ≤ '~' then [c] else paddedNumber 8 3 '0' c.toNat
    List.replicate (4 - shown.length) ' ' ++ shown

/-- Rows of so many characters. -/
def rows (width : Nat) : Nat → Text → List Text
  | 0, _ => []
  | fuel + 1, text =>
    if text.isEmpty then [] else text.take width :: rows width fuel (text.drop width)

/-- The number of bytes in front of a row. -/
def address (base? : Option Nat) (n : Nat) : Text :=
  match base? with
  | none => []
  | some base => paddedNumber base (if base = 16 then 6 else 7) '0' n

/-- Rows as numbers; rows that repeat the one before are left out behind an asterisk. -/
def dumpRows (style : Dump) (base? : Option Nat) (all : Bool) (offset : Nat) (before : Option Text)
    (omitted : Bool) : List Text → Text
  | [] => if base?.isSome then address base? offset ++ ['\n'] else []
  | row :: more =>
    let next := offset + row.length
    if before = some row ∧ row.length = 16 ∧ !all then
      (if omitted then [] else ['*', '\n']) ++ dumpRows style base? all next before true more
    else
      address base? offset ++ row.flatMap style.byte ++
        '\n' :: dumpRows style base? all next (some row) false more

/-- Bytes as numbers, behind addresses to a base if there is one. -/
def dump (style : Dump) (base? : Option Nat) (all : Bool) (text : Text) : Text :=
  dumpRows style base? all 0 none false (rows 16 (text.length + 1) text)

/-! ### Text of 64 characters -/

/-- The characters that stand for numbers below 64. -/
def sixBitDigits : Text :=
  "ABCDEFGHIJKLMNOPQRSTUVWXYZabcdefghijklmnopqrstuvwxyz0123456789+/".toList

/-- Three bytes as four characters each. -/
def toBase64 : Text → Text
  | a :: b :: c :: cs => quartet (a.toNat * 65536 + b.toNat * 256 + c.toNat) ++ toBase64 cs
  | [a, b] => (quartet (a.toNat * 65536 + b.toNat * 256)).take 3 ++ ['=']
  | [a] => (quartet (a.toNat * 65536)).take 2 ++ ['=', '=']
  | [] => []
where
  /-- A number of 24 bits as four characters. -/
  quartet (n : Nat) : Text :=
    [n / 262144, n / 4096, n / 64, n].map fun d => sixBitDigits.getD (d % 64) 'A'

/-- Four characters as three bytes each, up to a fault; the flag tells that there is none. -/
def fromBase64 : Text → Text × Bool
  | [] => ([], true)
  | a :: b :: c :: d :: cs =>
    let digit (c : Char) : Option Nat := sixBitDigits.findIdx? (· = c)
    let byte (n : Nat) : Char := Char.ofNat (n % 256)
    match digit a, digit b, digit c, digit d with
    | some x, some y, some z, some w =>
      let (text, whole) := fromBase64 cs
      let n := ((x * 64 + y) * 64 + z) * 64 + w
      (byte (n / 65536) :: byte (n / 256) :: byte n :: text, whole)
    | some x, some y, some z, none =>
      let n := (x * 64 + y) * 64 + z
      ([byte (n / 1024), byte (n / 4)], d = '=' && cs.isEmpty)
    | some x, some y, none, none =>
      ([byte ((x * 64 + y) / 16)], c = '=' && d = '=' && cs.isEmpty)
    | _, _, _, _ => ([], false)
  | _ => ([], false)

/-- Lines of so many characters; no line is ended if there is no width. -/
def folded (width : Nat) (text : Text) : Text :=
  if width = 0 then text else ofLines (rows width (text.length + 1) text)

/-! ### Sets of characters -/

/-- All characters of one byte. -/
def allBytes : Text :=
  (List.range 256).map Char.ofNat

/-- The characters of a set with ranges and named classes; escapes were replaced before. -/
def setOf : Nat → Text → Text
  | 0, _ => []
  | _, [] => []
  | fuel + 1, '[' :: ':' :: cs =>
    let name := cs.takeWhile Char.isAlpha
    if (cs.drop name.length).take 2 = [':', ']'] then
      allBytes.filter (inClass (String.ofList name)) ++ setOf fuel (cs.drop (name.length + 2))
    else '[' :: ':' :: setOf fuel cs
  | fuel + 1, a :: '-' :: b :: cs =>
    if a ≤ b then
      (List.range (b.toNat + 1 - a.toNat)).map (fun i => Char.ofNat (a.toNat + i)) ++ setOf fuel cs
    else setOf fuel cs
  | fuel + 1, c :: cs => c :: setOf fuel cs

/-- The characters of a set that is written with escapes. -/
def setIn (text : Text) : Text :=
  let bare := (fillIn (text.length + 1) (text.flatMap fun c => if c = '%' then ['%', '%'] else [c])
    []).1.text
  setOf (bare.length + 1) bare

/-- Characters of a set that repeat are written once. -/
def squeeze (set : Text) : Text → Text
  | a :: b :: cs => if a = b ∧ a ∈ set then squeeze set (b :: cs) else a :: squeeze set (b :: cs)
  | cs => cs

/-- Exchanges characters, drops them, or writes repeated ones once, as the options say. -/
def exchange (options : Text) (sets : List Text) (text : Text) : Option Text :=
  let set (s : Text) : Text :=
    let s := setIn s
    if options.contains 'c' || options.contains 'C' then allBytes.filter (· ∉ s) else s
  match sets with
  | [a] =>
    let dropped := if options.contains 'd' then text.filter (· ∉ set a) else text
    if options.contains 's' then some (squeeze (set a) dropped)
    else if options.contains 'd' then some dropped
    else none
  | [a, b] =>
    let source := set a
    let target := setIn b
    if options.contains 'd' then
      some (squeeze (if options.contains 's' then target else []) (text.filter (· ∉ source)))
    else
      let exchanged := text.map fun c =>
        match source.findIdx? (· = c) with
        | none => c
        | some i => (target[i]?.or target.getLast?).getD c
      some (if options.contains 's' then squeeze target exchanged else exchanged)
  | _ => none

/-! ### Columns -/

/-- Ranges of numbers with commas between them; a range may be open at one end. -/
def rangesOf (text : Text) : List (Nat × Option Nat) :=
  (splitAt ',' text).map fun part =>
    match splitAt '-' part with
    | [a] => ((nat? a).getD 0, some ((nat? a).getD 0))
    | a :: b :: _ => ((nat? a).getD 1, if b.isEmpty then none else nat? b)
    | [] => (0, some 0)

/-- The pieces whose numbers, counted from one, are in a range. -/
def selected {α : Type} (ranges : List (Nat × Option Nat)) (pieces : List α) : List α :=
  pieces.zipIdx.filterMap fun p =>
    if ranges.any fun r => r.1 ≤ p.2 + 1 && r.2.all (p.2 + 1 ≤ ·) then some p.1 else none

/-- The fields of a line that are asked for; a line without separators is kept. -/
def cutLine (separator : Char) (onlySeparated : Bool) (ranges : List (Nat × Option Nat))
    (line : Text) : Option Text :=
  if line.contains separator then
    some (joinWith [separator] (selected ranges (splitAt separator line)))
  else if onlySeparated then none
  else some line

/-! ### Order -/

/-- The number that a line begins with. -/
def leadingNumber (line : Text) : Int :=
  let cs := line.dropWhile Formula.isSpace
  match cs with
  | '-' :: ds => -(Formula.ofDigits 10 (ds.takeWhile Char.isDigit) : Int)
  | ds => Formula.ofDigits 10 (ds.takeWhile Char.isDigit)

/-- Lines in the order of their bytes or of their numbers. -/
def sortLines (numeric reverse unique : Bool) (lines : List Text) : List Text :=
  let before (a b : Text) : Bool :=
    if numeric && leadingNumber a ≠ leadingNumber b then leadingNumber a < leadingNumber b
    else a ≤ b
  let same (a b : Text) : Bool := if numeric then leadingNumber a == leadingNumber b else a == b
  let sorted := lines.mergeSort before
  let sorted := if unique then
      sorted.foldr (fun a kept =>
        match kept with
        | b :: more => if same a b then a :: more else a :: kept
        | [] => [a]) []
    else sorted
  if reverse then sorted.reverse else sorted

/-- Equal neighbours, with their number. -/
def runsOf (lines : List Text) : List (Nat × Text) :=
  lines.foldr (fun a runs =>
    match runs with
    | (n, b) :: more => if a = b then (n + 1, b) :: more else (1, a) :: runs
    | [] => [(1, a)]) []

/-! ### Numbers -/

/-- The numbers of a range, one in a line. -/
def countUp (first step last : Int) : List Text :=
  let count := if step = 0 then 0
    else if 0 < step then (last - first + step) / step
    else (first - last - step) / (-step)
  (List.range count.toNat).map fun (i : Nat) => digitsOf (first + step * i)

/-- Nanoseconds of a number of seconds, which may have a fraction and a unit. -/
def nanosOf? (text : Text) : Option Nat :=
  let unit :=
    match text.getLast? with
    | some 'm' => 60
    | some 'h' => 3600
    | some 'd' => 86400
    | _ => 1
  let digits := if text.getLast?.any (· ∈ ['s', 'm', 'h', 'd']) then text.dropLast else text
  let whole := digits.takeWhile (· ≠ '.')
  let fraction := ((digits.drop whole.length).drop 1).take 9
  if whole.isEmpty && fraction.isEmpty then none
  else match nat? ('0' :: whole), nat? ('0' :: fraction) with
    | some n, some f => some ((n * 10 ^ 9 + f * 10 ^ (9 - fraction.length)) * unit)
    | _, _ => none

end KubeClient.Shell
