import KubeClient.Number.Shortest
import KubeClient.Shell.Formula

/-!
# Printed texts

* `Shell.unescape` : what escapes stand for;
* `Shell.echoed` : arguments that are printed one behind the other;
* `Shell.printed` : a format that is filled in with arguments.
-/

namespace KubeClient.Shell

/-! ### Escapes -/

/-- An octal digit. -/
def isOctal (c : Char) : Bool :=
  '0' ≤ c && c ≤ '7'

/-- The character that a letter behind a backslash stands for. -/
def escaped? : Char → Option Char
  | 'a' => some '\x07'
  | 'b' => some '\x08'
  | 'e' => some '\x1b'
  | 'f' => some '\x0c'
  | 'n' => some '\n'
  | 'r' => some '\r'
  | 't' => some '\t'
  | 'v' => some '\x0b'
  | '\\' => some '\\'
  | _ => none

/-- What a backslash stands for in front of a text, and what is left of the text. -/
def escape (cs : Text) : Char × Text :=
  let digits := (cs.take 3).takeWhile isOctal
  if !digits.isEmpty then
    (Char.ofNat (Formula.ofDigits 8 digits % 256), cs.drop digits.length)
  else match cs with
    | c :: more =>
      match escaped? c with
      | some d => (d, more)
      | none => ('\\', cs)
    | [] => ('\\', [])

/-- What a text with escapes stands for; the flag tells that it says that nothing more is
printed. -/
def unescape : Nat → Text → Text × Bool
  | 0, _ => ([], false)
  | _, [] => ([], false)
  | fuel + 1, c :: cs =>
    if c ≠ '\\' then
      let (text, ends) := unescape fuel cs
      (c :: text, ends)
    else match cs with
      | 'c' :: _ => ([], true)
      | cs =>
        let cs := match cs with
          | '0' :: d :: more => if isOctal d then d :: more else cs
          | cs => cs
        let (d, rest) := escape cs
        let (text, ends) := unescape fuel rest
        (d :: text, ends)

/-- What a text with escapes stands for, and whether nothing more is printed. -/
def unescaped (text : Text) : Text × Bool :=
  unescape (text.length + 1) text

/-- Arguments with blanks between them, and whether nothing more is printed. -/
def echoedWords (escapes : Bool) : List Text → Text × Bool
  | [] => ([], false)
  | word :: words =>
    let (text, ends) := if escapes then unescaped word else (word, false)
    if ends then (text, true)
    else if words.isEmpty then (text, false)
    else
      let (more, ends) := echoedWords escapes words
      (text ++ ' ' :: more, ends)

/-- What is printed of arguments; the line is ended unless the first one tells otherwise. -/
def echoed (escapes : Bool) (args : List Text) : Text :=
  let (bare, words) := match args with
    | ['-', 'n'] :: words => (true, words)
    | words => (false, words)
  let (text, ends) := echoedWords escapes words
  if bare || ends then text else text ++ ['\n']

/-! ### Layouts -/

/-- What stands between a percent sign and the letter behind it. -/
structure Layout where
  flags : Text
  width : Option Int
  places : Option Int
  deriving Repr, Inhabited

namespace Layout

/-- Fills a text up with blanks. -/
def fill (l : Layout) (text : Text) : Text :=
  let width := l.width.getD 0
  let gap := List.replicate (width.natAbs - text.length) ' '
  if width < 0 || l.flags.contains '-' then text ++ gap else gap ++ text

/-- A text, of which only so many characters are printed. -/
def text (l : Layout) (text : Text) : Text :=
  l.fill (match l.places with
    | some n => if n < 0 then text else text.take n.toNat
    | none => text)

/-- A number: a sign or a mark in front, and digits, which are filled up with zeros. -/
def number (l : Layout) (front digits : Text) : Text :=
  let zeros := if l.flags.contains '0' && !l.flags.contains '-' && l.places.isNone
    then (l.width.getD 0).toNat - front.length - digits.length else 0
  l.fill (front ++ List.replicate zeros '0' ++ digits)

/-- At least as many digits as are asked for. -/
def padded (l : Layout) (zero : Bool) (digits : Text) : Text :=
  match l.places with
  | some n => if n = 0 ∧ zero then [] else List.replicate (n.toNat - digits.length) '0' ++ digits
  | none => digits

/-- The sign of a number. -/
def sign (l : Layout) (negative : Bool) : Text :=
  if negative then ['-']
  else if l.flags.contains '+' then ['+']
  else if l.flags.contains ' ' then [' ']
  else []

/-- A number with a sign. -/
def signed (l : Layout) (n : Int) : Text :=
  l.number (l.sign (n < 0)) (l.padded (n = 0) (Nat.toDigits 10 n.natAbs))

/-- A number without a sign, to a base. -/
def unsigned (l : Layout) (letter : Char) (n : Nat) : Text :=
  let base := if letter = 'o' then 8 else if letter = 'u' then 10 else 16
  let digits := l.padded (n = 0) (Nat.toDigits base n)
  let digits := if letter = 'X' then digits.map Char.toUpper else digits
  let alternate := l.flags.contains '#'
  if letter = 'o' ∧ alternate ∧ digits.head? ≠ some '0' then l.number [] ('0' :: digits)
  else if base = 16 ∧ alternate ∧ n ≠ 0 then l.number ['0', letter] digits
  else l.number [] digits

/-- The whole number that is nearest to a double times a power of ten, an exact tie going to the
even one. -/
def nearest (x : Float) (places : Int) : Nat :=
  let (m, q) := Binary64.decompose x
  let num := m * 2 ^ q.toNat * 10 ^ places.toNat
  let den := 2 ^ (-q).toNat * 10 ^ (-places).toNat
  let twice := 2 * (num % den)
  let n := num / den
  if den < twice || (twice = den && n % 2 = 1) then n + 1 else n

/-- A whole number with a point in front of its last places. -/
def withPoint (places n : Nat) : Text :=
  let digits := Nat.toDigits 10 n
  let digits := List.replicate (places + 1 - digits.length) '0' ++ digits
  let whole := digits.take (digits.length - places)
  if places = 0 then whole else whole ++ '.' :: digits.drop (digits.length - places)

/-- The exponent of a double whose digits are cut to one in front of the point and so many behind
it, and the digits. -/
def scientific (x : Float) (places : Nat) : Int × Nat :=
  let (m, q) := Binary64.decompose x
  if m = 0 then (0, 0)
  else
    let size (n : Nat) : Int := (Nat.toDigits 10 n).length
    let top := size (m * 2 ^ q.toNat) - size (2 ^ (-q).toNat)
    let reaches (e : Int) : Bool :=
      2 ^ (-q).toNat * 10 ^ e.toNat ≤ m * 2 ^ q.toNat * 10 ^ (-e).toNat
    let e := if reaches top then top else top - 1
    let n := nearest x (places - e)
    if n = 10 ^ (places + 1) then (e + 1, 10 ^ places) else (e, n)

/-- A double with its places behind the point. -/
def plain (x : Float) (places : Nat) : Text :=
  withPoint places (nearest x places)

/-- A double with an exponent. -/
def exponential (x : Float) (places : Nat) : Text :=
  let (e, n) := scientific x places
  let digits := Nat.toDigits 10 e.natAbs
  withPoint places n ++ 'e' :: (if e < 0 then '-' else '+') ::
    List.replicate (2 - digits.length) '0' ++ digits

/-- Zeros at the end behind a point are left out. -/
def withoutZeros (text : Text) : Text :=
  let (number, exponent) := text.span (· ≠ 'e')
  if number.contains '.' then
    let bare := (number.reverse.dropWhile (· = '0')).reverse
    (if bare.getLast? = some '.' then bare.dropLast else bare) ++ exponent
  else text

/-- A double with so many digits at most, with an exponent if it is very large or very small. -/
def general (l : Layout) (x : Float) : Text :=
  let digits := match l.places with
    | some n => max 1 n.toNat
    | none => 6
  let e := (scientific x (digits - 1)).1
  let text := if -4 ≤ e ∧ e < digits then plain x (digits - 1 - e).toNat
    else exponential x (digits - 1)
  if l.flags.contains '#' then text else withoutZeros text

/-- A double. -/
def double (l : Layout) (letter : Char) (x : Float) : Text :=
  let upper (text : Text) : Text := if letter.isUpper then text.map Char.toUpper else text
  if x.isNaN then l.fill (upper ['n', 'a', 'n'])
  else if x.isInf then l.fill (upper (l.sign (x < 0) ++ ['i', 'n', 'f']))
  else
    let places := (l.places.getD 6).toNat
    let text := match letter.toLower with
      | 'f' => plain x places
      | 'e' => exponential x places
      | _ => general l x
    { l with places := none }.number (l.sign (Binary64.isNegative x)) (upper text)

end Layout

/-! ### Formats -/

/-- What was printed, what was complained of, why printing could not go on, and whether nothing more
is printed. -/
structure Printed where
  text : Text := []
  complaints : List String := []
  fault : Option String := none
  ends : Bool := false
  deriving Repr, Inhabited

namespace Printed

/-- Adds to the end. -/
def then_ (p q : Printed) : Printed :=
  { q with text := p.text ++ q.text, complaints := p.complaints ++ q.complaints }

end Printed

/-- An argument as a number, and what is complained of. -/
def numberOf (arg : Text) : Int × List String :=
  let name := arg.decoded
  match arg with
  | [] => (0, [])
  | quote :: more =>
    if quote = '\'' ∨ quote = '"' then ((more.head?.map fun c => (c.toNat : Int)).getD 0, [])
    else
      let cs := arg.dropWhile Formula.isSpace
      let (negative, ds) := match cs with
        | '-' :: ds => (true, ds)
        | '+' :: ds => (false, ds)
        | ds => (false, ds)
      match Formula.natural? ds with
      | none => (0, [name ++ ": expected numeric value"])
      | some (n, rest) =>
        let value : Int := if negative then -n else n
        let limit := Formula.maxInt
        let held := if limit < value then limit else if value < -limit - 1 then -limit - 1 else value
        if !rest.isEmpty then (held, [name ++ ": not completely converted"])
        else if held ≠ value then (held, [name ++ ": Numerical result out of range"])
        else (value, [])

/-- The number behind an `e`, and what follows it; without digits there is none. -/
def exponentOf (cs : Text) : Int × Text :=
  match cs with
  | e :: more =>
    let (negative, ds) := match more with
      | '-' :: ds => (true, ds)
      | '+' :: ds => (false, ds)
      | ds => (false, ds)
    let (digits, rest) := Formula.spanBase 10 ds
    if e.toLower ≠ 'e' ∨ digits.isEmpty then (0, cs)
    else (if negative then -(Formula.ofDigits 10 digits) else Formula.ofDigits 10 digits, rest)
  | [] => (0, [])

/-- An argument as a double, and what is complained of. -/
def doubleOf (arg : Text) : Float × List String :=
  let cs := arg.dropWhile Formula.isSpace
  let (negative, ds) := match cs with
    | '-' :: ds => (true, ds)
    | '+' :: ds => (false, ds)
    | ds => (false, ds)
  let (whole, rest) := Formula.spanBase 10 ds
  let (fraction, rest) := match rest with
    | '.' :: more => Formula.spanBase 10 more
    | rest => ([], rest)
  let (exponent, rest) := exponentOf rest
  let exponent := max (-5000) (min 5000 (exponent - fraction.length))
  let x := Float.ofScientific (Formula.ofDigits 10 (whole ++ fraction)) (exponent < 0) exponent.natAbs
  let x := if negative then -x else x
  if arg.isEmpty then (0, [])
  else if (whole ++ fraction).isEmpty then (0, [arg.decoded ++ ": expected numeric value"])
  else if !rest.isEmpty then (x, [arg.decoded ++ ": not completely converted"])
  else (x, [])

/-- A width or a number of places in front of a text, or of the arguments if an asterisk stands for
it, and what is left of both. -/
def measure (cs : Text) (args : List Text) : Option Int × Text × List Text :=
  match cs with
  | '*' :: cs => (some (numberOf (args.headD [])).1, cs, args.tail)
  | cs =>
    let (digits, rest) := Formula.spanBase 10 cs
    (if digits.isEmpty then none else some (Formula.ofDigits 10 digits : Int), rest, args)

/-- What a letter behind a percent sign makes of the arguments, and what is left of these. -/
def converted (l : Layout) (letter : Char) (args : List Text) : Option (Printed × List Text) :=
  let arg := args.headD []
  let rest := args.tail
  match letter with
  | 's' => some ({ text := l.text arg }, rest)
  | 'b' =>
    let (text, ends) := unescaped arg
    some ({ text := l.text text, ends }, rest)
  | 'c' => some ({ text := l.text [arg.headD '\x00'] }, rest)
  | 'd' | 'i' =>
    let (n, complaints) := numberOf arg
    some ({ text := l.signed n, complaints }, rest)
  | 'o' | 'u' | 'x' | 'X' =>
    let (n, complaints) := numberOf arg
    some ({ text := l.unsigned letter (n % 2 ^ 64).toNat, complaints }, rest)
  | 'e' | 'E' | 'f' | 'F' | 'g' | 'G' =>
    let (x, complaints) := doubleOf arg
    some ({ text := l.double letter x, complaints }, rest)
  | _ => none

/-- A format filled in with arguments once, and the arguments that are left. -/
def fillIn : Nat → Text → List Text → Printed × List Text
  | 0, _, args => ({}, args)
  | _, [], args => ({}, args)
  | fuel + 1, c :: cs, args =>
    if c = '\\' then
      let (d, rest) := escape cs
      let (p, args) := fillIn fuel rest args
      (({ text := [d] } : Printed).then_ p, args)
    else if c ≠ '%' then
      let (p, args) := fillIn fuel cs args
      (({ text := [c] } : Printed).then_ p, args)
    else match cs with
      | '%' :: cs =>
        let (p, args) := fillIn fuel cs args
        (({ text := ['%'] } : Printed).then_ p, args)
      | cs =>
        let flags := cs.takeWhile fun c => c ∈ ['#', '-', '+', ' ', '0']
        let (width, rest, args) := measure (cs.drop flags.length) args
        let (places, rest, args) := match rest with
          | '.' :: rest =>
            let (places, rest, args) := measure rest args
            (some (places.getD 0), rest, args)
          | rest => (none, rest, args)
        match rest with
        | [] => ({ fault := some "missing format character" }, args)
        | letter :: rest =>
          match converted ⟨flags, width, places⟩ letter args with
          | none =>
            let text := Text.decoded (cs.take (cs.length - rest.length))
            ({ fault := some ("%" ++ text ++ ": invalid directive") }, args)
          | some (p, args) =>
            if p.ends then (p, [])
            else
              let (q, args) := fillIn fuel rest args
              (p.then_ q, args)

/-- A format filled in again and again until all arguments are used. -/
def fillAll (form : Text) : Nat → List Text → Printed
  | 0, _ => {}
  | fuel + 1, args =>
    let (p, rest) := fillIn (form.length + 1) form args
    if p.ends || p.fault.isSome || rest.isEmpty || rest.length = args.length then p
    else p.then_ (fillAll form fuel rest)

/-- What is printed of a format and its arguments. -/
def printed (form : Text) (args : List Text) : Printed :=
  fillAll form (args.length + 1) args

end KubeClient.Shell
