import KubeClient.Document.Cause
import KubeClient.Text.Numeral

/-!
# What plain scalars stand for

A scalar that is not quoted may stand for null, a boolean, an integer or a double.

* `Plain.integer?` : decimal, hexadecimal, octal and binary integers;
* `Plain.float?` : doubles;
* `Plain.found` : what a plain scalar stands for;
* `Plain.isString` : it stands for itself.
-/

namespace KubeClient.Yaml.Plain

/-- The texts of null. -/
def isNull (cs : List Char) : Bool :=
  String.ofList cs ∈ ["null", "Null", "NULL", "~"]

/-- The texts of booleans. -/
def bool? (cs : List Char) : Option Bool :=
  let s := String.ofList cs
  if s ∈ ["true", "True", "TRUE"] then some true
  else if s ∈ ["false", "False", "FALSE"] then some false
  else none

/-- A plus or a minus comes first. -/
def signed (cs : List Char) : Bool :=
  cs.head? == some '+' || cs.head? == some '-'

/-- Zeros in front of further digits make a string. -/
def hasLeadingZero (cs : List Char) : Bool :=
  match if signed cs then cs.drop 1 else cs with
  | '0' :: d :: ds => (d :: ds).all Char.isDigit
  | _ => false

/-! ### Integers -/

/-- The value of a digit up to `f`. -/
def digit? (c : Char) : Option Nat :=
  if c.isDigit then some (c.toNat - 48)
  else if 'a' ≤ c ∧ c ≤ 'f' then some (c.toNat - 87)
  else if 'A' ≤ c ∧ c ≤ 'F' then some (c.toNat - 55)
  else none

/-- The value of digits to a base. -/
def value? (base : Nat) (cs : List Char) : Option Nat :=
  cs.foldl (fun n c => do
    let n ← n
    let d ← digit? c
    if d < base then some (n * base + d) else none) (if cs = [] then none else some 0)

/-- The base that two characters in front tell, and what follows them. -/
def base? : List Char → Option (Nat × List Char)
  | '0' :: 'x' :: cs => some (16, cs)
  | '0' :: 'o' :: cs => some (8, cs)
  | '0' :: 'b' :: cs => some (2, cs)
  | _ => none

/-- A number without a sign, below `bound`. -/
def magnitude? (bound : Nat) (cs : List Char) : Option Nat :=
  let based := (base? cs).bind fun (base, ds) => value? base ds
  (based.or (if hasLeadingZero cs then none else value? 10 cs)).filter (· < bound)

/-- An integer of at most one sign: below `bound`, or not below `-negative`. -/
def integer? (bound negative : Nat) : List Char → Option Int
  | '-' :: cs => (magnitude? (negative + 1) cs).map fun n => -(n : Int)
  | '+' :: cs => (magnitude? bound cs).map Int.ofNat
  | cs => (magnitude? bound cs).map Int.ofNat

/-- An integer that a signed word of 64 bits holds. -/
def int64? : List Char → Option Int :=
  integer? (2 ^ 63) (2 ^ 63)

/-- An integer that an unsigned word of 64 bits holds; no minus is allowed. -/
def uint64? (cs : List Char) : Option Int :=
  if cs.head? = some '-' then none else integer? (2 ^ 64) 0 cs

/-! ### Doubles -/

/-- The exponent behind its mark. -/
def exponent? (cs : List Char) : Option Int :=
  let (negative, ds) := match cs with
    | '-' :: ds => (true, ds)
    | '+' :: ds => (false, ds)
    | ds => (false, ds)
  if ds = [] || !ds.all Char.isDigit then none
  else some (if negative then -(Numeral.value ds : Int) else Numeral.value ds)

/-- The double `digits * 10 ^ exponent`, if it is finite. -/
def decimal? (digits : List Char) (exponent : Int) : Option Float :=
  let n := Numeral.value digits
  let size : Int := (digits.dropWhile (· == '0')).length + exponent
  if n = 0 ∨ size < -330 then some 0
  else if 310 < size then none
  else
    let x := if exponent < 0 then Float.ofScientific n true exponent.natAbs
      else Float.ofScientific n false exponent.natAbs
    if x.isInf then none else some x

/-- A decimal number without a sign. -/
def unsignedFloat? (cs : List Char) : Option Float := do
  let (whole, rest) := Numeral.spanDigits cs
  let (fraction, rest) := match rest with
    | '.' :: rest => Numeral.spanDigits rest
    | rest => ([], rest)
  if whole = [] ∧ fraction = [] then none
  else
    let e ← match rest with
      | [] => some 0
      | c :: rest => if c = 'e' ∨ c = 'E' then exponent? rest else none
    decimal? (whole ++ fraction) (e - fraction.length)

/-- A double, or one of the names of those that are not finite. -/
def float? (cs : List Char) : Option Float :=
  let infinity : Float := 1 / 0
  let isInfinity (cs : List Char) : Bool := String.ofList cs ∈ [".inf", ".Inf", ".INF"]
  match cs with
  | '+' :: cs => if isInfinity cs then some infinity else unsignedFloat? cs
  | '-' :: cs => if isInfinity cs then some (-infinity) else (unsignedFloat? cs).map (- ·)
  | cs =>
    if isInfinity cs then some infinity
    else if String.ofList cs ∈ [".nan", ".NaN", ".NAN"] then some (0 / 0)
    else unsignedFloat? cs

/-! ### All kinds -/

/-- An integer of up to 128 bits. -/
def integerFound? (cs : List Char) : Option Found :=
  let natural := if cs.head? = some '-' then none else integer? (2 ^ 128) 0 cs
  match natural, integer? (2 ^ 127) (2 ^ 127) cs with
  | some n, _ => some (if n < 2 ^ 64 then .int n else .wide n "u128")
  | none, some n => some (if -2 ^ 63 ≤ n then .int n else .wide n "i128")
  | none, none => none

/-- What a plain scalar stands for. -/
def found (cs : List Char) : Found :=
  if cs = [] ∨ isNull cs then .null
  else match bool? cs, integerFound? cs with
    | some b, _ => .bool b
    | none, some n => n
    | none, none =>
      match if hasLeadingZero cs then none else float? cs with
      | some x => .float x
      | none => .string (String.ofList cs)

/-- A plain scalar stands for itself. -/
def isString (cs : List Char) : Bool :=
  match found cs with
  | .string _ => true
  | _ => false

end KubeClient.Yaml.Plain
