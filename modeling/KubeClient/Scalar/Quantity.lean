import KubeClient.Number.Binary64
import KubeClient.Text.Numeral
import KubeClient.Scalar.Error

/-!
# Resource amounts

An amount such as `500m`, `1.5Gi` or `12e3` is `significand * 10 ^ exponent` together with the
suffix family it was written in.

* `Quantity.parse` : reads a literal, which is kept and shown again verbatim;
* `Quantity.ofParts?` : an amount without a literal, shown in its own family by `canonical`;
* `Quantity.normal` : trailing zeros folded into the exponent, so equal amounts have one form;
* `Quantity.compare` : exact while both sides fit one 128-bit scale, by doubles beyond that;
* `Quantity.feed` : an amount as a hasher takes it.
-/

namespace KubeClient

/-- The suffix family of an amount. -/
inductive Quantity.Format
  /-- Powers of 1024: `Ki`, `Mi`, … -/
  | binarySI
  /-- Powers of 1000: `m`, `k`, `M`, …, and bare numbers. -/
  | decimalSI
  /-- Scientific notation: `12e3`. -/
  | decimalExponent
  deriving DecidableEq, Repr, Inhabited

/-- The amount `significand * 10 ^ exponent`. -/
structure Quantity where
  significand : Int
  exponent : Int
  format : Quantity.Format
  /-- The text it was read from, if any. -/
  literal : Option (List Char)
  significand_fits : Fits 128 significand
  exponent_fits : Fits 32 exponent
  deriving Repr

namespace Quantity

/-- Why a literal is refused. -/
inductive Fault
  | empty
  | noNumber
  | manyPoints
  | manyDigits
  | unknownSuffix
  | valueRange
  | exponentRange
  deriving DecidableEq, Repr

/-- The reason shown to a user. -/
def Fault.message : Fault → String
  | .empty => "empty quantity"
  | .noNumber => "missing numeric part"
  | .manyPoints => "more than one decimal point"
  | .manyDigits => "too many digits"
  | .unknownSuffix => "unknown suffix"
  | .valueRange => "value out of range"
  | .exponentRange => "exponent out of range"

/-- The most digits of a literal, zeros in front of the integer part apart. -/
def maxDigits : Nat := 30

/-- The suffix of `1024 ^ n`, for `n ≤ 6`. -/
def binarySuffix : Nat → List Char
  | 1 => ['K', 'i']
  | 2 => ['M', 'i']
  | 3 => ['G', 'i']
  | 4 => ['T', 'i']
  | 5 => ['P', 'i']
  | 6 => ['E', 'i']
  | _ => []

/-- The suffix of `10 ^ e`, for a multiple `e` of three between `-9` and `18`. -/
def decimalSuffix : Int → List Char
  | -9 => ['n']
  | -6 => ['u']
  | -3 => ['m']
  | 3 => ['k']
  | 6 => ['M']
  | 9 => ['G']
  | 12 => ['T']
  | 15 => ['P']
  | 18 => ['E']
  | _ => []

/-- The family of a suffix, with its power of 1024 or of ten. -/
def readSuffix : List Char → Option (Format × Int)
  | ['K', 'i'] => some (.binarySI, 1)
  | ['M', 'i'] => some (.binarySI, 2)
  | ['G', 'i'] => some (.binarySI, 3)
  | ['T', 'i'] => some (.binarySI, 4)
  | ['P', 'i'] => some (.binarySI, 5)
  | ['E', 'i'] => some (.binarySI, 6)
  | ['n'] => some (.decimalSI, -9)
  | ['u'] => some (.decimalSI, -6)
  | ['m'] => some (.decimalSI, -3)
  | [] => some (.decimalSI, 0)
  | ['k'] => some (.decimalSI, 3)
  | ['M'] => some (.decimalSI, 6)
  | ['G'] => some (.decimalSI, 9)
  | ['T'] => some (.decimalSI, 12)
  | ['P'] => some (.decimalSI, 15)
  | ['E'] => some (.decimalSI, 18)
  | 'e' :: e => (Numeral.toInt? 32 e).map fun n => (.decimalExponent, n)
  | 'E' :: e => (Numeral.toInt? 32 e).map fun n => (.decimalExponent, n)
  | _ => none

/-- The sign in front of a literal, and what follows it. -/
def splitSign : List Char → Bool × List Char
  | '-' :: cs => (true, cs)
  | '+' :: cs => (false, cs)
  | cs => (false, cs)

/-- The number in front, cut at its first point, and the suffix behind it. -/
def splitNumber (cs : List Char) : List Char × List Char × List Char :=
  let inNumber (c : Char) : Bool := c.isDigit || c == '.'
  let number := cs.takeWhile inNumber
  (number.takeWhile (· != '.'), (number.dropWhile (· != '.')).drop 1, cs.dropWhile inNumber)

theorem fits_neg {b : Nat} {n : Int} (h : Fits b n) (h0 : 0 ≤ n) : Fits b (-n) := by
  unfold Fits at *
  omega

/-- An amount read from `literal`, given the magnitude of its significand. -/
def ofLiteral (literal : List Char) (negative : Bool) (magnitude : Nat) (exponent : Int)
    (format : Format) : Except Fault Quantity :=
  if hs : Fits 128 (magnitude : Int) then
    if he : Fits 32 exponent then
      .ok {
        significand := if negative then -(magnitude : Int) else magnitude
        exponent, format
        literal := some literal
        significand_fits := by
          split
          · exact fits_neg hs (Int.natCast_nonneg _)
          · exact hs
        exponent_fits := he }
    else .error .exponentRange
  else .error .valueRange

/-- Reads a literal. -/
def parseChars (input : List Char) : Except Fault Quantity :=
  if input = [] then .error .empty else
  let (negative, body) := splitSign input
  let (whole, fraction, suffix) := splitNumber body
  if whole = [] ∧ fraction = [] then .error .noNumber
  else if '.' ∈ fraction then .error .manyPoints
  else if (whole.dropWhile (· == '0')).length + fraction.length > maxDigits then
    .error .manyDigits
  else
    let significand := Numeral.value (whole ++ fraction)
    match readSuffix suffix with
    | none => .error .unknownSuffix
    | some (.binarySI, power) =>
      ofLiteral input negative (significand * 1024 ^ power.toNat) (-fraction.length) .binarySI
    | some (format, power) =>
      ofLiteral input negative significand (power - fraction.length) format

/-- Reads a literal. -/
def parse (input : String) : Except ScalarError Quantity :=
  (parseChars input.toList).mapError fun f => ⟨"quantity", input, f.message⟩

/-- The amount `significand * 10 ^ exponent`, if both fit their words. -/
def ofParts? (significand exponent : Int) (format : Format) : Option Quantity :=
  if hs : Fits 128 significand then
    if he : Fits 32 exponent then some ⟨significand, exponent, format, none, hs, he⟩ else none
  else none

/-- The amount zero. -/
def zero : Quantity :=
  ⟨0, 0, .decimalSI, none, by decide, fits_zero⟩

instance : Inhabited Quantity := ⟨zero⟩

/-- The same parts without the literal. -/
def withoutLiteral (q : Quantity) : Quantity :=
  { q with literal := none }

/-- Folds trailing zeros of a significand into the exponent, up to the largest exponent. -/
def foldZeros (significand exponent : Int) : Int × Int :=
  if significand ≠ 0 ∧ significand % 10 = 0 ∧ exponent < 2 ^ 31 - 1 then
    foldZeros (significand / 10) (exponent + 1)
  else (significand, exponent)
termination_by significand.natAbs
decreasing_by omega

/-- One form for every amount: no trailing zeros, and `(0, 0)` for zero. -/
def normal (q : Quantity) : Int × Int :=
  if q.significand = 0 then (0, 0) else foldZeros q.significand q.exponent

/-- `n`, if a 128-bit word holds it. -/
def word? (n : Int) : Option Int :=
  if Fits 128 n then some n else none

/-- `10 ^ n`, if a 128-bit word holds it. -/
def powTen? (n : Nat) : Option Int :=
  if n ≤ 38 then some (10 ^ n) else none

/-- Lowers the exponent to a multiple of three. -/
def toThousands? (significand exponent : Int) : Option (Int × Int) :=
  let e := Int.fdiv exponent 3 * 3
  if Fits 32 e then
    (word? (significand * 10 ^ (exponent - e).toNat)).map (·, e)
  else none

/-- Multiplies by 1000 until the exponent has a suffix. -/
def lowerToSuffix? (significand exponent : Int) : Option (Int × Int) :=
  if 18 < exponent then
    match word? (significand * 1000) with
    | some grown => lowerToSuffix? grown (exponent - 3)
    | none => none
  else some (significand, exponent)
termination_by exponent.toNat
decreasing_by omega

/-- `significand` and `exponent` in scientific notation. -/
def scientific (significand exponent : Int) : List Char :=
  Numeral.ofInt significand ++ 'e' :: Numeral.ofInt exponent

/-- The nearest nano amount away from zero. -/
def roundToNanos (significand exponent : Int) : Int :=
  let divisor : Int := 10 ^ min (-9 - exponent).toNat 38
  let nanos := Int.tdiv significand divisor
  if significand % divisor = 0 then nanos else nanos + significand.sign

/-- With a decimal suffix; amounts too large for one are written in scientific notation. -/
def decimalText (significand exponent : Int) : List Char :=
  if exponent < -9 then
    Numeral.ofInt (roundToNanos significand exponent) ++ ['n']
  else
    match (toThousands? significand exponent).bind fun (s, e) => lowerToSuffix? s e with
    | some (s, e) => Numeral.ofInt s ++ decimalSuffix e
    | none => scientific significand exponent

/-- Divides by 1024 while it goes, at most `room` times; counts the divisions from `n`. -/
def divideBinary (value : Int) (n : Nat) : Nat → Int × Nat
  | 0 => (value, n)
  | room + 1 =>
    if value ≠ 0 ∧ value % 1024 = 0 then divideBinary (value / 1024) (n + 1) room
    else (value, n)

/-- An integral amount with the largest binary suffix that divides it. -/
def binaryText? (significand exponent : Int) : Option (List Char) :=
  if exponent < 0 then none else do
    let scale ← powTen? exponent.toNat
    let value ← word? (significand * scale)
    let (s, n) := divideBinary value 0 6
    return Numeral.ofInt s ++ binarySuffix n

/-- In scientific notation, with an exponent that is a multiple of three. -/
def exponentText (significand exponent : Int) : List Char :=
  match toThousands? significand exponent with
  | some (s, 0) => Numeral.ofInt s
  | some (s, e) => scientific s e
  | none => scientific significand exponent

/-- The text of the amount in its own suffix family. -/
def canonical (q : Quantity) : List Char :=
  let (s, e) := q.normal
  if s = 0 then ['0']
  else match q.format with
    | .binarySI => (binaryText? s e).getD (decimalText s e)
    | .decimalSI => decimalText s e
    | .decimalExponent => exponentText s e

/-- The literal it was read from, or else its canonical text. -/
def chars (q : Quantity) : List Char :=
  q.literal.getD q.canonical

/-- The text on the wire. -/
def text (q : Quantity) : String :=
  String.ofList q.chars

/-- An approximate value. -/
def toFloat (q : Quantity) : Float :=
  if q.significand = 0 then 0 else Float.ofInt q.significand * Binary64.powInt 10 q.exponent

instance : BEq Quantity where
  beq a b := a.normal == b.normal

/-- A hasher takes one word after the other. -/
structure Hasher (σ : Type) where
  wide : σ → BitVec 128 → σ
  narrow : σ → BitVec 32 → σ

/-- Feeds a hasher the normal form, the significand first. -/
def feed {σ : Type} (h : Hasher σ) (state : σ) (q : Quantity) : σ :=
  h.narrow (h.wide state (BitVec.ofInt 128 q.normal.1)) (BitVec.ofInt 32 q.normal.2)

/-- A normal form at the lower exponent `e`, if a 128-bit word holds it. -/
def scaleTo? (p : Int × Int) (e : Int) : Option Int :=
  (powTen? (p.2 - e).toNat).bind fun t => word? (p.1 * t)

/-- Compares two amounts, by their doubles when no common scale fits. -/
def compare (a b : Quantity) : Ordering :=
  let e := min a.normal.2 b.normal.2
  match scaleTo? a.normal e, scaleTo? b.normal e with
  | some x, some y => Ord.compare x y
  | _, _ => Binary64.totalCompare a.toFloat b.toFloat

end Quantity
end KubeClient
