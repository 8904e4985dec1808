import KubeClient.Number.Instance

/-!
# Decimal numerals

Numerals are lists of characters.

* `Fits b n` : the integer `n` is in the range of a signed `b`-bit word;
* `Numeral.ofInt` : the numeral of an integer, `-` before a negative one;
* `Numeral.toNat?`, `Numeral.toInt?` : the readers, with a bound on the range;
* `Numeral.spanDigits` : the longest run of digits in front.
-/

namespace KubeClient

/-- The range of a signed word of `b` bits. -/
def Fits (b : Nat) (n : Int) : Prop :=
  -2 ^ (b - 1) ≤ n ∧ n < 2 ^ (b - 1)

instance (b : Nat) (n : Int) : Decidable (Fits b n) :=
  inferInstanceAs (Decidable (_ ∧ _))

theorem fits_zero : Fits 32 0 := by
  decide

namespace Numeral

/-- The numeral of an integer. -/
def ofInt : Int → List Char
  | .ofNat n => Nat.toDigits 10 n
  | .negSucc n => '-' :: Nat.toDigits 10 (n + 1)

/-- The value of a run of digits. -/
def value (ds : List Char) : Nat :=
  Nat.ofDigitChars 10 ds 0

/-- The longest run of ASCII digits in front, and what follows it. -/
def spanDigits (cs : List Char) : List Char × List Char :=
  (cs.takeWhile Char.isDigit, cs.dropWhile Char.isDigit)

/-- A numeral without a sign below `bound`; leading zeros are fine. -/
def toNat? (bound : Nat) (cs : List Char) : Option Nat :=
  if cs = [] || !cs.all Char.isDigit then none
  else if value cs < bound then some (value cs) else none

/-- An unsigned numeral below `bound`, one `+` allowed. -/
def toUnsigned? (bound : Nat) : List Char → Option Nat
  | '+' :: cs => toNat? bound cs
  | cs => toNat? bound cs

/-- A numeral with at most one sign, in the range of a signed word of `b` bits. -/
def toInt? (b : Nat) : List Char → Option Int
  | '-' :: cs => (toNat? (2 ^ (b - 1) + 1) cs).map fun n => -(n : Int)
  | '+' :: cs => (toNat? (2 ^ (b - 1)) cs).map Int.ofNat
  | cs => (toNat? (2 ^ (b - 1)) cs).map Int.ofNat

/-- The numeral of `n`, filled with zeros in front up to `width` digits. -/
def padded (width n : Nat) : List Char :=
  let ds := Nat.toDigits 10 n
  List.replicate (width - ds.length) '0' ++ ds

theorem value_toDigits (n : Nat) : value (Nat.toDigits 10 n) = n := by
  simp [value]

theorem spanDigits_append (cs : List Char) :
    (spanDigits cs).1 ++ (spanDigits cs).2 = cs := by
  simp [spanDigits]

end Numeral
end KubeClient
