import KubeClient.Number.Shortest
import KubeClient.Text.Numeral

/-!
# Texts of doubles

Every text writes the shortest decimal that reads back. `FloatText.general` puts the point among
the digits while the number is between `10 ^ -5` and `10 ^ 16` and writes an exponent beyond that;
`FloatText.positional` never writes an exponent.
-/

namespace KubeClient.FloatText

/-- Digits and point of a decimal, always with a digit on both sides of the point. -/
def pointed (d : Decimal) : List Char :=
  let ds := Nat.toDigits 10 d.digits
  let point : Int := ds.length + d.exponent
  if 0 ≤ d.exponent then ds ++ List.replicate d.exponent.toNat '0' ++ ['.', '0']
  else if 0 < point then ds.take point.toNat ++ '.' :: ds.drop point.toNat
  else '0' :: '.' :: List.replicate (-point).toNat '0' ++ ds

/-- One digit, the point and the rest, and the exponent; `plus` marks a positive one. -/
def withExponent (plus : Bool) (d : Decimal) : List Char :=
  let ds := Nat.toDigits 10 d.digits
  let e : Int := ds.length + d.exponent - 1
  ds.take 1 ++ (if ds.length = 1 then [] else '.' :: ds.drop 1) ++
    'e' :: (if plus && 0 ≤ e then ['+'] else []) ++ Numeral.ofInt e

/-- The sign of a double, if it shows. -/
def sign (x : Float) : List Char :=
  if Binary64.isNegative x then ['-'] else []

/-- A finite double, with an exponent where the number is large or small. -/
def general (plus : Bool) (x : Float) : List Char :=
  let d := Decimal.shortest x
  let point : Int := (Nat.toDigits 10 d.digits).length + d.exponent
  sign x ++ if -5 < point ∧ point ≤ 16 then pointed d else withExponent plus d

/-- A double without an exponent. -/
def positional (x : Float) : List Char :=
  if x.isNaN then ['N', 'a', 'N']
  else if x.isInf then sign x ++ ['i', 'n', 'f']
  else sign x ++ pointed (Decimal.shortest x)

end KubeClient.FloatText
