import KubeClient.Text.Numeral

/-!
# Fixed-point text

`FixedPoint.text` writes `value / 10 ^ places` with the fraction's trailing zeros dropped, and no
point for a whole number.
-/

namespace KubeClient.FixedPoint

/-- A list without the zeros at its end. -/
def trimZeros (ds : List Char) : List Char :=
  (ds.reverse.dropWhile (· == '0')).reverse

/-- `value / 10 ^ places`, with the fewest places that show it. -/
def text (value places : Nat) : List Char :=
  let fraction := value % 10 ^ places
  Nat.toDigits 10 (value / 10 ^ places) ++
    if fraction = 0 then [] else '.' :: trimZeros (Numeral.padded places fraction)

end KubeClient.FixedPoint
