import KubeClient.Number.Instance

/-!
# The shortest decimal of a double

* `Binary64.decompose` : a finite double as `m * 2 ^ q`;
* `Decimal` : a number `digits * 10 ^ exponent`;
* `Decimal.shortest` : of the decimals that round to a double, one with the fewest digits, and of
  those the nearest; of two nearest ones, the even one.

A decimal rounds to the double when it lies between the midpoints to its two neighbours, the
midpoints included when `m` is even. On the grid of the multiples of a power of ten only the two
neighbours of the double itself have to be tried: if any point of a grid lies in that interval, so
does one of them.
-/

namespace KubeClient

namespace Binary64

/-- Sign, and the two fields of the bits. -/
def fields (x : Float) : Bool × Nat × Nat :=
  let b := x.toBits.toNat
  (2 ^ 63 ≤ b, b / 2 ^ 52 % 2 ^ 11, b % 2 ^ 52)

/-- The magnitude of a finite double is `m * 2 ^ q`. -/
def decompose (x : Float) : Nat × Int :=
  let (_, biased, fraction) := fields x
  if biased = 0 then (fraction, -1074) else (2 ^ 52 + fraction, (biased : Int) - 1075)

/-- The sign bit is set. -/
def isNegative (x : Float) : Bool :=
  (fields x).1

end Binary64

/-- The number `digits * 10 ^ exponent`. -/
structure Decimal where
  digits : Nat
  exponent : Int
  deriving DecidableEq, Repr, Inhabited

namespace Decimal

/-- The interval of a double and the double itself, in units of `2 ^ (q - 2)`. -/
structure Window where
  low : Nat
  value : Nat
  high : Nat
  unit : Int
  closed : Bool
  deriving Repr

/-- What rounds to `m * 2 ^ q`; below a power of two the gap is half as wide. -/
def window (m : Nat) (q : Int) : Window :=
  { low := if m = 2 ^ 52 ∧ q ≠ -1074 then 4 * m - 1 else 4 * m - 2
    value := 4 * m
    high := 4 * m + 2
    unit := q - 2
    closed := m % 2 = 0 }

/-- Numerator and denominator of `n * 2 ^ u / 10 ^ k`. -/
def scaled (n : Nat) (u k : Int) : Nat × Nat :=
  (n * 2 ^ u.toNat * 10 ^ (-k).toNat, 2 ^ (-u).toNat * 10 ^ k.toNat)

/-- The point `d * 10 ^ k` lies in the window. -/
def Window.contains (w : Window) (d : Nat) (k : Int) : Bool :=
  let (low, den) := scaled w.low w.unit k
  let (high, _) := scaled w.high w.unit k
  if w.closed then low ≤ d * den && d * den ≤ high else low < d * den && d * den < high

/-- The point of the grid `10 ^ k` in the window that is nearest to the double; of two that are
equally near, the even one. -/
def Window.onGrid? (w : Window) (k : Int) : Option Nat :=
  let (num, den) := scaled w.value w.unit k
  let below := num / den
  match w.contains below k && below ≠ 0, w.contains (below + 1) k with
  | true, true =>
    let twice := 2 * (num % den)
    some (if twice < den ∨ twice = den ∧ below % 2 = 0 then below else below + 1)
  | true, false => some below
  | false, true => some (below + 1)
  | false, false => none

/-- Tries ever finer grids below `10 ^ k`. -/
def Window.search (w : Window) (k : Int) : Nat → Decimal
  | 0 => ⟨(w.onGrid? k).getD 0, k⟩
  | steps + 1 =>
    match w.onGrid? k with
    | some d => ⟨d, k⟩
    | none => search w (k - 1) steps

/-- The same number without zeros at the end of its digits. -/
def trim (d : Decimal) : Nat → Decimal
  | 0 => d
  | steps + 1 =>
    if d.digits ≠ 0 ∧ d.digits % 10 = 0 then trim ⟨d.digits / 10, d.exponent + 1⟩ steps else d

/-- An exponent `k` with `m * 2 ^ q < 10 ^ k`, at most two too large. -/
def ceiling (m : Nat) (q : Int) : Int :=
  ((m.log2 : Int) + 1 + q) * 30103 / 100000 + 2

/-- The shortest decimal that rounds to the magnitude of a finite double. -/
def shortest (x : Float) : Decimal :=
  let (m, q) := Binary64.decompose x
  if m = 0 then ⟨0, 0⟩ else ((window m q).search (ceiling m q) 24).trim 24

end Decimal
end KubeClient
