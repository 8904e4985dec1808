import KubeClient.Number.Instance

/-!
# Double-precision helpers

* `Float.powNat`, `Float.powInt` : powers by squaring, one reciprocal for a negative exponent;
* `Float.orderKey` : an integer that orders doubles by sign and magnitude, `-0` below `0`.
-/

namespace KubeClient.Binary64

/-- `acc * base ^ n`, by squaring `base` and multiplying it in for every set bit of `n`. -/
def powNat (acc base : Float) (n : Nat) : Float :=
  let acc := if n % 2 = 1 then acc * base else acc
  if n / 2 = 0 then acc else powNat acc (base * base) (n / 2)
termination_by n
decreasing_by omega

/-- `base ^ n`; a negative exponent takes one reciprocal at the end. -/
def powInt (base : Float) (n : Int) : Float :=
  if n < 0 then 1 / powNat 1 base n.natAbs else powNat 1 base n.natAbs

/-- Doubles ordered by sign and magnitude: the key of a negative one is below every other key. -/
def orderKey (x : Float) : Int :=
  let b := x.toBits.toNat
  if b < 2 ^ 63 then b else 2 ^ 63 - 1 - (b : Int)

/-- Three-way comparison of all doubles. -/
def totalCompare (x y : Float) : Ordering :=
  compare (orderKey x) (orderKey y)

end KubeClient.Binary64
