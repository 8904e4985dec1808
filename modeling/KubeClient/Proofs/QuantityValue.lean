import Mathlib.Algebra.Order.Field.Power
import Mathlib.Algebra.Order.Field.Rat
import Mathlib.Tactic.FieldSimp
import Mathlib.Tactic.Linarith
import Mathlib.Tactic.NormNum
import Mathlib.Tactic.Ring
import KubeClient.Scalar.Quantity

/-!
# Exact amounts

What an amount stands for, as a rational number.

* `Quantity.exact`, `Quantity.value` : significand times power of ten;
* `Quantity.exact_normal` : folding trailing zeros keeps the value;
* `Quantity.IsNormal`, `Quantity.IsNormal.eq_of_exact` : a value has one normal form;
* `Quantity.beq_iff_value_eq` : amounts are equal if their values are.
-/

namespace KubeClient.Quantity

/-- The number `s * 10 ^ e`. -/
def exact (p : Int × Int) : ℚ :=
  p.1 * 10 ^ p.2

/-- The exact amount. -/
def value (q : Quantity) : ℚ :=
  exact (q.significand, q.exponent)

/-! ### Scales -/

theorem exact_eq_zero {p : Int × Int} : exact p = 0 ↔ p.1 = 0 := by
  have hpow : (10 : ℚ) ^ p.2 ≠ 0 := zpow_ne_zero _ (by norm_num)
  simp [exact, hpow]

/-- The same number at a lower exponent. -/
theorem exact_lower (s : Int) {e f : Int} (h : e ≤ f) :
    exact (s * 10 ^ (f - e).toNat, e) = exact (s, f) := by
  have hpow : (10 : ℚ) ^ f = 10 ^ (f - e).toNat * 10 ^ e := by
    rw [← zpow_natCast, ← zpow_add₀ (by norm_num), Int.toNat_of_nonneg (by omega)]
    congr 1
    omega
  rw [exact, exact, hpow]
  push_cast
  ring

theorem exact_lt_exact {s t e : Int} : exact (s, e) < exact (t, e) ↔ s < t := by
  have hpow : (0 : ℚ) < 10 ^ e := zpow_pos (by norm_num) e
  rw [exact, exact, mul_lt_mul_iff_left₀ hpow, Int.cast_lt]

theorem exact_inj {s t e : Int} : exact (s, e) = exact (t, e) ↔ s = t := by
  have hpow : (10 : ℚ) ^ e ≠ 0 := zpow_ne_zero _ (by norm_num)
  rw [exact, exact, mul_left_inj' hpow, Int.cast_inj]

/-! ### Normal forms -/

/-- The largest exponent. -/
def maxExponent : Int := 2 ^ 31 - 1

/-- Zero stands as `(0, 0)`; any other number has no trailing zero, unless its exponent is the
largest. -/
def IsNormal (p : Int × Int) : Prop :=
  p = (0, 0) ∨ p.1 ≠ 0 ∧ p.2 ≤ maxExponent ∧ (p.1 % 10 = 0 → p.2 = maxExponent)

theorem exact_foldZeros (s e : Int) : exact (foldZeros s e) = exact (s, e) := by
  fun_induction foldZeros s e with
  | case1 s e h ih =>
    obtain ⟨-, hmod, -⟩ := h
    obtain ⟨t, rfl⟩ := Int.dvd_of_emod_eq_zero hmod
    have hstep := exact_lower t (Int.le_add_one (le_refl e))
    rw [show (e + 1 - e).toNat = 1 by omega, pow_one, Int.mul_comm] at hstep
    rw [ih, Int.mul_ediv_cancel_left t (by decide), hstep]
  | case2 => rfl

theorem isNormal_foldZeros {s e : Int} (hs : s ≠ 0) (he : e ≤ maxExponent) :
    IsNormal (foldZeros s e) := by
  fun_induction foldZeros s e with
  | case1 s e h ih =>
    refine ih ?_ ?_
    · omega
    · unfold maxExponent
      omega
  | case2 s e h =>
    refine .inr ⟨hs, he, fun hmod => ?_⟩
    unfold maxExponent at *
    omega

theorem Fits.le_maxExponent {e : Int} (h : Fits 32 e) : e ≤ maxExponent := by
  unfold Fits at h
  unfold maxExponent
  omega

theorem isNormal_normal (q : Quantity) : IsNormal q.normal := by
  rw [normal]
  split_ifs with h
  · exact .inl rfl
  · exact isNormal_foldZeros h (Fits.le_maxExponent q.exponent_fits)

theorem exact_normal (q : Quantity) : exact q.normal = q.value := by
  rw [normal, value]
  split_ifs with h
  · rw [h, exact_eq_zero.mpr rfl, exact_eq_zero.mpr rfl]
  · exact exact_foldZeros _ _

theorem foldZeros_ranges (s e : Int) (hs : Fits 128 s) (he : Fits 32 e) :
    Fits 128 (foldZeros s e).1 ∧ Fits 32 (foldZeros s e).2 ∧
      (foldZeros s e).1.natAbs ≤ s.natAbs := by
  fun_induction foldZeros s e with
  | case1 s e h ih =>
    have hs' : Fits 128 (s / 10) := by
      unfold Fits at *
      omega
    have he' : Fits 32 (e + 1) := by
      unfold Fits at *
      omega
    obtain ⟨hsig, hexp, hle⟩ := ih hs' he'
    exact ⟨hsig, hexp, by omega⟩
  | case2 => exact ⟨hs, he, le_refl _⟩

theorem normal_ranges (q : Quantity) :
    Fits 128 q.normal.1 ∧ Fits 32 q.normal.2 ∧ q.normal.1.natAbs ≤ q.significand.natAbs := by
  rw [normal]
  split_ifs with h
  · exact ⟨by decide, by decide, Nat.zero_le _⟩
  · exact foldZeros_ranges _ _ q.significand_fits q.exponent_fits

/-- The lower of two exponents of the same number would be of a significand with a trailing zero. -/
theorem IsNormal.exponent_le {p q : Int × Int} (hp : IsNormal p) (hq : IsNormal q)
    (h : exact p = exact q) (hne : p.1 ≠ 0) : q.2 ≤ p.2 := by
  by_contra hlt
  rw [Int.not_le] at hlt
  have hsig : p.1 = q.1 * 10 ^ (q.2 - p.2).toNat := by
    rw [← exact_inj (e := p.2), exact_lower q.1 hlt.le]
    exact h
  have hmod : p.1 % 10 = 0 := by
    obtain ⟨k, hk⟩ : ∃ k, (q.2 - p.2).toNat = k + 1 := ⟨(q.2 - p.2).toNat - 1, by omega⟩
    rw [hsig, hk, pow_succ, ← Int.mul_assoc]
    exact Int.mul_emod_left _ _
  rcases hp with rfl | ⟨-, -, hmax⟩
  · exact hne rfl
  rcases hq with rfl | ⟨-, hle, -⟩
  · rw [Int.zero_mul] at hsig
    exact hne hsig
  · have := hmax hmod
    omega

theorem IsNormal.eq_of_exact {p q : Int × Int} (hp : IsNormal p) (hq : IsNormal q)
    (h : exact p = exact q) : p = q := by
  by_cases hzero : p.1 = 0
  · have hzero' : q.1 = 0 := exact_eq_zero.mp (h ▸ exact_eq_zero.mpr hzero)
    rcases hp with rfl | ⟨hne, -⟩
    · rcases hq with rfl | ⟨hne, -⟩
      · rfl
      · exact absurd hzero' hne
    · exact absurd hzero hne
  · have hzero' : q.1 ≠ 0 := fun hq0 => hzero (exact_eq_zero.mp (h ▸ exact_eq_zero.mpr hq0))
    have hexp : p.2 = q.2 :=
      le_antisymm (hq.exponent_le hp h.symm hzero') (hp.exponent_le hq h hzero)
    obtain ⟨s, e⟩ := p
    obtain ⟨t, f⟩ := q
    obtain rfl : e = f := hexp
    rw [exact_inj.mp h]

theorem normal_eq_iff {a b : Quantity} : a.normal = b.normal ↔ a.value = b.value := by
  rw [← exact_normal a, ← exact_normal b]
  exact ⟨fun h => by rw [h], (isNormal_normal a).eq_of_exact (isNormal_normal b)⟩

theorem beq_iff_value_eq {a b : Quantity} : (a == b) = true ↔ a.value = b.value := by
  rw [← normal_eq_iff]
  exact beq_iff_eq (a := a.normal) (b := b.normal)

end KubeClient.Quantity
