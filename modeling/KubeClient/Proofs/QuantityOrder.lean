import Mathlib.Order.Compare
import KubeClient.Proofs.QuantityValue

/-!
# The order of amounts

* `Quantity.Aligns` : two amounts fit one scale of 128 bits;
* `Quantity.compare_of_aligns`, `Quantity.compare_of_not_aligns` : such amounts are compared
  exactly, all others by their doubles;
* `Quantity.compare_swap` : the order does not depend on the side;
* `Quantity.compare_by_magnitude` : all of it;
* `Quantity.compare_speck` : doubles may take different amounts for the same.
-/

namespace KubeClient.Quantity

variable {a b : Quantity}

/-- A 128-bit word holds the power of ten and the significand at the exponent `e`. -/
def FitsAt (p : Int × Int) (e : Int) : Prop :=
  (p.2 - e).toNat ≤ 38 ∧ Fits 128 (p.1 * 10 ^ (p.2 - e).toNat)

/-- Both amounts fit a 128-bit word at the lower of their exponents. -/
def Aligns (a b : Quantity) : Prop :=
  FitsAt a.normal (min a.normal.2 b.normal.2) ∧ FitsAt b.normal (min a.normal.2 b.normal.2)

/-! ### The common scale -/

theorem scaleTo?_of_fitsAt {p : Int × Int} {e : Int} (h : FitsAt p e) :
    scaleTo? p e = some (p.1 * 10 ^ (p.2 - e).toNat) := by
  obtain ⟨hpow, hfits⟩ := h
  rw [scaleTo?, powTen?, if_pos hpow, Option.bind_some, word?, if_pos hfits]

theorem scaleTo?_of_not_fitsAt {p : Int × Int} {e : Int} (h : ¬ FitsAt p e) :
    scaleTo? p e = none := by
  rw [scaleTo?, powTen?]
  split_ifs with hpow
  · rw [Option.bind_some, word?, if_neg fun hfits => h ⟨hpow, hfits⟩]
  · rfl

theorem compare_of_aligns (h : Aligns a b) : a.compare b = cmp a.value b.value := by
  have hmono : StrictMono fun s => exact (s, min a.normal.2 b.normal.2) :=
    fun _ _ hlt => exact_lt_exact.mpr hlt
  rw [Quantity.compare, scaleTo?_of_fitsAt h.1, scaleTo?_of_fitsAt h.2, ← exact_normal a,
    ← exact_normal b, ← exact_lower a.normal.1 (min_le_left a.normal.2 b.normal.2),
    ← exact_lower b.normal.1 (min_le_right a.normal.2 b.normal.2)]
  exact (cmp_eq_compare _ _).symm.trans (hmono.cmp_map_eq _ _).symm

theorem compare_of_not_aligns (h : ¬ Aligns a b) :
    a.compare b = Binary64.totalCompare a.toFloat b.toFloat := by
  rw [Quantity.compare]
  by_cases ha : FitsAt a.normal (min a.normal.2 b.normal.2)
  · rw [scaleTo?_of_not_fitsAt fun hb => h ⟨ha, hb⟩]
    cases scaleTo? a.normal (min a.normal.2 b.normal.2) <;> rfl
  · rw [scaleTo?_of_not_fitsAt ha]

/-! ### Laws -/

theorem aligns_comm : Aligns a b ↔ Aligns b a := by
  rw [Aligns, Aligns, min_comm, and_comm]

theorem totalCompare_swap (x y : Float) :
    Binary64.totalCompare y x = (Binary64.totalCompare x y).swap :=
  (Int.compare_swap (Binary64.orderKey x) (Binary64.orderKey y)).symm

theorem compare_swap (a b : Quantity) : b.compare a = (a.compare b).swap := by
  by_cases h : Aligns a b
  · rw [compare_of_aligns h, compare_of_aligns (aligns_comm.mp h), cmp_swap]
  · rw [compare_of_not_aligns h, compare_of_not_aligns fun hba => h (aligns_comm.mp hba),
      totalCompare_swap]

/-- Equal amounts have one normal form, which needs no scaling. -/
theorem aligns_of_value_eq (h : a.value = b.value) : Aligns a b := by
  have hfits : FitsAt b.normal b.normal.2 := by
    refine ⟨?_, ?_⟩
    · rw [Int.sub_self]
      decide
    · rw [Int.sub_self, Int.toNat_zero, pow_zero, Int.mul_one]
      exact (normal_ranges b).1
  rw [Aligns, normal_eq_iff.mpr h, min_self]
  exact ⟨hfits, hfits⟩

theorem compare_of_value_eq (h : a.value = b.value) : a.compare b = .eq := by
  rw [compare_of_aligns (aligns_of_value_eq h), h, cmp_self_eq_eq]

/-- Equality is that of the exact values, and goes with the order; the order does not depend on the
side; it is the order of the exact values wherever both fit one scale, and that of doubles beyond
that. -/
theorem compare_by_magnitude (a b : Quantity) :
    ((a == b) = true ↔ a.value = b.value) ∧
    ((a == b) = true → a.compare b = .eq) ∧
    b.compare a = (a.compare b).swap ∧
    (Aligns a b → a.compare b = cmp a.value b.value) ∧
    (¬ Aligns a b → a.compare b = Binary64.totalCompare a.toFloat b.toFloat) :=
  ⟨beq_iff_value_eq, fun h => compare_of_value_eq (beq_iff_value_eq.mp h), compare_swap a b,
    compare_of_aligns, compare_of_not_aligns⟩

/-- An amount that is too small for a double. -/
def speck : Quantity :=
  ⟨1, -400, .decimalExponent, none, by decide, by decide⟩

/-- Twice as much. -/
def twoSpecks : Quantity :=
  ⟨2, -400, .decimalExponent, none, by decide, by decide⟩

theorem value_zero_lt_speck : zero.value < speck.value := by
  simp [value, exact, zero, speck]

/-- Both amounts compare equal to zero, although they are greater, and not equal to each other. -/
theorem compare_speck :
    zero.compare speck = .eq ∧ zero.value < speck.value ∧ (zero == speck) = false ∧
      zero.compare twoSpecks = .eq ∧ speck.compare twoSpecks = .lt :=
  ⟨by decide +kernel, value_zero_lt_speck, by decide +kernel, by decide +kernel,
    by decide +kernel⟩

end KubeClient.Quantity
