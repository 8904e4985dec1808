import KubeClient.Scalar.Date
import Mathlib.Order.Monotone.Basic

/-!
# Days and dates

* `Date.year_bounds` : the year of a day in a cycle of 400 years;
* `Date.valid_ofDays` : every day has a date that exists;
* `Date.toDays_ofDays` : the date of a day is the date of no other day;
* `Date.le_year_iff` : the days of a year are those from its first day to that of the next one.
-/

namespace KubeClient.Date

/-! ### Years -/

/-- A day of a cycle, leap days taken out. -/
def levelled (d : Int) : Int :=
  d - d / 1460 + d / 36524 - d / 146096

theorem levelled_le_succ (d : Int) : levelled d ≤ levelled (d + 1) := by
  have h (d : Int) : d / 146096 = d / 36524 / 4 := by
    rw [Int.ediv_ediv_of_nonneg (by decide)]
    rfl
  unfold levelled
  rw [h, h]
  omega

theorem levelled_mono {a b : Int} (h : a ≤ b) : levelled a ≤ levelled b :=
  monotone_int_of_le_succ levelled_le_succ h

/-- The first and the last day of each year. -/
theorem levelled_year : ∀ y : Fin 400, 365 * (y.val : Int) ≤ levelled (daysBeforeYear y.val) ∧
    levelled (daysBeforeYear (y.val + 1) - 1) < 365 * (y.val + 1) := by
  decide +kernel

/-- A day of a cycle lies in the year that it is told to. -/
theorem year_bounds {d y : Int} (hlow : 0 ≤ d) (hhigh : d < 146097) (hy : y = levelled d / 365) :
    0 ≤ y ∧ y < 400 ∧ daysBeforeYear y ≤ d ∧ d < daysBeforeYear (y + 1) := by
  have hzero : (0 : Int) ≤ levelled d := levelled_mono hlow
  have hlast : levelled d ≤ 145999 := levelled_mono (show d ≤ 146096 by omega)
  have hy0 : 0 ≤ y := by omega
  have hy1 : y < 400 := by omega
  refine ⟨hy0, hy1, ?_, ?_⟩
  · -- a day before the year would be levelled to an earlier one
    refine Int.not_lt.mp fun hlt => ?_
    by_cases hfirst : y = 0
    · subst hfirst
      have hstart : daysBeforeYear 0 = 0 := rfl
      omega
    · have hprev := (levelled_year ⟨(y - 1).toNat, by omega⟩).2
      have hcast : (((y - 1).toNat : Nat) : Int) = y - 1 := Int.toNat_of_nonneg (by omega)
      simp only [hcast, Int.sub_add_cancel] at hprev
      have hle := levelled_mono (show d ≤ daysBeforeYear y - 1 by omega)
      omega
  · refine Int.not_le.mp fun hle => ?_
    by_cases hend : y = 399
    · subst hend
      have hstart : daysBeforeYear (399 + 1) = 146097 := rfl
      omega
    · have hnext := (levelled_year ⟨(y + 1).toNat, by omega⟩).1
      have hcast : (((y + 1).toNat : Nat) : Int) = y + 1 := Int.toNat_of_nonneg (by omega)
      simp only [hcast] at hnext
      have hmono := levelled_mono hle
      omega

/-- A year has 366 days at most. -/
theorem length_year (y : Int) : daysBeforeYear (y + 1) - daysBeforeYear y ≤ 366 := by
  unfold daysBeforeYear
  omega

/-- A year of 366 days ends with the leap day of the next one of the calendar. -/
theorem isLeap_of_length {cycle y : Int} (h : daysBeforeYear y + 365 < daysBeforeYear (y + 1)) :
    isLeap (400 * cycle + y + 1) = true := by
  unfold daysBeforeYear at h
  simp only [isLeap, Bool.and_eq_true, Bool.or_eq_true, decide_eq_true_eq, ne_eq]
  omega

theorem daysBeforeYear_cycle (cycle y : Int) :
    daysBeforeYear (400 * cycle + y) = 146097 * cycle + daysBeforeYear y := by
  unfold daysBeforeYear
  omega

/-! ### Months -/

/-- A day of a year lies in the month that it is told to. -/
theorem month_bounds {d m : Int} (hlow : 0 ≤ d) (hhigh : d ≤ 365) (hm : m = (5 * d + 2) / 153) :
    0 ≤ m ∧ m ≤ 11 ∧ daysBefore m ≤ d ∧ d < daysBefore (m + 1) := by
  unfold daysBefore
  omega

/-! ### Dates -/

/-- The year, the month and the day of the month, as `ofDays` counts them from March. -/
theorem exists_ofDays (n : Int) : ∃ cycle y d m : Int,
    n = 146097 * cycle + daysBeforeYear y + d - epoch ∧
    0 ≤ d ∧ d < daysBeforeYear (y + 1) - daysBeforeYear y ∧
    0 ≤ m ∧ m ≤ 11 ∧ daysBefore m ≤ d ∧ d < daysBefore (m + 1) ∧
    ofDays n = {
      year := if m < 10 then 400 * cycle + y else 400 * cycle + y + 1
      month := (if m < 10 then m + 3 else m - 9).toNat
      day := (d - daysBefore m + 1).toNat } := by
  obtain ⟨hy0, hy1, hstart, hend⟩ :=
    year_bounds (d := (n + epoch) % 146097) (by omega) (by omega) rfl
  have hlength := length_year (levelled ((n + epoch) % 146097) / 365)
  obtain ⟨hm0, hm1, hfirst, hlast⟩ := month_bounds
    (d := (n + epoch) % 146097 - daysBeforeYear (levelled ((n + epoch) % 146097) / 365))
    (by omega) (by omega) rfl
  refine ⟨(n + epoch) / 146097, levelled ((n + epoch) % 146097) / 365, _, _, ?_, ?_, ?_, hm0, hm1,
    hfirst, hlast, rfl⟩
  · omega
  · omega
  · omega

/-- Every day has a date that exists. -/
theorem valid_ofDays (n : Int) : (ofDays n).Valid := by
  obtain ⟨cycle, y, d, m, -, hd0, hd1, hm0, hm1, hfirst, hlast, hdate⟩ := exists_ofDays n
  rw [hdate]
  unfold daysBefore at hfirst hlast ⊢
  by_cases hmarch : m < 10
  · simp only [Valid, daysInMonth, if_pos hmarch]
    refine ⟨by omega, by omega, by omega, ?_⟩
    rw [if_neg (by omega)]
    split <;> omega
  · simp only [Valid, daysInMonth, if_neg hmarch]
    refine ⟨by omega, by omega, by omega, ?_⟩
    split
    · -- a leap day ends a year of 366 days
      have hlength := length_year y
      split
      · omega
      · next hcommon =>
        have hlength : ¬ daysBeforeYear y + 365 < daysBeforeYear (y + 1) := fun h =>
          hcommon (isLeap_of_length h)
        omega
    · rw [if_neg (by omega)]
      omega

/-- The date of a day is the date of no other day. -/
theorem toDays_ofDays (n : Int) : (ofDays n).toDays = n := by
  obtain ⟨cycle, y, d, m, hn, hd0, hd1, hm0, hm1, hfirst, hlast, hdate⟩ := exists_ofDays n
  rw [hdate, toDays]
  by_cases hmarch : m < 10
  · have hmonth : ¬ (m + 3).toNat ≤ 2 := by omega
    have hcast : ((m + 3).toNat : Int) - 3 = m := by omega
    simp only [if_pos hmarch, if_neg hmonth, hcast, daysBeforeYear_cycle]
    omega
  · have hmonth : (m - 9).toNat ≤ 2 := by omega
    have hcast : ((m - 9).toNat : Int) + 9 = m := by omega
    simp only [if_neg hmarch, if_pos hmonth, hcast, Int.add_sub_cancel, daysBeforeYear_cycle]
    omega

/-! ### Years of the calendar -/

/-- The first of January. -/
def firstDay (year : Int) : Int :=
  daysBeforeYear (year - 1) + daysBefore 10 - epoch

theorem firstDay_mono {a b : Int} (h : a ≤ b) : firstDay a ≤ firstDay b := by
  unfold firstDay daysBeforeYear
  omega

theorem daysInMonth_le (year : Int) (month : Nat) : daysInMonth year month ≤ 31 := by
  unfold daysInMonth
  split
  · split <;> omega
  · split <;> omega

/-- A date lies between the first day of its year and that of the next one. -/
theorem toDays_bounds {d : Date} (h : d.Valid) :
    firstDay d.year ≤ d.toDays ∧ d.toDays < firstDay (d.year + 1) := by
  obtain ⟨hm0, hm1, hd0, hd1⟩ := h
  have hday := daysInMonth_le d.year d.month
  unfold toDays firstDay daysBefore daysBeforeYear
  by_cases hmonth : d.month ≤ 2
  · simp only [if_pos hmonth]
    omega
  · simp only [if_neg hmonth]
    omega

theorem le_year_iff_of_valid {d : Date} (h : d.Valid) (y : Int) :
    y ≤ d.year ↔ firstDay y ≤ d.toDays := by
  obtain ⟨hlow, hhigh⟩ := toDays_bounds h
  refine ⟨fun hy => Int.le_trans (firstDay_mono hy) hlow, fun hy => ?_⟩
  -- a day of a later year does not come before the first day of the next one
  by_contra hlt
  have hnext := firstDay_mono (show d.year + 1 ≤ y by omega)
  omega

/-- The days of a year are those from its first day to that of the next one. -/
theorem le_year_iff (n y : Int) : y ≤ (ofDays n).year ↔ firstDay y ≤ n := by
  rw [le_year_iff_of_valid (valid_ofDays n), toDays_ofDays]

end KubeClient.Date
