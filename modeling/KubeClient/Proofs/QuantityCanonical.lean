import KubeClient.Proofs.Digits
import KubeClient.Proofs.QuantityValue

/-!
# Canonical texts of amounts

The loops behind the canonical text, in closed form, and what the text stands for.

* `Quantity.lowerToSuffix?_eq`, `Quantity.decimalText_eq` : a decimal amount is shown at the
  exponent `shownExponent`, or in scientific notation if a word does not hold it there;
* `Quantity.divideBinary_spec` : the largest binary suffix that divides an integral amount;
* `Quantity.Shown`, `Quantity.Shown.Writes` : a number with a suffix, and the texts that show it;
* `Quantity.writes_canonical`, `Quantity.value_shown` : what the canonical text of an amount shows,
  which is the amount itself if it is not rounded.
-/

namespace KubeClient.Quantity

/-! ### Words -/

/-- What does not fit a word does not fit it after growing. -/
theorem not_fits_mul {b : Nat} {n t : Int} (h : ¬ Fits b n) (ht : 0 < t) : ¬ Fits b (n * t) := by
  unfold Fits at *
  rintro ⟨hlow, hhigh⟩
  rcases Int.lt_or_le n 0 with hn | hn
  · have hgrow : n * t ≤ n * 1 := Int.mul_le_mul_of_nonpos_left (by omega) ht
    have hpow : (0 : Int) < 2 ^ (b - 1) := by positivity
    omega
  · have hgrow : n * 1 ≤ n * t := Int.mul_le_mul_of_nonneg_left ht hn
    have hpow : (0 : Int) < 2 ^ (b - 1) := by positivity
    omega

theorem word?_of_fits {n : Int} (h : Fits 128 n) : word? n = some n :=
  if_pos h

theorem word?_of_not_fits {n : Int} (h : ¬ Fits 128 n) : word? n = none :=
  if_neg h

/-- Growing in two steps fits if it fits in one. -/
theorem word?_mul_mul {n t u : Int} (hu : 0 < u) :
    ((word? (n * t)).bind fun m => word? (m * u)) = word? (n * (t * u)) := by
  rw [← Int.mul_assoc]
  by_cases h : Fits 128 (n * t)
  · rw [word?_of_fits h, Option.bind_some]
  · rw [word?_of_not_fits h, word?_of_not_fits (not_fits_mul h hu)]
    rfl

/-! ### Decimal suffixes -/

theorem ten_pow_toNat {a b : Int} (h : a ≤ b) (ha : 0 ≤ a) :
    (10 : Int) ^ b.toNat = 10 ^ a.toNat * 10 ^ (b - a).toNat := by
  rw [← pow_add]
  congr 1
  omega

/-- Exponents above that of the last suffix are lowered to it at once. -/
theorem lowerToSuffix?_eq {s e : Int} (h : e % 3 = 0) :
    lowerToSuffix? s e =
      if 18 < e then (word? (s * 10 ^ (e - 18).toNat)).map (·, 18) else some (s, e) := by
  fun_induction lowerToSuffix? s e with
  | case1 s e hlt grown hgrown ih =>
    rw [ih (by omega), if_pos hlt]
    have hpow : (10 : Int) ^ (e - 18).toNat = 1000 * 10 ^ (e - 3 - 18).toNat := by
      rw [ten_pow_toNat (a := 3) (by omega) (by omega), show e - 18 - 3 = e - 3 - 18 by omega]
      rfl
    obtain ⟨hfits, rfl⟩ : Fits 128 (s * 1000) ∧ s * 1000 = grown := by
      simpa [word?] using hgrown
    rw [hpow, ← Int.mul_assoc]
    split_ifs with hlt'
    · rfl
    · obtain rfl : e = 21 := by omega
      simp [word?_of_fits hfits]
  | case2 s e hlt hnone =>
    have hfits : ¬ Fits 128 (s * 1000) := by simpa [word?] using hnone
    have hpow : (10 : Int) ^ (e - 18).toNat = 1000 * 10 ^ (e - 18 - 3).toNat :=
      ten_pow_toNat (a := 3) (by omega) (by omega)
    rw [if_pos hlt, hpow, ← Int.mul_assoc, word?_of_not_fits (not_fits_mul hfits (by positivity))]
    rfl
  | case3 s e hlt => rw [if_neg hlt]

/-- The exponent of the suffix that a decimal amount is shown with. -/
def shownExponent (e : Int) : Int :=
  min (e / 3 * 3) 18

theorem shownExponent_le (e : Int) : shownExponent e ≤ e := by
  unfold shownExponent
  omega

theorem toThousands?_eq {s e : Int} (h : Fits 32 (e / 3 * 3)) :
    toThousands? s e = (word? (s * 10 ^ (e - e / 3 * 3).toNat)).map (·, e / 3 * 3) := by
  simp only [toThousands?, Int.fdiv_eq_ediv_of_nonneg e (by decide : (0 : Int) ≤ 3), if_pos h]

theorem toThousands?_bind_lower {s e : Int} (h : Fits 32 (e / 3 * 3)) :
    ((toThousands? s e).bind fun (s, e) => lowerToSuffix? s e) =
      (word? (s * 10 ^ (e - shownExponent e).toNat)).map (·, shownExponent e) := by
  have hlower (m : Int) := lowerToSuffix?_eq (s := m) (e := e / 3 * 3) (by omega)
  rw [toThousands?_eq h, Option.bind_map]
  simp only [Function.comp_def, hlower]
  unfold shownExponent
  split_ifs with hlt
  · have hpow : (10 : Int) ^ (e - 18).toNat =
        10 ^ (e - e / 3 * 3).toNat * 10 ^ (e / 3 * 3 - 18).toNat := by
      rw [← pow_add]
      congr 1
      omega
    rw [min_eq_right hlt.le, hpow, ← word?_mul_mul (by positivity), Option.map_bind]
    rfl
  · rw [min_eq_left (by omega)]
    cases word? (s * 10 ^ (e - e / 3 * 3).toNat) <;> rfl

theorem decimalText_eq {s e : Int} (hlow : -9 ≤ e) (he : Fits 32 e) :
    decimalText s e =
      match word? (s * 10 ^ (e - shownExponent e).toNat) with
      | some m => Numeral.ofInt m ++ decimalSuffix (shownExponent e)
      | none => scientific s e := by
  have hthousands : Fits 32 (e / 3 * 3) := by
    unfold Fits at *
    omega
  rw [decimalText, if_neg (by omega), toThousands?_bind_lower hthousands]
  cases word? (s * 10 ^ (e - shownExponent e).toNat) <;> rfl

/-! ### Binary suffixes -/

/-- A number is divided by 1024 as often as it goes, but not more often than there is room. -/
theorem divideBinary_spec (value : Int) (n room : Nat) :
    n ≤ (divideBinary value n room).2 ∧ (divideBinary value n room).2 ≤ n + room ∧
      value = (divideBinary value n room).1 * 1024 ^ ((divideBinary value n room).2 - n) ∧
      ((divideBinary value n room).2 = n + room ∨ value = 0 ∨
        (divideBinary value n room).1 % 1024 ≠ 0) := by
  fun_induction divideBinary value n room with
  | case1 => simp
  | case2 value n room h ih =>
    obtain ⟨hlow, hhigh, hvalue, hend⟩ := ih
    refine ⟨by omega, by omega, ?_, ?_⟩
    · rw [show (divideBinary (value / 1024) (n + 1) room).2 - n =
        (divideBinary (value / 1024) (n + 1) room).2 - (n + 1) + 1 by omega, pow_succ,
        ← Int.mul_assoc, ← hvalue]
      omega
    · rcases hend with hend | hend | hend
      · exact .inl (by omega)
      · exact .inr (.inl (by omega))
      · exact .inr (.inr hend)
  | case3 value n room h =>
    refine ⟨le_refl n, by omega, by simp, ?_⟩
    by_cases hzero : value = 0
    · exact .inr (.inl hzero)
    · exact .inr (.inr fun hmod => h ⟨hzero, hmod⟩)

/-! ### What is shown -/

/-- A number with a suffix: what stands in front of the suffix, the family of the suffix, and its
power of 1024 or of ten. -/
structure Shown where
  mantissa : Int
  format : Format
  power : Int

/-- What a suffix stands for. -/
def Shown.multiplier (x : Shown) : ℚ :=
  match x.format with
  | .binarySI => 1024 ^ x.power
  | .decimalSI => 10 ^ x.power
  | .decimalExponent => 10 ^ x.power

/-- What a number with a suffix stands for. -/
def Shown.value (x : Shown) : ℚ :=
  x.mantissa * x.multiplier

/-- A text that cannot go on with a digit or a point. -/
def EndsNumber (suffix : List Char) : Prop :=
  ∀ c ∈ suffix.head?, c.isDigit = false ∧ c ≠ '.'

/-- A text shows a number with a suffix. -/
def Shown.Writes (x : Shown) (cs : List Char) : Prop :=
  ∃ suffix, cs = Numeral.ofInt x.mantissa ++ suffix ∧ EndsNumber suffix ∧
    readSuffix suffix = some (x.format, x.power)

/-- A significand at its own exponent, in scientific notation. -/
def shownScientific (s e : Int) : Shown :=
  ⟨s, .decimalExponent, e⟩

/-- At the exponent of a decimal suffix, if a word holds it. -/
def shownDecimal (s e : Int) : Shown :=
  if Fits 128 (s * 10 ^ (e - shownExponent e).toNat) then
    ⟨s * 10 ^ (e - shownExponent e).toNat, .decimalSI, shownExponent e⟩
  else shownScientific s e

/-- An integer that a word holds, divided by 1024 up to six times. -/
def shownBinary (s e : Int) : Shown :=
  if 0 ≤ e ∧ Fits 128 (s * 10 ^ e.toNat) then
    if (divideBinary (s * 10 ^ e.toNat) 0 6).2 = 0 then
      ⟨(divideBinary (s * 10 ^ e.toNat) 0 6).1, .decimalSI, 0⟩
    else
      ⟨(divideBinary (s * 10 ^ e.toNat) 0 6).1, .binarySI, (divideBinary (s * 10 ^ e.toNat) 0 6).2⟩
  else shownDecimal s e

/-- At an exponent that is a multiple of three, if words hold it. -/
def shownThousands (s e : Int) : Shown :=
  if Fits 32 (e / 3 * 3) ∧ Fits 128 (s * 10 ^ (e - e / 3 * 3).toNat) then
    if e / 3 * 3 = 0 then ⟨s * 10 ^ (e - e / 3 * 3).toNat, .decimalSI, 0⟩
    else ⟨s * 10 ^ (e - e / 3 * 3).toNat, .decimalExponent, e / 3 * 3⟩
  else shownScientific s e

/-- What the canonical text of an amount shows. -/
def shown (q : Quantity) : Shown :=
  if q.normal.1 = 0 then ⟨0, .decimalSI, 0⟩
  else match q.format with
    | .binarySI => shownBinary q.normal.1 q.normal.2
    | .decimalSI => shownDecimal q.normal.1 q.normal.2
    | .decimalExponent => shownThousands q.normal.1 q.normal.2

/-! ### Suffixes that are read back -/

theorem readSuffix_decimalSuffix {e : Int} (hlow : -9 ≤ e) (hhigh : e ≤ 18) (hmod : e % 3 = 0) :
    readSuffix (decimalSuffix e) = some (.decimalSI, e) := by
  obtain ⟨k, rfl⟩ := Int.dvd_of_emod_eq_zero hmod
  have hk : -3 ≤ k ∧ k ≤ 6 := by omega
  obtain ⟨hk₁, hk₂⟩ := hk
  interval_cases k <;> rfl

theorem endsNumber_decimalSuffix (e : Int) : EndsNumber (decimalSuffix e) := by
  unfold EndsNumber decimalSuffix
  split <;> rintro c ⟨⟩ <;> decide

theorem readSuffix_binarySuffix {n : Nat} (hpos : n ≠ 0) (hn : n ≤ 6) :
    readSuffix (binarySuffix n) = some (Format.binarySI, (n : Int)) := by
  interval_cases n <;> first | exact absurd rfl hpos | rfl

theorem endsNumber_binarySuffix (n : Nat) : EndsNumber (binarySuffix n) := by
  unfold EndsNumber binarySuffix
  split <;> rintro c ⟨⟩ <;> decide

theorem readSuffix_exponent {e : Int} (he : Fits 32 e) :
    readSuffix ('e' :: Numeral.ofInt e) = some (.decimalExponent, e) := by
  rw [readSuffix, Numeral.toInt?_ofInt he]
  rfl

theorem writes_scientific {s e : Int} (he : Fits 32 e) :
    (shownScientific s e).Writes (scientific s e) :=
  ⟨_, rfl, by simp [EndsNumber], readSuffix_exponent he⟩

theorem writes_decimalText {s e : Int} (hlow : -9 ≤ e) (he : Fits 32 e) :
    (shownDecimal s e).Writes (decimalText s e) := by
  rw [decimalText_eq hlow he, shownDecimal]
  split_ifs with hfits
  · rw [word?_of_fits hfits]
    refine ⟨_, rfl, endsNumber_decimalSuffix _, readSuffix_decimalSuffix ?_ ?_ ?_⟩
    · unfold shownExponent
      omega
    · exact min_le_right _ _
    · unfold shownExponent
      omega
  · rw [word?_of_not_fits hfits]
    exact writes_scientific he

/-- A bare number, which has no suffix. -/
theorem writes_ofInt (m : Int) : Shown.Writes ⟨m, .decimalSI, 0⟩ (Numeral.ofInt m) :=
  ⟨[], (List.append_nil _).symm, by simp [EndsNumber], rfl⟩

theorem toThousands?_of_not_fits {s e : Int}
    (h : ¬ (Fits 32 (e / 3 * 3) ∧ Fits 128 (s * 10 ^ (e - e / 3 * 3).toNat))) :
    toThousands? s e = none := by
  by_cases hfits : Fits 32 (e / 3 * 3)
  · rw [toThousands?_eq hfits, word?_of_not_fits fun hword => h ⟨hfits, hword⟩]
    rfl
  · simp only [toThousands?, Int.fdiv_eq_ediv_of_nonneg e (by decide : (0 : Int) ≤ 3),
      if_neg hfits]

theorem writes_exponentText {s e : Int} (he : Fits 32 e) :
    (shownThousands s e).Writes (exponentText s e) := by
  rw [exponentText, shownThousands]
  split_ifs with h hzero
  · rw [toThousands?_eq h.1, word?_of_fits h.2, Option.map_some, hzero]
    exact writes_ofInt _
  · rw [toThousands?_eq h.1, word?_of_fits h.2, Option.map_some]
    split
    · rename_i heq
      exact absurd (Prod.mk.inj (Option.some.inj heq)).2 hzero
    · rename_i heq
      obtain ⟨rfl, rfl⟩ := Prod.mk.inj (Option.some.inj heq)
      exact writes_scientific h.1
    · rename_i heq
      cases heq
  · rw [toThousands?_of_not_fits h]
    exact writes_scientific he

/-- A power of ten that a word does not hold makes any number but zero too large for a word. -/
theorem not_fits_of_large {s : Int} {n : Nat} (hs : s ≠ 0) (hn : 38 < n) :
    ¬ Fits 128 (s * 10 ^ n) := by
  have hpow : ¬ Fits 128 (s * 10 ^ 39) := by
    unfold Fits
    omega
  obtain ⟨k, rfl⟩ : ∃ k, n = 39 + k := ⟨n - 39, by omega⟩
  rw [pow_add, ← Int.mul_assoc]
  exact not_fits_mul hpow (by positivity)

theorem binaryText?_of_fits {s e : Int} (hs : s ≠ 0) (he : 0 ≤ e)
    (hfits : Fits 128 (s * 10 ^ e.toNat)) :
    binaryText? s e = some (Numeral.ofInt (divideBinary (s * 10 ^ e.toNat) 0 6).1 ++
      binarySuffix (divideBinary (s * 10 ^ e.toNat) 0 6).2) := by
  have hpow : e.toNat ≤ 38 := by
    by_contra hlt
    exact not_fits_of_large hs (by omega) hfits
  simp only [binaryText?, if_neg (Int.not_lt.mpr he), powTen?, if_pos hpow, word?_of_fits hfits,
    bind, Option.bind_some, pure]

theorem binaryText?_of_not_fits {s e : Int} (h : ¬ (0 ≤ e ∧ Fits 128 (s * 10 ^ e.toNat))) :
    binaryText? s e = none := by
  by_cases he : 0 ≤ e
  · have hword : word? (s * 10 ^ e.toNat) = none := word?_of_not_fits fun hfits => h ⟨he, hfits⟩
    rw [binaryText?, if_neg (Int.not_lt.mpr he), powTen?]
    split_ifs
    · simp only [bind, Option.bind_some, hword, Option.bind_none]
    · rfl
  · rw [binaryText?, if_pos (Int.not_le.mp he)]

theorem writes_binaryText {s e : Int} (hs : s ≠ 0) (hlow : -9 ≤ e) (he : Fits 32 e) :
    (shownBinary s e).Writes ((binaryText? s e).getD (decimalText s e)) := by
  obtain ⟨-, hn, -⟩ := divideBinary_spec (s * 10 ^ e.toNat) 0 6
  have hbare : binarySuffix 0 = [] := rfl
  rw [shownBinary]
  split_ifs with h hzero
  · rw [binaryText?_of_fits hs h.1 h.2, Option.getD_some, hzero, hbare, List.append_nil]
    exact writes_ofInt _
  · rw [binaryText?_of_fits hs h.1 h.2, Option.getD_some]
    exact ⟨_, rfl, endsNumber_binarySuffix _, readSuffix_binarySuffix hzero hn⟩
  · rw [binaryText?_of_not_fits h, Option.getD_none]
    exact writes_decimalText hlow he

/-! ### Canonical texts -/

/-- The amount is not rounded in its text. -/
def IsExactText (q : Quantity) : Prop :=
  q.format ≠ .decimalExponent → -9 ≤ q.normal.2

theorem writes_canonical {q : Quantity} (h : q.IsExactText) : q.shown.Writes q.canonical := by
  have he := (normal_ranges q).2.1
  have hcanonical : q.canonical = if q.normal.1 = 0 then ['0'] else
      match q.format with
      | .binarySI => (binaryText? q.normal.1 q.normal.2).getD (decimalText q.normal.1 q.normal.2)
      | .decimalSI => decimalText q.normal.1 q.normal.2
      | .decimalExponent => exponentText q.normal.1 q.normal.2 := rfl
  rw [hcanonical, shown]
  split_ifs with hzero
  · exact writes_ofInt 0
  · cases hformat : q.format with
    | binarySI => exact writes_binaryText hzero (h (by simp [hformat])) he
    | decimalSI => exact writes_decimalText (h (by simp [hformat])) he
    | decimalExponent => exact writes_exponentText he

/-! ### Exactness -/

theorem value_shownScientific (s e : Int) : (shownScientific s e).value = exact (s, e) :=
  rfl

theorem value_shownDecimal (s e : Int) : (shownDecimal s e).value = exact (s, e) := by
  rw [shownDecimal]
  split_ifs
  · exact exact_lower s (shownExponent_le e)
  · exact value_shownScientific s e

theorem value_shownBinary (s e : Int) : (shownBinary s e).value = exact (s, e) := by
  obtain ⟨-, -, hvalue, -⟩ := divideBinary_spec (s * 10 ^ e.toNat) 0 6
  rw [shownBinary]
  split_ifs with h hzero
  · have hlower := exact_lower s h.1
    rw [Int.sub_zero, hvalue, hzero, Nat.sub_zero, pow_zero, Int.mul_one] at hlower
    exact hlower
  · have hlower := exact_lower s h.1
    rw [Int.sub_zero, hvalue, Nat.sub_zero] at hlower
    rw [← hlower]
    simp [Shown.value, Shown.multiplier, exact]
  · exact value_shownDecimal s e

theorem value_shownThousands (s e : Int) : (shownThousands s e).value = exact (s, e) := by
  have hlower := exact_lower s (show e / 3 * 3 ≤ e by omega)
  rw [shownThousands]
  split_ifs with h hzero
  · rw [← hlower]
    simp [Shown.value, Shown.multiplier, exact, hzero]
  · exact hlower
  · exact value_shownScientific s e

/-- Nothing is lost in what the canonical text shows. -/
theorem value_shown (q : Quantity) : q.shown.value = q.value := by
  rw [← exact_normal, shown]
  split_ifs with hzero
  · rw [exact_eq_zero.mpr hzero]
    simp [Shown.value]
  · cases q.format with
    | binarySI => exact value_shownBinary _ _
    | decimalSI => exact value_shownDecimal _ _
    | decimalExponent => exact value_shownThousands _ _

end KubeClient.Quantity
