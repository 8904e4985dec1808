import Mathlib.Data.Rat.Floor
import KubeClient.Proofs.QuantityLiteral
import KubeClient.Proofs.QuantityText

/-!
# What canonical texts show

* `Quantity.exponent_nonneg_of_integer` : an integer has no places behind the point;
* `Quantity.divideBinary_largest` : the largest binary suffix that divides a number;
* `Quantity.text_is_exact` : a text that is not rounded shows the amount exactly, with a suffix of
  the grammar, and no operation overflows;
* `Quantity.roundToNanos_eq` : rounding to nanos is rounding away from zero, to units that are never
  finer than `10 ^ 38` steps;
* `Quantity.text_of_subNano` : the text of an amount with places below the nanos.
-/

namespace KubeClient.Quantity

/-! ### Integral amounts -/

/-- The amount is an integer that a 128-bit word holds. -/
def IsWord (q : Quantity) : Prop :=
  ∃ n : Int, Fits 128 n ∧ q.value = n

/-- The amount is shown in nanos that it is rounded to. -/
def IsRounded (q : Quantity) : Prop :=
  q.normal.2 < -9 ∧ (q.format = .decimalSI ∨ q.format = .binarySI ∧ ¬ q.IsWord)

theorem exact_intCast (n : Int) : exact (n, 0) = n := by
  simp [exact]

theorem exponent_nonneg_of_integer {q : Quantity} {n : Int} (h : q.value = n) :
    0 ≤ q.normal.2 := by
  by_contra hneg
  rw [Int.not_le] at hneg
  have hsig : q.normal.1 = n * 10 ^ (0 - q.normal.2).toNat := by
    rw [← exact_inj (e := q.normal.2), exact_lower n hneg.le, exact_intCast, ← h]
    exact exact_normal q
  obtain ⟨k, hk⟩ : ∃ k, (0 - q.normal.2).toNat = k + 1 := ⟨(0 - q.normal.2).toNat - 1, by omega⟩
  have hmod : q.normal.1 % 10 = 0 := by
    rw [hsig, hk, pow_succ, ← Int.mul_assoc]
    exact Int.mul_emod_left _ _
  rcases isNormal_normal q with hzero | ⟨-, -, hmax⟩
  · rw [hzero] at hneg
    exact absurd hneg (by decide)
  · have hexp := hmax hmod
    unfold maxExponent at hexp
    omega

/-- An integer is its normal significand with as many zeros as the normal exponent says. -/
theorem eq_of_integer {q : Quantity} {n : Int} (h : q.value = n) :
    n = q.normal.1 * 10 ^ q.normal.2.toNat := by
  have hexp := exponent_nonneg_of_integer h
  have hlower := exact_lower q.normal.1 hexp
  rw [Int.sub_zero] at hlower
  rw [← exact_inj (e := 0), hlower, exact_intCast, ← h]
  exact (exact_normal q).symm

theorem isExactText_of_not_isRounded {q : Quantity} (h : ¬ q.IsRounded) : q.IsExactText := by
  intro hformat
  by_contra hlow
  rw [Int.not_le] at hlow
  refine h ⟨hlow, ?_⟩
  cases hq : q.format with
  | binarySI =>
    refine .inr ⟨rfl, ?_⟩
    rintro ⟨n, -, hn⟩
    have hexp := exponent_nonneg_of_integer hn
    omega
  | decimalSI => exact .inl rfl
  | decimalExponent => exact absurd hq hformat

/-! ### Binary suffixes -/

theorem divideBinary_largest {n : Int} {j : Nat} (hne : n ≠ 0) (hj : j ≤ 6)
    (hdvd : (1024 : Int) ^ j ∣ n) : j ≤ (divideBinary n 0 6).2 := by
  obtain ⟨-, -, hvalue, hend⟩ := divideBinary_spec n 0 6
  rcases hend with hend | hend | hend
  · omega
  · exact absurd hend hne
  · by_contra hlt
    rw [Nat.not_le] at hlt
    -- one more division would have gone
    have hstep : (1024 : Int) ^ (divideBinary n 0 6).2 * 1024 ∣
        1024 ^ (divideBinary n 0 6).2 * (divideBinary n 0 6).1 := by
      rw [← pow_succ, Int.mul_comm (1024 ^ _) (divideBinary n 0 6).1]
      rw [Nat.sub_zero] at hvalue
      rw [← hvalue]
      exact (pow_dvd_pow 1024 hlt).trans hdvd
    have hpow : (1024 : Int) ^ (divideBinary n 0 6).2 ≠ 0 := by positivity
    exact hend (Int.emod_eq_zero_of_dvd (Int.dvd_of_mul_dvd_mul_left hpow hstep))

theorem canonical_of_integer {q : Quantity} {n : Int} (hformat : q.format = .binarySI)
    (hvalue : q.value = n) (hfits : Fits 128 n) (hne : n ≠ 0) :
    q.canonical = Numeral.ofInt (divideBinary n 0 6).1 ++ binarySuffix (divideBinary n 0 6).2 := by
  have hn := eq_of_integer hvalue
  have hzero : q.normal.1 ≠ 0 := by
    intro hzero
    rw [hzero, Int.zero_mul] at hn
    exact hne hn
  rw [canonical]
  simp only [if_neg hzero, hformat]
  rw [binaryText?_of_fits hzero (exponent_nonneg_of_integer hvalue) (hn ▸ hfits), ← hn,
    Option.getD_some]

/-! ### Exact texts -/

theorem multiplier_shown (x : Shown) : x.multiplier = multiplier x.format x.power := by
  unfold Shown.multiplier multiplier
  cases x.format <;> rfl

theorem parts_of_ofParts? {s e : Int} {format : Format} {q : Quantity}
    (h : ofParts? s e format = some q) :
    q.significand = s ∧ q.exponent = e ∧ q.format = format := by
  unfold ofParts? at h
  split_ifs at h
  obtain rfl := Option.some.inj h
  exact ⟨rfl, rfl, rfl⟩

/-- The text of a constructed amount that is not rounded is an integer with a suffix of the grammar,
and both together stand for the amount. An integral amount other than zero that a word holds is
shown with the largest binary suffix that divides it, if that is its family. No operation on the way
to the text overflows. -/
theorem text_is_exact {s e : Int} {format : Format} (hs : Fits 128 s) (he : Fits 32 e) :
    ∃ q, ofParts? s e format = some q ∧ canonicalChecked q = .ok q.text.toList ∧
      (¬ q.IsRounded → ∃ (m : Int) (suffix : List Char) (family : Format) (power : Int),
        q.text = String.ofList (Numeral.ofInt m ++ suffix) ∧ IsSuffix suffix family power ∧
          m * multiplier family power = (s : ℚ) * 10 ^ e) ∧
      ∀ n : Int, format = .binarySI → (n : ℚ) = s * 10 ^ e → Fits 128 n → n ≠ 0 →
        ∃ (m : Int) (k : Nat), q.text = String.ofList (Numeral.ofInt m ++ binarySuffix k) ∧
          k ≤ 6 ∧ n = m * 1024 ^ k ∧ ∀ j ≤ 6, (1024 : Int) ^ j ∣ n → j ≤ k := by
  obtain ⟨q, hq⟩ : ∃ q, ofParts? s e format = some q := by
    rw [ofParts?, dif_pos hs, dif_pos he]
    exact ⟨_, rfl⟩
  obtain ⟨-, htext⟩ := text_eq_canonical hq
  obtain ⟨rfl, rfl, rfl⟩ := parts_of_ofParts? hq
  refine ⟨q, hq, ?_, fun hexact => ?_, fun n hbinary hn hfits hne => ?_⟩
  · rw [htext, String.toList_ofList]
    exact canonicalChecked_eq q
  · obtain ⟨suffix, hcanonical, -, hsuffix⟩ :=
      writes_canonical (isExactText_of_not_isRounded hexact)
    refine ⟨q.shown.mantissa, suffix, q.shown.format, q.shown.power, ?_,
      readSuffix_eq_some_iff.mp hsuffix, ?_⟩
    · rw [htext, hcanonical]
    · rw [← multiplier_shown]
      exact value_shown q
  · obtain ⟨-, hroom, hdivided, -⟩ := divideBinary_spec n 0 6
    refine ⟨_, _, ?_, hroom, hdivided, fun j hj hdvd => divideBinary_largest hne hj hdvd⟩
    rw [htext, canonical_of_integer hbinary hn.symm hfits hne]

theorem text_is_exact_least :
    ∃ q, ofParts? (-2 ^ 127) 0 .binarySI = some q ∧ canonicalChecked q = .ok q.text.toList ∧
      ¬ q.IsRounded ∧ q.text = "-147573952589676412928Ei" ∧
      ∃ (m : Int) (suffix : List Char) (family : Format) (power : Int),
        q.text = String.ofList (Numeral.ofInt m ++ suffix) ∧ IsSuffix suffix family power ∧
          m * multiplier family power = ((-2 ^ 127 : Int) : ℚ) * 10 ^ (0 : Int) := by
  obtain ⟨q, hq, hchecked, hexact, hbinary⟩ :=
    @text_is_exact (-2 ^ 127) 0 .binarySI (by decide) (by decide)
  have hshown : ¬ q.IsRounded := by
    rintro ⟨hlow, -⟩
    cases hq
    exact absurd hlow (by decide +kernel)
  obtain ⟨m, k, htext, hk, hvalue, hlargest⟩ :=
    hbinary (-2 ^ 127) rfl (by norm_num) (by decide) (by decide)
  obtain rfl : k = 6 := le_antisymm hk (hlargest 6 le_rfl (by decide))
  obtain rfl : m = -2 ^ 67 := by omega
  refine ⟨q, hq, hchecked, hshown, ?_, hexact hshown⟩
  rw [htext]
  decide

/-- Every binary suffix divides zero, and yet it is shown as a bare number. -/
theorem zero_is_bare :
    ∃ q, ofParts? 0 0 .binarySI = some q ∧ q.text = "0" ∧
      ¬ ∃ (m : Int) (k : Nat), q.text = String.ofList (Numeral.ofInt m ++ binarySuffix k) ∧
        k ≤ 6 ∧ 0 = m * 1024 ^ k ∧ ∀ j ≤ 6, (1024 : Int) ^ j ∣ 0 → j ≤ k := by
  refine ⟨_, rfl, rfl, ?_⟩
  rintro ⟨m, k, htext, hk, hvalue, hlargest⟩
  obtain rfl : k = 6 := le_antisymm hk (hlargest 6 le_rfl (Int.dvd_zero _))
  obtain rfl : m = 0 := by omega
  exact absurd htext (by decide)

/-! ### Rounding -/

theorem ceil_div (n t : Nat) (ht : 0 < t) :
    ⌈(n : ℚ) / t⌉ = (n / t : Nat) + if t ∣ n then 0 else (1 : Int) := by
  have hsign : (t : Int).sign = 1 := Int.sign_eq_one_of_pos (by omega)
  rw [Rat.ceil_natCast_div_natCast, Int.neg_ediv, hsign]
  simp only [Int.natCast_dvd_natCast]
  push_cast
  ring

/-- Rounding away from zero is rounding up the magnitude. -/
theorem tdiv_add_sign (s : Int) (t : Nat) (ht : 0 < t) :
    (if s % t = 0 then s.tdiv t else s.tdiv t + s.sign) = s.sign * ⌈(s.natAbs : ℚ) / t⌉ := by
  have hdvd : s % t = 0 ↔ t ∣ s.natAbs := by
    rw [← Int.dvd_iff_emod_eq_zero, Int.natCast_dvd]
  have htdiv : s.tdiv t = s.sign * (s.natAbs / t : Nat) := by
    obtain ⟨n, rfl | rfl⟩ := s.eq_nat_or_neg
    · rcases Nat.eq_zero_or_pos n with rfl | hpos
      · simp
      · rw [Int.sign_eq_one_of_pos (by omega), Int.natAbs_natCast, Int.one_mul, Int.ofNat_tdiv]
    · rcases Nat.eq_zero_or_pos n with rfl | hpos
      · simp
      · rw [Int.sign_eq_neg_one_of_neg (by omega), Int.natAbs_neg, Int.natAbs_natCast, Int.neg_tdiv,
          ← Int.ofNat_tdiv, Int.neg_one_mul]
  rw [ceil_div _ _ ht, htdiv]
  simp only [hdvd]
  split_ifs
  · rw [Int.add_zero]
  · rw [Int.mul_add, Int.mul_one]

theorem roundToNanos_eq (s e : Int) :
    roundToNanos s e = s.sign * ⌈(s.natAbs : ℚ) / (10 ^ min (-9 - e).toNat 38 : Nat)⌉ := by
  have hround := tdiv_add_sign s (10 ^ min (-9 - e).toNat 38) (Nat.pow_pos (by decide))
  rw [← hround, roundToNanos]
  push_cast
  rfl

/-- The divisor of an amount with places below the nanos is no power of ten that its exponent asks
for, but a smaller one, and its significand is larger than this. -/
def IsClamped (q : Quantity) : Prop :=
  q.normal.2 < -47 ∧ 10 ^ 38 < q.normal.1.natAbs

theorem sign_foldZeros (s e : Int) : (foldZeros s e).1.sign = s.sign := by
  fun_induction foldZeros s e with
  | case1 s e h ih =>
    rw [ih]
    rcases lt_or_gt_of_ne h.1 with hneg | hpos
    · rw [Int.sign_eq_neg_one_of_neg hneg, Int.sign_eq_neg_one_of_neg (by omega)]
    · rw [Int.sign_eq_one_of_pos hpos, Int.sign_eq_one_of_pos (by omega)]
  | case2 => rfl

theorem sign_normal (q : Quantity) : q.normal.1.sign = q.significand.sign := by
  rw [normal]
  split_ifs with h
  · rw [h]
  · exact sign_foldZeros _ _

/-- The nanos of an amount, whichever significand and exponent it is given by. -/
theorem nanos_normal (q : Quantity) :
    |(q.significand : ℚ)| * 10 ^ (q.exponent + 9) =
      (q.normal.1.natAbs : ℚ) * 10 ^ (q.normal.2 + 9) := by
  have hten : (10 : ℚ) ≠ 0 := by norm_num
  have hpow (e : Int) : |(10 : ℚ) ^ e| = 10 ^ e := abs_of_pos (zpow_pos (by norm_num) e)
  have hvalue := congrArg abs (exact_normal q)
  rw [value, exact, exact, abs_mul, abs_mul, hpow, hpow] at hvalue
  rw [Nat.cast_natAbs, Int.cast_abs, zpow_add₀ hten, zpow_add₀ hten, ← mul_assoc, ← mul_assoc,
    hvalue]

theorem canonical_of_subNano {q : Quantity} (hformat : q.format ≠ .decimalExponent)
    (hlow : q.normal.2 < -9) (hne : q.normal.1 ≠ 0) :
    q.canonical = Numeral.ofInt (roundToNanos q.normal.1 q.normal.2) ++ ['n'] := by
  have htext : decimalText q.normal.1 q.normal.2 =
      Numeral.ofInt (roundToNanos q.normal.1 q.normal.2) ++ ['n'] := by
    rw [decimalText, if_pos hlow]
  have hbinary : binaryText? q.normal.1 q.normal.2 = none := by
    rw [binaryText?, if_pos (by omega)]
  rw [canonical]
  simp only [if_neg hne]
  cases hq : q.format with
  | binarySI => rw [hbinary, Option.getD_none, htext]
  | decimalSI => exact htext
  | decimalExponent => exact absurd hq hformat

/-- Down to 38 places below the nanos, the divisor is the power of ten that the exponent asks
for. -/
theorem nanos_of_near {n : Nat} {e : Int} (hlow : e < -9) (hnear : -47 ≤ e) :
    (n : ℚ) / (10 ^ min (-9 - e).toNat 38 : Nat) = n * 10 ^ (e + 9) := by
  have hexp : e + 9 = -((-9 - e).toNat : Int) := by omega
  rw [min_eq_left (by omega), hexp, zpow_neg, zpow_natCast, Nat.cast_pow, div_eq_mul_inv,
    Nat.cast_ofNat]

/-- Further down, any amount is less than a nano. -/
theorem ceil_of_far {n : Nat} {e : Int} (hpos : 0 < n) (hn : n < 10 ^ 39) (hfar : e < -47) :
    ⌈(n : ℚ) * 10 ^ (e + 9)⌉ = 1 := by
  have hpow : (0 : ℚ) < 10 ^ (e + 9) := zpow_pos (by norm_num) _
  have hle : (10 : ℚ) ^ (e + 9) ≤ 10 ^ (-39 : Int) := zpow_le_zpow_right₀ (by norm_num) (by omega)
  have hn' : (n : ℚ) ≤ 10 ^ 39 := by exact_mod_cast hn.le
  rw [Int.ceil_eq_iff]
  constructor
  · have hnpos : (0 : ℚ) < n := by exact_mod_cast hpos
    have hprod := mul_pos hnpos hpow
    push_cast
    linarith
  · calc (n : ℚ) * 10 ^ (e + 9) ≤ 10 ^ 39 * 10 ^ (-39 : Int) := by gcongr
      _ = ((1 : Int) : ℚ) := by norm_num

/-- There the divisor is `10 ^ 38`, which the significands of a word reach and do not double. -/
theorem ceil_of_clamped {n : Nat} {e : Int} (hpos : 0 < n) (hn : n ≤ 2 ^ 127) (hfar : e < -47) :
    ⌈(n : ℚ) / (10 ^ min (-9 - e).toNat 38 : Nat)⌉ = if 10 ^ 38 < n then 2 else 1 := by
  rw [min_eq_right (by omega), ceil_div _ _ (by decide)]
  split_ifs <;> omega

/-- A constructed amount with places below the nanos, and with a decimal or a binary suffix, is
shown in nanos, rounded up to the next one away from zero. If its divisor is clamped, two nanos are
shown, although the next one is the first. -/
theorem text_of_subNano {s e : Int} {format : Format} {q : Quantity}
    (hq : ofParts? s e format = some q) (hs : s ≠ 0) (hformat : format ≠ .decimalExponent)
    (hlow : q.normal.2 < -9) :
    (¬ q.IsClamped → q.text =
      String.ofList (Numeral.ofInt (s.sign * ⌈|(s : ℚ)| * 10 ^ (e + 9)⌉) ++ ['n'])) ∧
    (q.IsClamped → ⌈|(s : ℚ)| * 10 ^ (e + 9)⌉ = 1 ∧
      q.text = String.ofList (Numeral.ofInt (s.sign * 2) ++ ['n'])) := by
  obtain ⟨-, htext⟩ := text_eq_canonical hq
  obtain ⟨rfl, rfl, rfl⟩ := parts_of_ofParts? hq
  have hsign := sign_normal q
  have hne : q.normal.1 ≠ 0 := by
    intro hzero
    rw [hzero, Int.sign_zero] at hsign
    exact hs (Int.sign_eq_zero_iff_zero.mp hsign.symm)
  have hpos : 0 < q.normal.1.natAbs := Int.natAbs_pos.mpr hne
  have hword : q.normal.1.natAbs ≤ 2 ^ 127 := by
    obtain ⟨hl, hh⟩ := (normal_ranges q).1
    omega
  rw [htext, canonical_of_subNano hformat hlow hne, roundToNanos_eq, hsign, nanos_normal]
  rcases Int.lt_or_le q.normal.2 (-47) with hfar | hnear
  · have hceil := ceil_of_far hpos (hword.trans_lt (by decide)) hfar
    rw [ceil_of_clamped hpos hword hfar, hceil]
    -- the exact ceiling is one nano; the clamped one is, unless the significand exceeds its divisor
    refine ⟨fun hclamped => ?_, fun hclamped => ⟨rfl, ?_⟩⟩
    · rw [if_neg fun hlt => hclamped ⟨hfar, hlt⟩]
    · rw [if_pos hclamped.2]
  · rw [nanos_of_near hlow hnear]
    exact ⟨fun _ => rfl, fun hclamped => absurd hclamped.1 (Int.not_lt.mpr hnear)⟩

theorem text_of_subNano_minusOneAndAHalf :
    ∃ q, ofParts? (-15) (-10) .binarySI = some q ∧ q.normal.2 < -9 ∧ ¬ q.IsClamped ∧
      q.text = "-2n" := by
  have hceil : ⌈|((-15 : Int) : ℚ)| * 10 ^ ((-10 : Int) + 9)⌉ = 2 := by
    rw [Int.ceil_eq_iff]
    norm_num
  let q : Quantity := ⟨-15, -10, .binarySI, none, by decide, by decide⟩
  have hq : ofParts? (-15) (-10) .binarySI = some q := rfl
  have hlow : q.normal.2 < -9 := by decide +kernel
  have hclamped : ¬ q.IsClamped := by
    unfold IsClamped
    decide +kernel
  obtain ⟨hrounded, -⟩ := text_of_subNano hq (by decide) (by decide) hlow
  refine ⟨q, hq, hlow, hclamped, (hrounded hclamped).trans ?_⟩
  rw [hceil]
  decide

/-- The amount `(2 ^ 127 - 1) * 10 ^ -48`, which is less than a nano. -/
def largestFar : Quantity :=
  (ofParts? (2 ^ 127 - 1) (-48) .decimalSI).get rfl

theorem text_largestFar :
    ofParts? (2 ^ 127 - 1) (-48) .decimalSI = some largestFar ∧ largestFar.text = "2n" ∧
      ⌈|((2 ^ 127 - 1 : Int) : ℚ)| * 10 ^ ((-48 : Int) + 9)⌉ = 1 := by
  refine ⟨rfl, by decide +kernel, ?_⟩
  rw [Int.ceil_eq_iff]
  norm_num

end KubeClient.Quantity
