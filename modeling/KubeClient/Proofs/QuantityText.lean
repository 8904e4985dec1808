import KubeClient.Proofs.QuantityCanonical

/-!
# Reading canonical texts of amounts

* `Quantity.parseChars_ofInt_append` : what a number with a suffix reads as;
* `Quantity.parseChars_of_writes` : its value, as long as it has no more digits than are allowed;
* `Quantity.parse_constructed` : which constructed amounts are read back from their texts.
-/

namespace KubeClient.Quantity

/-! ### A number with a suffix -/

theorem splitSign_ofInt (m : Int) (rest : List Char) :
    splitSign (Numeral.ofInt m ++ rest) = (decide (m < 0), Nat.toDigits 10 m.natAbs ++ rest) := by
  cases m with
  | ofNat n =>
    obtain ⟨c, cs, hcs, hc⟩ := Numeral.exists_toDigits n
    have hsign : decide (Int.ofNat n < 0) = false :=
      decide_eq_false (Int.not_lt.mpr (Int.natCast_nonneg n))
    rw [Numeral.ofInt, Int.natAbs_ofNat', hsign, hcs, List.cons_append, splitSign]
    · rintro _ ⟨⟩
      exact absurd hc (by decide)
    · rintro _ ⟨⟩
      exact absurd hc (by decide)
  | negSucc n =>
    have hsign : decide (Int.negSucc n < 0) = true := decide_eq_true (Int.negSucc_lt_zero n)
    rw [hsign]
    rfl

theorem splitNumber_toDigits (n : Nat) {suffix : List Char} (h : EndsNumber suffix) :
    splitNumber (Nat.toDigits 10 n ++ suffix) = (Nat.toDigits 10 n, [], suffix) := by
  have hdigits := Numeral.isDigits_toDigits n
  have hin : ∀ c ∈ Nat.toDigits 10 n, (c.isDigit || c == '.') = true := by
    intro c hc
    rw [hdigits c hc, Bool.true_or]
  have hpoint : ∀ c ∈ Nat.toDigits 10 n, (c != '.') = true := by
    intro c hc
    rw [bne_iff_ne]
    rintro rfl
    exact absurd (hdigits _ hc) (by decide)
  have hends : ∀ c ∈ suffix.head?, (c.isDigit || c == '.') = false := by
    intro c hc
    simp [h c hc]
  simp only [splitNumber, takeWhile_run hin hends, dropWhile_run hin hends,
    List.takeWhile_eq_self_iff.mpr hpoint, List.dropWhile_eq_nil_iff.mpr hpoint, List.drop_nil]

/-- Too many digits are noticed before the suffix is looked at. -/
theorem parseChars_ofInt_append (m : Int) {suffix : List Char} (h : EndsNumber suffix) :
    parseChars (Numeral.ofInt m ++ suffix) =
      if 10 ^ 30 ≤ m.natAbs then .error .manyDigits
      else match readSuffix suffix with
        | none => .error .unknownSuffix
        | some (.binarySI, power) =>
          ofLiteral (Numeral.ofInt m ++ suffix) (decide (m < 0))
            (m.natAbs * 1024 ^ power.toNat) 0 .binarySI
        | some (format, power) =>
          ofLiteral (Numeral.ofInt m ++ suffix) (decide (m < 0)) m.natAbs power format := by
  have hne : Numeral.ofInt m ++ suffix ≠ [] := by
    intro hnil
    have hsign := splitSign_ofInt m suffix
    rw [hnil] at hsign
    exact Nat.toDigits_ne_nil (List.append_eq_nil_iff.mp (Prod.mk.inj hsign).2.symm).1
  have hdigits : maxDigits < ((Nat.toDigits 10 m.natAbs).dropWhile (· == '0')).length ↔
      10 ^ 30 ≤ m.natAbs := by
    rw [← Nat.not_le, Numeral.length_dropWhile_toDigits_le_iff (by decide), Nat.not_lt]
    rfl
  -- the suffix decides what is read
  rcases hsuffix : readSuffix suffix with _ | ⟨_ | _ | _, power⟩ <;>
    simp only [parseChars, if_neg hne, splitSign_ofInt, splitNumber_toDigits _ h,
      Nat.toDigits_ne_nil, false_and, if_false, List.not_mem_nil, List.length_nil, Nat.add_zero,
      List.append_nil, Numeral.value_toDigits, Int.natCast_zero, Int.neg_zero, Int.sub_zero,
      gt_iff_lt, hdigits, hsuffix]

/-! ### Values -/

theorem ofLiteral_eq_ok {cs : List Char} {negative : Bool} {n : Nat} {e : Int} (format : Format)
    (hn : Fits 128 (n : Int)) (he : Fits 32 e) :
    ∃ q, ofLiteral cs negative n e format = .ok q ∧
      q.value = exact (if negative then -(n : Int) else n, e) := by
  rw [ofLiteral, dif_pos hn, dif_pos he]
  exact ⟨_, rfl, rfl⟩

/-- A magnitude with the sign of `m`. -/
theorem ite_neg_natAbs_mul (m : Int) (t : Nat) :
    (if decide (m < 0) = true then -((m.natAbs * t : Nat) : Int) else (m.natAbs * t : Nat)) =
      m * t := by
  rcases Int.lt_or_le m 0 with h | h
  · rw [decide_eq_true h, if_pos rfl, Int.natCast_mul, Int.ofNat_natAbs_of_nonpos h.le, Int.neg_mul,
      Int.neg_neg]
  · rw [decide_eq_false (Int.not_lt.mpr h), if_neg Bool.false_ne_true, Int.natCast_mul,
      Int.natAbs_of_nonneg h]

/-- Words hold the parts that a number with a suffix reads as. -/
def Shown.FitsWords (x : Shown) : Prop :=
  match x.format with
  | .binarySI => 0 ≤ x.power ∧ Fits 128 ((x.mantissa.natAbs * 1024 ^ x.power.toNat : Nat) : Int)
  | .decimalSI => Fits 32 x.power
  | .decimalExponent => Fits 32 x.power

theorem parseChars_of_writes {x : Shown} {cs : List Char} (h : x.Writes cs) (hfits : x.FitsWords)
    (hdigits : x.mantissa.natAbs < 10 ^ 30) :
    ∃ q, parseChars cs = .ok q ∧ q.value = x.value := by
  obtain ⟨m, format, power⟩ := x
  obtain ⟨suffix, rfl, hends, hsuffix⟩ := h
  simp only at hsuffix hdigits
  have hword : Fits 128 (m.natAbs : Int) := by
    unfold Fits
    omega
  have hsign := ite_neg_natAbs_mul m 1
  rw [Nat.mul_one, Int.natCast_one, Int.mul_one] at hsign
  rw [parseChars_ofInt_append m hends, if_neg (Nat.not_le.mpr hdigits), hsuffix]
  cases format with
  | binarySI =>
    obtain ⟨hpower, hproduct⟩ := hfits
    obtain ⟨q, hq, hvalue⟩ := ofLiteral_eq_ok .binarySI hproduct (e := 0) (by decide)
    refine ⟨q, hq, ?_⟩
    obtain ⟨n, rfl⟩ := Int.eq_ofNat_of_zero_le hpower
    rw [ite_neg_natAbs_mul] at hvalue
    rw [hvalue]
    simp [Shown.value, Shown.multiplier, exact]
  | decimalSI =>
    obtain ⟨q, hq, hvalue⟩ := ofLiteral_eq_ok .decimalSI hword hfits
    rw [hsign] at hvalue
    exact ⟨q, hq, hvalue⟩
  | decimalExponent =>
    obtain ⟨q, hq, hvalue⟩ := ofLiteral_eq_ok .decimalExponent hword hfits
    rw [hsign] at hvalue
    exact ⟨q, hq, hvalue⟩

theorem parseChars_of_writes_long {x : Shown} {cs : List Char} (h : x.Writes cs)
    (hdigits : 10 ^ 30 ≤ x.mantissa.natAbs) : parseChars cs = .error .manyDigits := by
  obtain ⟨suffix, rfl, hends, -⟩ := h
  rw [parseChars_ofInt_append x.mantissa hends, if_pos hdigits]

/-! ### Constructed amounts -/

/-- Only a power of two is the least number that a word holds, and it ends in no zero. -/
theorem fits_natAbs {s : Int} {n : Nat} (hs : s.natAbs < 10 ^ 28) (h : Fits 128 (s * 10 ^ n)) :
    Fits 128 ((s * 10 ^ n).natAbs : Int) := by
  obtain ⟨hlow, hhigh⟩ := h
  have hne : s * 10 ^ n ≠ -2 ^ 127 := by
    intro heq
    cases n with
    | zero =>
      rw [pow_zero, Int.mul_one] at heq
      omega
    | succ n =>
      rw [pow_succ, ← Int.mul_assoc] at heq
      omega
  unfold Fits
  omega

theorem fitsWords_shownDecimal {s e : Int} (hlow : -9 ≤ e) (he : Fits 32 e) :
    (shownDecimal s e).FitsWords := by
  rw [shownDecimal]
  split_ifs
  · have hshown : Fits 32 (shownExponent e) := by
      unfold Fits shownExponent at *
      omega
    exact hshown
  · exact he

theorem fitsWords_shownBinary {s e : Int} (hs : s.natAbs < 10 ^ 28) (hlow : -9 ≤ e)
    (he : Fits 32 e) : (shownBinary s e).FitsWords := by
  obtain ⟨-, -, hvalue, -⟩ := divideBinary_spec (s * 10 ^ e.toNat) 0 6
  rw [shownBinary]
  split_ifs with h hzero
  · exact fits_zero
  · refine ⟨Int.natCast_nonneg _, ?_⟩
    have hfits := fits_natAbs hs h.2
    rw [hvalue, Int.natAbs_mul, Int.natAbs_pow] at hfits
    exact hfits
  · exact fitsWords_shownDecimal hlow he

theorem fitsWords_shownThousands {s e : Int} (he : Fits 32 e) :
    (shownThousands s e).FitsWords := by
  rw [shownThousands]
  split_ifs with h
  · exact fits_zero
  · exact h.1
  · exact he

theorem fitsWords_shown {q : Quantity} (hs : q.significand.natAbs < 10 ^ 28)
    (hexact : q.IsExactText) : q.shown.FitsWords := by
  obtain ⟨-, he, hle⟩ := normal_ranges q
  rw [shown]
  split_ifs
  · exact fits_zero
  · cases hformat : q.format with
    | binarySI => exact fitsWords_shownBinary (by omega) (hexact (by simp [hformat])) he
    | decimalSI => exact fitsWords_shownDecimal (hexact (by simp [hformat])) he
    | decimalExponent => exact fitsWords_shownThousands he

/-! ### Numbers with too many digits -/

/-- At most two zeros are added on the way to a multiple of three. -/
theorem natAbs_mul_pow_lt {s : Int} {n : Nat} (hs : s.natAbs < 10 ^ 28) (hn : n ≤ 2) :
    (s * 10 ^ n).natAbs < 10 ^ 30 := by
  interval_cases n <;> omega

theorem power_nonneg_shownDecimal {s e : Int} (hs : s.natAbs < 10 ^ 28)
    (h : 10 ^ 30 ≤ (shownDecimal s e).mantissa.natAbs) : 0 ≤ (shownDecimal s e).power := by
  rw [shownDecimal] at h ⊢
  split_ifs at h ⊢ with hfits
  · by_contra hneg
    have hlt := natAbs_mul_pow_lt (n := (e - shownExponent e).toNat) hs (by
      simp only [shownExponent] at hneg ⊢
      omega)
    exact absurd h (Nat.not_le.mpr hlt)
  · have hlt : s.natAbs < 10 ^ 30 := by omega
    exact absurd h (Nat.not_le.mpr hlt)

theorem natAbs_shownThousands_lt {s e : Int} (hs : s.natAbs < 10 ^ 28) :
    (shownThousands s e).mantissa.natAbs < 10 ^ 30 := by
  have hlt := natAbs_mul_pow_lt (n := (e - e / 3 * 3).toNat) hs (by omega)
  rw [shownThousands]
  split_ifs
  · exact hlt
  · exact hlt
  · show s.natAbs < 10 ^ 30
    omega

theorem power_nonneg_shown {q : Quantity} (hs : q.significand.natAbs < 10 ^ 28)
    (h : 10 ^ 30 ≤ q.shown.mantissa.natAbs) : q.format ≠ .decimalExponent ∧ 0 ≤ q.shown.power := by
  obtain ⟨-, -, hle⟩ := normal_ranges q
  have hs' : q.normal.1.natAbs < 10 ^ 28 := by omega
  rw [shown] at h ⊢
  split_ifs at h ⊢
  · exact absurd h (by decide)
  · cases hformat : q.format with
    | binarySI =>
      refine ⟨by simp, ?_⟩
      simp only [hformat, shownBinary] at h ⊢
      split_ifs at h ⊢
      · exact le_refl _
      · exact Int.natCast_nonneg _
      · exact power_nonneg_shownDecimal hs' h
    | decimalSI =>
      simp only [hformat] at h ⊢
      exact ⟨by simp, power_nonneg_shownDecimal hs' h⟩
    | decimalExponent =>
      simp only [hformat] at h
      exact absurd h (Nat.not_le.mpr (natAbs_shownThousands_lt hs'))

theorem one_le_multiplier {x : Shown} (h : 0 ≤ x.power) : 1 ≤ x.multiplier := by
  unfold Shown.multiplier
  split
  · exact one_le_zpow₀ (by norm_num) h
  · exact one_le_zpow₀ (by norm_num) h
  · exact one_le_zpow₀ (by norm_num) h

theorem natAbs_mantissa_le_abs_value {x : Shown} (h : 0 ≤ x.power) :
    (x.mantissa.natAbs : ℚ) ≤ |x.value| := by
  have hmultiplier := one_le_multiplier h
  have habs : |x.multiplier| = x.multiplier := abs_of_nonneg (by linarith)
  rw [Shown.value, abs_mul, habs, Nat.cast_natAbs, Int.cast_abs]
  exact le_mul_of_one_le_right (abs_nonneg _) hmultiplier

theorem text_eq_canonical {s e : Int} {format : Format} {q : Quantity}
    (h : ofParts? s e format = some q) :
    q.significand = s ∧ q.text = String.ofList q.canonical := by
  unfold ofParts? at h
  split_ifs at h
  cases h
  exact ⟨rfl, rfl⟩

/-- A constructed amount of at most 28 digits that is not rounded in its text is read back as an
equal one, unless its text has more digits in front of the suffix than a literal may have. Such a
text is refused. Only amounts of a decimal or binary suffix that are at least `10 ^ 30` have one. -/
theorem parse_constructed {s e : Int} {format : Format} {q : Quantity}
    (hq : ofParts? s e format = some q) (hs : s.natAbs < 10 ^ 28) (hexact : q.IsExactText) :
    (q.shown.mantissa.natAbs < 10 ^ 30 →
      ∃ r, Quantity.parse q.text = .ok r ∧ (r == q) = true) ∧
    (10 ^ 30 ≤ q.shown.mantissa.natAbs →
      Quantity.parse q.text = .error ⟨"quantity", q.text, "too many digits"⟩ ∧
        q.format ≠ .decimalExponent ∧ 10 ^ 30 ≤ |q.value|) := by
  obtain ⟨rfl, htext⟩ := text_eq_canonical hq
  have hwrites := writes_canonical hexact
  have hchars : q.text.toList = q.canonical := by rw [htext, String.toList_ofList]
  refine ⟨fun hdigits => ?_, fun hdigits => ?_⟩
  · obtain ⟨r, hr, hvalue⟩ := parseChars_of_writes hwrites (fitsWords_shown hs hexact) hdigits
    refine ⟨r, ?_, ?_⟩
    · rw [Quantity.parse, hchars, hr]
      rfl
    · rw [beq_iff_value_eq, hvalue, value_shown]
  · obtain ⟨hformat, hpower⟩ := power_nonneg_shown hs hdigits
    refine ⟨?_, hformat, ?_⟩
    · rw [Quantity.parse, hchars, parseChars_of_writes_long hwrites hdigits]
      rfl
    · calc (10 ^ 30 : ℚ) ≤ q.shown.mantissa.natAbs := by exact_mod_cast hdigits
        _ ≤ |q.shown.value| := natAbs_mantissa_le_abs_value hpower
        _ = |q.value| := by rw [value_shown]

/-- The amount `15 * 10 ^ 8`, which is written `1500M`. -/
def fifteenHundredMega : Quantity :=
  ⟨15, 8, .decimalSI, none, by decide, by decide⟩

theorem parse_constructed_fifteenHundredMega :
    ∃ r, Quantity.parse fifteenHundredMega.text = .ok r ∧ (r == fifteenHundredMega) = true :=
  (parse_constructed (show ofParts? 15 8 .decimalSI = some fifteenHundredMega from rfl) (by decide)
    (by unfold IsExactText; decide +kernel)).1 (by decide +kernel)

/-- The amount `10 ^ 48`, which the decimal suffixes show with thirty zeros. -/
def tenPow48 : Quantity :=
  (ofParts? 1 48 .decimalSI).get rfl

theorem parse_tenPow48 :
    ofParts? 1 48 .decimalSI = some tenPow48 ∧
      Quantity.parse tenPow48.text =
        .error ⟨"quantity", "1000000000000000000000000000000E", "too many digits"⟩ := by
  have htext : tenPow48.text = "1000000000000000000000000000000E" := by decide +kernel
  refine ⟨rfl, ?_⟩
  rw [htext]
  rfl

end KubeClient.Quantity
