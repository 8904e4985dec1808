import KubeClient.Proofs.QuantityCanonical

/-!
# Canonical texts on machine words

The canonical text of an amount once more, now as a machine goes about it: every operation comes
with the word that has to hold its result, and one whose result does not fit ends the computation.
Operations that the program checks itself, such as `word?`, answer as before.

* `Word.signed`, `Word.unsigned`, `Word.count` : the check of one operation;
* `Quantity.fits_tdiv`, `Quantity.fits_tmod` : quotients and remainders fit;
* `Quantity.canonicalChecked_eq` : no operation overflows, and the text is the canonical one.
-/

namespace KubeClient

/-- The result of an operation is out of the range of its word. -/
structure Overflow where
  result : Int
  deriving Repr

namespace Word

/-- The result of an operation on signed words of `b` bits. -/
def signed (b : Nat) (n : Int) : Except Overflow Unit :=
  if Fits b n then .ok () else .error ⟨n⟩

/-- The result of an operation on unsigned words of `b` bits. -/
def unsigned (b : Nat) (n : Int) : Except Overflow Unit :=
  if 0 ≤ n ∧ n < 2 ^ b then .ok () else .error ⟨n⟩

/-- The number of some characters of a text that is in memory. -/
def count (text : List Char) (n : Nat) : Except Overflow Unit :=
  if n ≤ text.length then .ok () else .error ⟨n⟩

theorem ok_bind {α β : Type} (a : α) (f : α → Except Overflow β) :
    ((Except.ok a : Except Overflow α) >>= f) = f a :=
  rfl

theorem signed_of_fits {b : Nat} {n : Int} (h : Fits b n) : signed b n = .ok () :=
  if_pos h

theorem unsigned_of_range {b : Nat} {n : Int} (h : 0 ≤ n ∧ n < 2 ^ b) : unsigned b n = .ok () :=
  if_pos h

theorem count_of_le {text : List Char} {n : Nat} (h : n ≤ text.length) : count text n = .ok () :=
  if_pos h

end Word

namespace Quantity

open Word

/-! ### Rendering -/

/-- Folds trailing zeros; the program itself checks that the exponent has a successor. -/
def foldZerosChecked (s e : Int) : Except Overflow (Int × Int) := do
  signed 128 (s.tmod 10)
  if s ≠ 0 ∧ s.tmod 10 = 0 ∧ Fits 32 (e + 1) then
    signed 128 (s.tdiv 10)
    foldZerosChecked (s.tdiv 10) (e + 1)
  else return (s, e)
termination_by s.natAbs
decreasing_by
  rw [Int.natAbs_tdiv]
  exact Nat.div_lt_self (by omega) (by decide)

theorem tmod_eq_zero_iff {s t : Int} : s.tmod t = 0 ↔ s % t = 0 := by
  rw [← Int.dvd_iff_tmod_eq_zero, Int.dvd_iff_emod_eq_zero]

theorem fits_tmod {b : Nat} {t : Int} (s : Int) (ht : 0 < t) (h : Fits b t) :
    Fits b (s.tmod t) := by
  have hlow := Int.lt_tmod_of_pos s ht
  have hhigh := Int.tmod_lt_of_pos s ht
  unfold Fits at *
  constructor <;> omega

/-- Division by a positive number stays in the word. -/
theorem fits_tdiv {b : Nat} {s t : Int} (ht : 0 < t) (h : Fits b s) : Fits b (s.tdiv t) := by
  have hle : (s.tdiv t).natAbs ≤ s.natAbs := by
    rw [Int.natAbs_tdiv]
    exact Nat.div_le_self _ _
  unfold Fits at *
  rcases Int.le_total 0 s with hs | hs
  · have hsign := Int.tdiv_nonneg hs ht.le
    omega
  · have hsign := Int.tdiv_nonneg (show 0 ≤ -s by omega) ht.le
    rw [Int.neg_tdiv] at hsign
    omega

theorem foldZerosChecked_eq {s e : Int} (hs : Fits 128 s) (he : Fits 32 e) :
    foldZerosChecked s e = .ok (foldZeros s e) := by
  fun_induction foldZeros s e with
  | case1 s e h ih =>
    obtain ⟨hne, hmod, hlt⟩ := h
    have hdiv : s.tdiv 10 = s / 10 := Int.tdiv_eq_ediv_of_dvd (Int.dvd_of_emod_eq_zero hmod)
    have he' : Fits 32 (e + 1) := by
      unfold Fits at *
      omega
    have hs' : Fits 128 (s / 10) := hdiv ▸ fits_tdiv (by decide) hs
    have hgo : s ≠ 0 ∧ s.tmod 10 = 0 ∧ Fits 32 (e + 1) := ⟨hne, tmod_eq_zero_iff.mpr hmod, he'⟩
    rw [foldZerosChecked, signed_of_fits (fits_tmod s (by decide) (by decide)), hdiv,
      signed_of_fits hs', ← ih hs' he']
    simp only [bind, Except.bind, if_pos hgo]
  | case2 s e h =>
    have hstop : ¬ (s ≠ 0 ∧ s.tmod 10 = 0 ∧ Fits 32 (e + 1)) := by
      rintro ⟨hne, hmod, hfits⟩
      refine h ⟨hne, tmod_eq_zero_iff.mp hmod, ?_⟩
      unfold Fits at hfits
      omega
    rw [foldZerosChecked, signed_of_fits (fits_tmod s (by decide) (by decide))]
    simp only [bind, Except.bind, if_neg hstop, pure, Except.pure]

/-- Lowers the exponent to a multiple of three. -/
def toThousandsChecked (s e : Int) : Except Overflow (Option (Int × Int)) := do
  signed 32 (e / 3)
  if Fits 32 (e / 3 * 3) then
    signed 32 (e - e / 3 * 3)
    signed 128 (10 ^ (e - e / 3 * 3).toNat)
    return (word? (s * 10 ^ (e - e / 3 * 3).toNat)).map (·, e / 3 * 3)
  else return none

theorem toThousandsChecked_eq {s e : Int} (he : Fits 32 e) :
    toThousandsChecked s e = .ok (toThousands? s e) := by
  have hthird : Fits 32 (e / 3) := by
    unfold Fits at *
    omega
  have hshift : Fits 32 (e - e / 3 * 3) := by
    unfold Fits
    omega
  have hpow : Fits 128 (10 ^ (e - e / 3 * 3).toNat) := by
    obtain ⟨n, hn, hle⟩ : ∃ n, (e - e / 3 * 3).toNat = n ∧ n ≤ 2 := ⟨_, rfl, by omega⟩
    rw [hn]
    interval_cases n <;> decide
  rw [toThousandsChecked, toThousands?, signed_of_fits hthird, signed_of_fits hshift,
    signed_of_fits hpow, Int.fdiv_eq_ediv_of_nonneg e (by decide : (0 : Int) ≤ 3)]
  by_cases h : Fits 32 (e / 3 * 3)
  · rw [if_pos h, if_pos h]
    rfl
  · rw [if_neg h, if_neg h]
    rfl

theorem fits_of_toThousands? {s e m f : Int} (h : toThousands? s e = some (m, f)) : Fits 32 f := by
  rw [toThousands?] at h
  split_ifs at h with hfits
  obtain ⟨m', -, hm⟩ := Option.map_eq_some_iff.mp h
  obtain ⟨-, rfl⟩ := Prod.mk.inj hm
  exact hfits

/-- Multiplies by 1000 until the exponent has a suffix. -/
def lowerToSuffixChecked (s e : Int) : Except Overflow (Option (Int × Int)) :=
  if 18 < e then
    match word? (s * 1000) with
    | some grown => do
      signed 32 (e - 3)
      lowerToSuffixChecked grown (e - 3)
    | none => return none
  else return some (s, e)
termination_by e.toNat
decreasing_by omega

theorem lowerToSuffixChecked_eq {s e : Int} (he : Fits 32 e) :
    lowerToSuffixChecked s e = .ok (lowerToSuffix? s e) := by
  fun_induction lowerToSuffix? s e with
  | case1 s e hlt grown hgrown ih =>
    have he' : Fits 32 (e - 3) := by
      unfold Fits at *
      omega
    rw [lowerToSuffixChecked, if_pos hlt, hgrown]
    simp only [signed_of_fits he', bind, Except.bind, ih he']
  | case2 s e hlt hnone =>
    rw [lowerToSuffixChecked, if_pos hlt, hnone]
    rfl
  | case3 s e hlt =>
    rw [lowerToSuffixChecked, if_neg hlt]
    rfl

/-- The nearest nano amount away from zero. -/
def roundToNanosChecked (s e : Int) : Except Overflow Int := do
  signed 32 (-9 - e)
  signed 128 (10 ^ min (-9 - e).toNat 38)
  signed 128 (s.tdiv (10 ^ min (-9 - e).toNat 38))
  signed 128 (s.tmod (10 ^ min (-9 - e).toNat 38))
  if s.tmod (10 ^ min (-9 - e).toNat 38) = 0 then
    return s.tdiv (10 ^ min (-9 - e).toNat 38)
  else
    signed 128 (s.tdiv (10 ^ min (-9 - e).toNat 38) + s.sign)
    return s.tdiv (10 ^ min (-9 - e).toNat 38) + s.sign

theorem roundToNanosChecked_eq {s e : Int} (hs : Fits 128 s) (he : Fits 32 e) (hlow : e < -9) :
    roundToNanosChecked s e = .ok (roundToNanos s e) := by
  have hplaces : Fits 32 (-9 - e) := by
    unfold Fits at *
    omega
  obtain ⟨n, hn, hpos, hle⟩ : ∃ n, min (-9 - e).toNat 38 = n ∧ 1 ≤ n ∧ n ≤ 38 :=
    ⟨_, rfl, by omega, by omega⟩
  have hten : (10 : Int) ≤ 10 ^ n := by
    calc (10 : Int) = 10 ^ 1 := rfl
      _ ≤ 10 ^ n := pow_le_pow_right₀ (by decide) hpos
  have hpow : Fits 128 ((10 : Int) ^ n) := by
    have hmax : (10 : Int) ^ n ≤ 10 ^ 38 := pow_le_pow_right₀ (by decide) hle
    unfold Fits
    omega
  have hdiv := fits_tdiv (by omega : (0 : Int) < 10 ^ n) hs
  have hmod := fits_tmod s (by omega : (0 : Int) < 10 ^ n) hpow
  -- the quotient is far from the ends of the word, so that one step more does not leave it
  have hsum : Fits 128 (s.tdiv (10 ^ n) + s.sign) := by
    have hle : (s.tdiv (10 ^ n)).natAbs ≤ s.natAbs / 10 := by
      rw [Int.natAbs_tdiv]
      exact Nat.div_le_div_left (by omega) (by decide)
    have hsign : s.sign.natAbs ≤ 1 := by
      rcases Int.sign_trichotomy s with h | h | h <;> rw [h] <;> decide
    unfold Fits at *
    omega
  rw [roundToNanosChecked, roundToNanos, hn, signed_of_fits hplaces, signed_of_fits hpow,
    signed_of_fits hdiv, signed_of_fits hmod, signed_of_fits hsum]
  by_cases h : s % 10 ^ n = 0
  · rw [if_pos h, if_pos (tmod_eq_zero_iff.mpr h)]
    rfl
  · rw [if_neg h, if_neg (tmod_eq_zero_iff.not.mpr h)]
    rfl

/-- With a decimal suffix, or in scientific notation. -/
def decimalTextChecked (s e : Int) : Except Overflow (List Char) := do
  if e < -9 then
    return Numeral.ofInt (← roundToNanosChecked s e) ++ ['n']
  else
    match ← toThousandsChecked s e with
    | none => return scientific s e
    | some (m, f) =>
      match ← lowerToSuffixChecked m f with
      | none => return scientific s e
      | some (m, f) => return Numeral.ofInt m ++ decimalSuffix f

theorem decimalTextChecked_eq {s e : Int} (hs : Fits 128 s) (he : Fits 32 e) :
    decimalTextChecked s e = .ok (decimalText s e) := by
  rw [decimalTextChecked, decimalText]
  split_ifs with hlow
  · rw [roundToNanosChecked_eq hs he hlow]
    rfl
  · rw [toThousandsChecked_eq he]
    rcases hthousands : toThousands? s e with _ | ⟨m, f⟩
    · rfl
    · have hlower := lowerToSuffixChecked_eq (s := m) (fits_of_toThousands? hthousands)
      simp only [bind, Except.bind, hlower, Option.bind_some]
      rcases lowerToSuffix? m f with _ | ⟨m, f⟩ <;> rfl

/-- Divides by 1024 while it goes, at most `room` times; counts the divisions from `n`. -/
def divideBinaryChecked (value : Int) (n : Nat) : Nat → Except Overflow (Int × Nat)
  | 0 => return (value, n)
  | room + 1 => do
    signed 128 (value.tmod 1024)
    if value ≠ 0 ∧ value.tmod 1024 = 0 then
      signed 128 (value.tdiv 1024)
      unsigned 64 (n + 1)
      divideBinaryChecked (value.tdiv 1024) (n + 1) room
    else return (value, n)

theorem divideBinaryChecked_eq {value : Int} {n room : Nat} (hvalue : Fits 128 value)
    (hn : n + room ≤ 6) : divideBinaryChecked value n room = .ok (divideBinary value n room) := by
  induction room generalizing value n with
  | zero => rfl
  | succ room ih =>
    have hrest : signed 128 (value.tmod 1024) = .ok () :=
      signed_of_fits (fits_tmod value (by decide) (by decide))
    have hcount : unsigned 64 ((n : Int) + 1) = .ok () := unsigned_of_range (by omega)
    rw [divideBinaryChecked, divideBinary, hrest, hcount]
    by_cases hgo : value ≠ 0 ∧ value % 1024 = 0
    · have hdiv : value.tdiv 1024 = value / 1024 :=
        Int.tdiv_eq_ediv_of_dvd (Int.dvd_of_emod_eq_zero hgo.2)
      have hfits : Fits 128 (value / 1024) := hdiv ▸ fits_tdiv (by decide) hvalue
      rw [if_pos hgo, hdiv, signed_of_fits hfits, ← ih hfits (by omega)]
      exact if_pos ⟨hgo.1, tmod_eq_zero_iff.mpr hgo.2⟩
    · rw [if_neg hgo]
      exact if_neg (by rwa [tmod_eq_zero_iff])

/-- With the largest binary suffix that divides it. -/
def binaryTextChecked (s e : Int) : Except Overflow (Option (List Char)) :=
  if e < 0 then return none
  else match (powTen? e.toNat).bind fun scale => word? (s * scale) with
    | none => return none
    | some value => do
      let (m, n) ← divideBinaryChecked value 0 6
      return some (Numeral.ofInt m ++ binarySuffix n)

theorem fits_of_word? {n m : Int} (h : word? n = some m) : Fits 128 m := by
  rw [word?] at h
  split_ifs at h with hfits
  exact Option.some.inj h ▸ hfits

theorem binaryTextChecked_eq (s e : Int) : binaryTextChecked s e = .ok (binaryText? s e) := by
  rw [binaryTextChecked, binaryText?]
  by_cases hneg : e < 0
  · rw [if_pos hneg, if_pos hneg]
    rfl
  · rw [if_neg hneg, if_neg hneg]
    cases hscale : powTen? e.toNat with
    | none => rfl
    | some scale =>
      cases hvalue : word? (s * scale) with
      | none => simp only [bind, Option.bind_some, hvalue, Option.bind_none, pure, Except.pure]
      | some value =>
        have hdivide : divideBinaryChecked value 0 6 = .ok (divideBinary value 0 6) :=
          divideBinaryChecked_eq (fits_of_word? hvalue) le_rfl
        simp only [bind, Option.bind_some, hvalue, hdivide, Except.bind, pure, Except.pure]

/-- In scientific notation, with an exponent that is a multiple of three. -/
def exponentTextChecked (s e : Int) : Except Overflow (List Char) := do
  match ← toThousandsChecked s e with
  | some (m, 0) => return Numeral.ofInt m
  | some (m, f) => return scientific m f
  | none => return scientific s e

theorem exponentTextChecked_eq {s e : Int} (he : Fits 32 e) :
    exponentTextChecked s e = .ok (exponentText s e) := by
  rw [exponentTextChecked, exponentText, toThousandsChecked_eq he]
  rcases toThousands? s e with _ | ⟨m, (_ | f) | f⟩ <;> rfl

/-- Trailing zeros folded, and `(0, 0)` for zero. -/
def normalChecked (q : Quantity) : Except Overflow (Int × Int) :=
  if q.significand = 0 then return (0, 0) else foldZerosChecked q.significand q.exponent

theorem normalChecked_eq (q : Quantity) : normalChecked q = .ok q.normal := by
  rw [normalChecked, normal, foldZerosChecked_eq q.significand_fits q.exponent_fits]
  split_ifs <;> rfl

/-- The canonical text of an amount. -/
def canonicalChecked (q : Quantity) : Except Overflow (List Char) := do
  let (s, e) ← normalChecked q
  if s = 0 then return ['0']
  else match q.format with
    | .binarySI =>
      match ← binaryTextChecked s e with
      | some cs => return cs
      | none => decimalTextChecked s e
    | .decimalSI => decimalTextChecked s e
    | .decimalExponent => exponentTextChecked s e

/-- No operation on the way to the canonical text of an amount leaves its word. -/
theorem canonicalChecked_eq (q : Quantity) : canonicalChecked q = .ok q.canonical := by
  obtain ⟨hs, he, -⟩ := normal_ranges q
  rw [canonicalChecked, canonical, normalChecked_eq]
  simp only [bind, Except.bind]
  split_ifs with hzero
  · rfl
  · cases q.format with
    | binarySI =>
      simp only [binaryTextChecked_eq, decimalTextChecked_eq hs he]
      cases binaryText? q.normal.1 q.normal.2 <;> rfl
    | decimalSI => exact decimalTextChecked_eq hs he
    | decimalExponent => exact exponentTextChecked_eq he

end Quantity
end KubeClient
