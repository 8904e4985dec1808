import Mathlib.Data.List.TakeWhile
import Mathlib.Tactic.IntervalCases
import KubeClient.Text.FixedPoint

/-!
# Digits

What the readers of numerals make of the texts that the writers produce.

* `takeWhile_run`, `dropWhile_run` : a run, and what follows it;
* `Numeral.IsDigits` : a run of digits;
* `Numeral.value_append`, `Numeral.value_padded` : values of runs;
* `Numeral.spanDigits_of_isDigits` : the run in front ends where something else begins;
* `Numeral.length_dropWhile_toDigits_le_iff` : the number of digits;
* `Numeral.toInt?_ofInt` : the numeral of an integer reads as this integer;
* `FixedPoint.fraction`, `FixedPoint.text_eq`, `FixedPoint.value_fraction` : the digits behind the
  point, and what they stand for.
-/

namespace KubeClient

/-! ### Runs -/

section Run

variable {α : Type} {p : α → Bool} {run rest : List α}

/-- A run is taken as a whole if what follows it does not belong to it. -/
theorem takeWhile_run (hrun : ∀ c ∈ run, p c = true) (hrest : ∀ c ∈ rest.head?, p c = false) :
    (run ++ rest).takeWhile p = run := by
  rw [List.takeWhile_append_of_pos hrun]
  cases rest with
  | nil => simp
  | cons c cs => simp [hrest c rfl]

theorem dropWhile_run (hrun : ∀ c ∈ run, p c = true) (hrest : ∀ c ∈ rest.head?, p c = false) :
    (run ++ rest).dropWhile p = rest := by
  rw [List.dropWhile_append_of_pos hrun]
  cases rest with
  | nil => rfl
  | cons c cs => simp [hrest c rfl]

end Run

namespace Numeral

/-- Nothing but digits. -/
def IsDigits (ds : List Char) : Prop :=
  ∀ c ∈ ds, c.isDigit = true

theorem isDigits_toDigits (n : Nat) : IsDigits (Nat.toDigits 10 n) :=
  fun _ h => Nat.isDigit_of_mem_toDigits (by decide) (by decide) h

theorem isDigits_padded (width n : Nat) : IsDigits (padded width n) := by
  intro c hc
  rcases List.mem_append.mp hc with hc | hc
  · rw [List.eq_of_mem_replicate hc]
    rfl
  · exact isDigits_toDigits n c hc

/-- A text that cannot go on with a digit. -/
def EndsRun (rest : List Char) : Prop :=
  ∀ c ∈ rest.head?, c.isDigit = false

theorem endsRun_cons {c : Char} (h : c.isDigit = false) (cs : List Char) : EndsRun (c :: cs) := by
  simpa [EndsRun] using h

theorem spanDigits_of_isDigits {ds rest : List Char} (hds : IsDigits ds) (hrest : EndsRun rest) :
    spanDigits (ds ++ rest) = (ds, rest) := by
  rw [spanDigits, takeWhile_run hds hrest, dropWhile_run hds hrest]

/-! ### Values -/

theorem value_cons (c : Char) (ds : List Char) :
    value (c :: ds) = (c.toNat - 48) * 10 ^ ds.length + value ds := by
  rw [value, Nat.ofDigitChars_cons, Nat.ofDigitChars_eq_ofDigitChars_zero, value]
  simp [Nat.mul_comm]

theorem value_append (ds es : List Char) :
    value (ds ++ es) = value ds * 10 ^ es.length + value es := by
  rw [value, Nat.ofDigitChars_append, Nat.ofDigitChars_eq_ofDigitChars_zero, value, value,
    Nat.mul_comm]

theorem value_replicate_zero (n : Nat) : value (List.replicate n '0') = 0 := by
  simp [value]

theorem value_padded (width n : Nat) : value (padded width n) = n := by
  rw [padded, value_append, value_replicate_zero, value_toDigits, Nat.zero_mul, Nat.zero_add]

/-- A number that is below `10 ^ width` is padded to this width. -/
theorem length_padded {width n : Nat} (hwidth : 0 < width) (hn : n < 10 ^ width) :
    (padded width n).length = width := by
  have hlen := (Nat.length_toDigits_le_iff (by decide) hwidth).mpr hn
  rw [padded, List.length_append, List.length_replicate]
  omega

/-! ### Zeros in front -/

theorem head?_toDigits_ne {n : Nat} (h : 0 < n) : (Nat.toDigits 10 n).head? ≠ some '0' := by
  induction n using Nat.strongRecOn with
  | ind n ih =>
    rw [Nat.toDigits_eq_if (by decide)]
    split_ifs with hlt
    · interval_cases n <;> decide
    · rw [List.head?_append, Option.or_of_isSome (by simp)]
      exact ih (n / 10) (by omega) (by omega)

/-- The number of digits, not counting zeros in front, tells the size of a number. -/
theorem length_dropWhile_toDigits_le_iff {n width : Nat} (hwidth : 0 < width) :
    ((Nat.toDigits 10 n).dropWhile (· == '0')).length ≤ width ↔ n < 10 ^ width := by
  rcases Nat.eq_zero_or_pos n with rfl | hpos
  · simp
  · rw [← Nat.length_toDigits_le_iff (by decide) hwidth]
    have hhead := head?_toDigits_ne hpos
    obtain ⟨c, cs, hcs⟩ := List.exists_cons_of_ne_nil (Nat.toDigits_ne_nil (n := n) (b := 10))
    rw [hcs] at hhead ⊢
    rw [List.dropWhile_cons_of_neg (by simpa using hhead)]

/-! ### Readers -/

theorem toNat?_toDigits {bound n : Nat} (h : n < bound) :
    toNat? bound (Nat.toDigits 10 n) = some n := by
  have hdigits : (Nat.toDigits 10 n).all Char.isDigit = true :=
    List.all_eq_true.mpr (isDigits_toDigits n)
  simp [toNat?, hdigits, value_toDigits, h]

theorem exists_toDigits (n : Nat) : ∃ c cs, Nat.toDigits 10 n = c :: cs ∧ c.isDigit = true := by
  obtain ⟨c, cs, hcs⟩ := List.exists_cons_of_ne_nil (Nat.toDigits_ne_nil (n := n) (b := 10))
  refine ⟨c, cs, hcs, isDigits_toDigits n c ?_⟩
  rw [hcs]
  exact List.mem_cons_self

theorem toInt?_toDigits (b n : Nat) :
    toInt? b (Nat.toDigits 10 n) = (toNat? (2 ^ (b - 1)) (Nat.toDigits 10 n)).map Int.ofNat := by
  obtain ⟨c, cs, hcs, hc⟩ := exists_toDigits n
  rw [hcs, toInt?]
  · rintro _ ⟨⟩
    exact absurd hc (by decide)
  · rintro _ ⟨⟩
    exact absurd hc (by decide)

theorem toInt?_ofInt {b : Nat} {n : Int} (h : Fits b n) : toInt? b (ofInt n) = some n := by
  obtain ⟨hlow, hhigh⟩ := h
  cases n with
  | ofNat n =>
    have hn : n < 2 ^ (b - 1) := by
      rw [Int.ofNat_eq_natCast] at hhigh
      exact_mod_cast hhigh
    rw [ofInt, toInt?_toDigits, toNat?_toDigits hn]
    rfl
  | negSucc n =>
    have hn : n + 1 < 2 ^ (b - 1) + 1 := by
      have hpow : ((2 ^ (b - 1) : Nat) : Int) = 2 ^ (b - 1) := by push_cast; rfl
      omega
    rw [ofInt, toInt?, toNat?_toDigits hn]
    rfl

end Numeral

namespace FixedPoint

open Numeral

/-! ### Zeros at the end -/

theorem exists_trimZeros (ds : List Char) :
    ∃ n, ds = trimZeros ds ++ List.replicate n '0' := by
  have hsplit := List.takeWhile_append_dropWhile (p := (· == '0')) (l := ds.reverse)
  obtain ⟨n, hn⟩ : ∃ n, ds.reverse.takeWhile (· == '0') = List.replicate n '0' := by
    refine ⟨_, List.eq_replicate_iff.mpr ⟨rfl, fun c hc => ?_⟩⟩
    simpa using List.mem_takeWhile_imp hc
  refine ⟨n, ?_⟩
  rw [hn] at hsplit
  have hds := congrArg List.reverse hsplit
  rw [List.reverse_append, List.reverse_replicate, List.reverse_reverse] at hds
  exact hds.symm

theorem isDigits_trimZeros {ds : List Char} (h : IsDigits ds) : IsDigits (trimZeros ds) := by
  obtain ⟨n, hn⟩ := exists_trimZeros ds
  exact fun c hc => h c (hn ▸ List.mem_append_left _ hc)

theorem length_trimZeros_le (ds : List Char) : (trimZeros ds).length ≤ ds.length := by
  obtain ⟨n, hn⟩ := exists_trimZeros ds
  have := congrArg List.length hn
  rw [List.length_append] at this
  omega

/-- Zeros at the end only count as places. -/
theorem value_trimZeros (ds : List Char) :
    value ds = value (trimZeros ds) * 10 ^ (ds.length - (trimZeros ds).length) := by
  obtain ⟨n, hn⟩ := exists_trimZeros ds
  have hlen : ds.length = (trimZeros ds).length + n := by
    simpa using congrArg List.length hn
  have hvalue := congrArg value hn
  rw [value_append, value_replicate_zero, List.length_replicate, Nat.add_zero] at hvalue
  rw [hlen, Nat.add_sub_cancel_left]
  exact hvalue

/-! ### The fraction -/

/-- The digits behind the point of `n / 10 ^ places`. -/
def fraction (n places : Nat) : List Char :=
  if n % 10 ^ places = 0 then [] else trimZeros (padded places (n % 10 ^ places))

theorem length_padded_mod {n places : Nat} (h : n % 10 ^ places ≠ 0) :
    (padded places (n % 10 ^ places)).length = places := by
  refine length_padded (Nat.pos_of_ne_zero ?_) (Nat.mod_lt n (Nat.pow_pos (by decide)))
  rintro rfl
  exact h (Nat.mod_one n)

theorem isDigits_fraction (n places : Nat) : IsDigits (fraction n places) := by
  unfold fraction
  split
  · simp [IsDigits]
  · exact isDigits_trimZeros (isDigits_padded _ _)

theorem length_fraction_le (n places : Nat) : (fraction n places).length ≤ places := by
  unfold fraction
  split
  · exact Nat.zero_le _
  · rename_i h
    have hlen := length_padded_mod h
    exact (length_trimZeros_le _).trans hlen.le

/-- The digits behind the point stand for what is left of a whole number. -/
theorem value_fraction (n places : Nat) :
    value (fraction n places) * 10 ^ (places - (fraction n places).length) = n % 10 ^ places := by
  unfold fraction
  split
  · rename_i h
    rw [h]
    exact Nat.zero_mul _
  · rename_i h
    have hlen := length_padded_mod h
    have hvalue := value_trimZeros (padded places (n % 10 ^ places))
    rw [hlen, value_padded] at hvalue
    exact hvalue.symm

/-- A fraction that is written has a digit. -/
theorem fraction_ne_nil {n places : Nat} (h : n % 10 ^ places ≠ 0) : fraction n places ≠ [] := by
  intro hnil
  have hvalue := value_fraction n places
  rw [hnil] at hvalue
  exact h (hvalue.symm.trans (Nat.zero_mul _))

/-- The whole part, and the fraction behind its point. -/
theorem text_eq (n places : Nat) :
    text n places = Nat.toDigits 10 (n / 10 ^ places) ++
      if fraction n places = [] then [] else '.' :: fraction n places := by
  by_cases h : n % 10 ^ places = 0
  · simp [text, fraction, h]
  · rw [if_neg (fraction_ne_nil h)]
    simp only [text, fraction, if_neg h]

end FixedPoint
end KubeClient
