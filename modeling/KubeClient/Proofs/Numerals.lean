import Mathlib.Algebra.Order.Field.Rat
import Mathlib.Tactic.FieldSimp
import Mathlib.Tactic.Ring
import KubeClient.Proofs.Digits

/-!
# Numerals with signs and points

* `Sign`, `Sign.split` : the sign in front of a number, if one is written;
* `DecimalNumber`, `DecimalNumber.value` : digits with at most one point, and the number that they
  stand for;
* `Numeral.value_lt_pow`, `Numeral.value_dropWhile` : how large a run of digits can be;
* `Numeral.toNat?_eq_some_iff`, `Numeral.toInt?_eq_some_iff` : the texts that the bounded readers
  take, and what they read.
-/

namespace KubeClient

/-- The sign in front of a number, if one is written. -/
inductive Sign
  | none
  | plus
  | minus
  deriving DecidableEq, Repr

namespace Sign

/-- How a sign is written. -/
def chars : Sign → List Char
  | .none => []
  | .plus => ['+']
  | .minus => ['-']

/-- A number with this sign. -/
def apply {α : Type} [Neg α] (n : α) : Sign → α
  | .none => n
  | .plus => n
  | .minus => -n

/-- Whether the sign turns a number round. -/
def isNegative : Sign → Bool
  | .none => false
  | .plus => false
  | .minus => true

theorem apply_eq_ite {α : Type} [Neg α] (sign : Sign) (n : α) :
    sign.apply n = if sign.isNegative then -n else n := by
  cases sign <;> rfl

theorem apply_inj {sign : Sign} {m n : Int} : sign.apply m = sign.apply n ↔ m = n := by
  cases sign <;> simp [apply]

/-- The sign of a text, and what follows it. -/
def split : List Char → Sign × List Char
  | '-' :: cs => (.minus, cs)
  | '+' :: cs => (.plus, cs)
  | cs => (.none, cs)

theorem chars_append_split (cs : List Char) : (split cs).1.chars ++ (split cs).2 = cs := by
  unfold split
  split <;> rfl

theorem split_of_ne {cs : List Char} (hminus : ∀ ds, cs ≠ '-' :: ds)
    (hplus : ∀ ds, cs ≠ '+' :: ds) : split cs = (.none, cs) := by
  rw [split]
  · exact hminus
  · exact hplus

/-- A text that does not begin with a sign. -/
def Unsigned (cs : List Char) : Prop :=
  ∀ c ∈ cs.head?, c ≠ '-' ∧ c ≠ '+'

theorem split_chars_append (sign : Sign) {cs : List Char} (h : Unsigned cs) :
    split (sign.chars ++ cs) = (sign, cs) := by
  cases sign with
  | none =>
    refine split_of_ne ?_ ?_
    · rintro ds rfl
      exact (h '-' rfl).1 rfl
    · rintro ds rfl
      exact (h '+' rfl).2 rfl
  | plus => rfl
  | minus => rfl

end Sign

namespace Numeral

/-! ### Sizes -/

theorem value_dropWhile (ds : List Char) : value (ds.dropWhile (· == '0')) = value ds := by
  induction ds with
  | nil => rfl
  | cons d ds ih =>
    rw [List.dropWhile_cons]
    split_ifs with h
    · obtain rfl : d = '0' := by simpa using h
      rw [ih, value_cons]
      simp
    · rfl

theorem toNat_sub_lt {d : Char} (h : d.isDigit = true) : 48 ≤ d.toNat ∧ d.toNat - 48 < 10 := by
  have hrange := Char.isDigit_iff_toNat.mp h
  simp at hrange
  omega

theorem value_lt_pow {ds : List Char} (h : IsDigits ds) : value ds < 10 ^ ds.length := by
  induction ds with
  | nil => decide
  | cons d ds ih =>
    have hd := (toNat_sub_lt (h d List.mem_cons_self)).2
    have hds := ih fun c hc => h c (List.mem_cons_of_mem d hc)
    calc value (d :: ds) = (d.toNat - 48) * 10 ^ ds.length + value ds := value_cons d ds
      _ < (d.toNat - 48) * 10 ^ ds.length + 10 ^ ds.length := Nat.add_lt_add_left hds _
      _ = (d.toNat - 48 + 1) * 10 ^ ds.length := (Nat.succ_mul _ _).symm
      _ ≤ 10 * 10 ^ ds.length := Nat.mul_le_mul_right _ hd
      _ = 10 ^ (d :: ds).length := by rw [List.length_cons, Nat.pow_succ, Nat.mul_comm]

/-! ### Readers -/

theorem toNat?_eq_some_iff {bound n : Nat} {cs : List Char} :
    toNat? bound cs = some n ↔ cs ≠ [] ∧ IsDigits cs ∧ value cs = n ∧ n < bound := by
  unfold toNat?
  by_cases hne : cs = []
  · simp [hne]
  by_cases hdigits : IsDigits cs
  · have hall : cs.all Char.isDigit = true := List.all_eq_true.mpr hdigits
    rw [if_neg (by simp [hne, hall])]
    constructor
    · intro h
      split at h
      · rename_i hlt
        obtain rfl := Option.some.inj h
        exact ⟨hne, hdigits, rfl, hlt⟩
      · cases h
    · rintro ⟨-, -, rfl, hlt⟩
      exact if_pos hlt
  · have hall : cs.all Char.isDigit = false := by
      rw [Bool.eq_false_iff]
      exact fun h => hdigits (List.all_eq_true.mp h)
    simp [hne, hdigits, hall]

/-- The magnitudes that a sign leaves in a word: below zero there is one more. -/
def room (b : Nat) (sign : Sign) : Nat :=
  2 ^ (b - 1) + if sign.isNegative then 1 else 0

theorem fits_apply_iff {b n : Nat} (sign : Sign) :
    Fits b (sign.apply (n : Int)) ↔ n < room b sign := by
  have hpow : ((2 ^ (b - 1) : Nat) : Int) = 2 ^ (b - 1) := by push_cast; rfl
  have hpos : (0 : Int) < 2 ^ (b - 1) := Int.pow_pos (by decide)
  cases sign <;>
    simp only [Fits, room, Sign.apply, Sign.isNegative, Bool.false_eq_true, if_true, if_false] <;>
    omega

theorem toInt?_eq (b : Nat) (cs : List Char) :
    toInt? b cs = (toNat? (room b (Sign.split cs).1) (Sign.split cs).2).map
      fun n : Nat => (Sign.split cs).1.apply (n : Int) := by
  unfold toInt?
  split
  · rename_i ds
    change _ = (toNat? (2 ^ (b - 1) + 1) ds).map fun n : Nat => -(n : Int)
    cases toNat? (2 ^ (b - 1) + 1) ds <;> rfl
  · rfl
  · rename_i hminus hplus
    rw [Sign.split_of_ne hminus hplus]
    rfl

/-- Digits have no sign in front. -/
theorem unsigned_of_isDigits {ds : List Char} (hds : IsDigits ds) : Sign.Unsigned ds := by
  intro c hc
  have hdigit := hds c (List.mem_of_mem_head? hc)
  refine ⟨?_, ?_⟩ <;> rintro rfl <;> exact absurd hdigit (by decide)

/-- The integers that the reader takes: digits behind at most one sign, in the range of the word. -/
theorem toInt?_eq_some_iff {b : Nat} {n : Int} {cs : List Char} :
    toInt? b cs = some n ↔ ∃ (sign : Sign) (ds : List Char), cs = sign.chars ++ ds ∧ ds ≠ [] ∧
      IsDigits ds ∧ n = sign.apply (value ds : Int) ∧ Fits b n := by
  rw [toInt?_eq, Option.map_eq_some_iff]
  constructor
  · rintro ⟨m, hm, rfl⟩
    obtain ⟨hne, hdigits, rfl, hlt⟩ := toNat?_eq_some_iff.mp hm
    exact ⟨_, _, (Sign.chars_append_split cs).symm, hne, hdigits, rfl, (fits_apply_iff _).mpr hlt⟩
  · rintro ⟨sign, ds, rfl, hne, hdigits, rfl, hfits⟩
    rw [Sign.split_chars_append sign (unsigned_of_isDigits hdigits)]
    exact ⟨_, toNat?_eq_some_iff.mpr ⟨hne, hdigits, rfl, (fits_apply_iff sign).mp hfits⟩, rfl⟩

end Numeral

/-- A decimal number as it is written: digits with at most one point, and at least one digit. -/
structure DecimalNumber where
  whole : List Char
  /-- The digits behind the point, if there is a point. -/
  behind : Option (List Char)
  isDigits_whole : Numeral.IsDigits whole
  isDigits_behind : ∀ ds ∈ behind, Numeral.IsDigits ds
  has_digit : whole ≠ [] ∨ ∃ ds ∈ behind, ds ≠ []

namespace DecimalNumber

variable (d : DecimalNumber)

/-- The digits behind the point, none if there is no point. -/
def fraction : List Char :=
  d.behind.getD []

/-- How the number is written. -/
def chars : List Char :=
  d.whole ++ match d.behind with
    | none => []
    | some ds => '.' :: ds

/-- The digits on both sides of the point, as one integer. -/
def digits : Nat :=
  Numeral.value (d.whole ++ d.fraction)

/-- The number of digits, not counting the zeros in front of the whole number. -/
def length : Nat :=
  (d.whole.dropWhile (· == '0')).length + d.fraction.length

/-- The number, whatever the count of its digits. -/
def value : ℚ :=
  Numeral.value d.whole + Numeral.value d.fraction / 10 ^ d.fraction.length

theorem isDigits_fraction : Numeral.IsDigits d.fraction := by
  unfold fraction
  cases h : d.behind with
  | none => simp [Numeral.IsDigits]
  | some ds => exact d.isDigits_behind ds h

theorem ne_nil : ¬ (d.whole = [] ∧ d.fraction = []) := by
  rintro ⟨hwhole, hfraction⟩
  rcases d.has_digit with h | ⟨ds, hds, hne⟩
  · exact h hwhole
  · rw [fraction, hds] at hfraction
    exact hne hfraction

/-- All digits as one integer, brought down by the places behind the point. -/
theorem value_eq :
    d.value = d.digits / 10 ^ d.fraction.length := by
  rw [value, digits, Numeral.value_append]
  push_cast
  field_simp

theorem isDigits_append : Numeral.IsDigits (d.whole ++ d.fraction) := by
  intro c hc
  rcases List.mem_append.mp hc with hc | hc
  · exact d.isDigits_whole c hc
  · exact d.isDigits_fraction c hc

/-- The number of digits limits their integer. -/
theorem digits_lt : d.digits < 10 ^ d.length := by
  have hdigits : Numeral.IsDigits (d.whole.dropWhile (· == '0') ++ d.fraction) := by
    intro c hc
    refine d.isDigits_append c ?_
    rcases List.mem_append.mp hc with hc | hc
    · exact List.mem_append_left _ ((List.dropWhile_suffix _).subset hc)
    · exact List.mem_append_right _ hc
  have hlt := Numeral.value_lt_pow hdigits
  rwa [Numeral.value_append, Numeral.value_dropWhile, ← Numeral.value_append,
    List.length_append] at hlt

/-- No digit is counted that is not written. -/
theorem length_le : d.length ≤ d.chars.length := by
  have hwhole := (List.dropWhile_suffix (l := d.whole) (· == '0')).length_le
  have hchars : d.whole.length + d.fraction.length ≤ d.chars.length := by
    unfold fraction chars
    cases d.behind <;> simp
  unfold length
  omega

/-- A number begins with a digit or its point. -/
theorem exists_head : ∃ c cs, d.chars = c :: cs ∧ (c.isDigit = true ∨ c = '.') := by
  rcases hwhole : d.whole with _ | ⟨w, ws⟩
  · rcases d.has_digit with h | ⟨ds, hds, -⟩
    · exact absurd hwhole h
    · refine ⟨'.', ds, ?_, .inr rfl⟩
      rw [chars, hwhole, Option.mem_def.mp hds, List.nil_append]
  · refine ⟨w, _, by rw [chars, hwhole, List.cons_append], .inl ?_⟩
    exact d.isDigits_whole w (hwhole ▸ List.mem_cons_self)

/-- A number is not taken for a sign. -/
theorem unsigned (rest : List Char) : Sign.Unsigned (d.chars ++ rest) := by
  obtain ⟨c, cs, hchars, hc⟩ := d.exists_head
  rw [hchars]
  rintro _ ⟨⟩
  refine ⟨?_, ?_⟩ <;> rintro rfl <;> exact absurd hc (by decide)

end DecimalNumber
end KubeClient
