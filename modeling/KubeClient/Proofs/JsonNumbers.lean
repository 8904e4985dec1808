import KubeClient.Document.Json.Printer
import KubeClient.Proofs.Digits
import KubeClient.Proofs.JsonExtent

/-!
# Numbers of JSON text

* `Json.Legible` : a number whose text is read as this number;
* `Json.legible_int` : the integers of 64 bits are legible;
* `Json.Reader.gives_number`, `Json.Reader.gives_skipStart_number` : a legible number is read, or
  stepped over, wherever a value can end.
-/

namespace KubeClient.Json

namespace Reader

variable {rest : Bytes}

/-! ### Digits -/

theorem exists_digit {c : Char} (h : c.isDigit = true) :
    ∃ n : Fin 10, c = Char.ofNat (48 + n.val) := by
  obtain ⟨hlow, hhigh⟩ := Char.isDigit_iff_toNat.mp h
  have hlow : 48 ≤ c.toNat := hlow
  have hhigh : c.toNat ≤ 57 := hhigh
  refine ⟨⟨c.toNat - 48, by omega⟩, ?_⟩
  rw [Nat.add_sub_cancel' hlow, Char.ofNat_toNat]

/-- The byte of a digit is a digit of the same value. -/
theorem isDigit_toUInt8 {c : Char} (h : c.isDigit = true) :
    isDigit c.toNat.toUInt8 = true ∧ digit c.toNat.toUInt8 = c.toNat - 48 := by
  obtain ⟨n, rfl⟩ := exists_digit h
  revert n
  decide

theorem toUInt8_eq_zero {c : Char} (h : c.isDigit = true) (hc : c.toNat.toUInt8 = 0x30) :
    c = '0' := by
  obtain ⟨n, rfl⟩ := exists_digit h
  revert n
  decide

/-- No digits follow a zero in front. -/
theorem eq_nil_of_toDigits_zero {n : Nat} {c : Char} {cs : List Char} (h : c.isDigit = true)
    (hc : c.toNat.toUInt8 = 0x30) (hcs : Nat.toDigits 10 n = c :: cs) : cs = [] := by
  obtain rfl := toUInt8_eq_zero h hc
  have hn : n = 0 := by
    refine Nat.eq_zero_of_not_pos fun hpos => Numeral.head?_toDigits_ne hpos ?_
    rw [hcs]
    rfl
  subst hn
  have hdigits : Nat.toDigits 10 0 = ['0'] := rfl
  exact (List.cons.inj (hcs.symm.trans hdigits)).2

/-- A sign or a digit. -/
def StartsNumber (b : UInt8) : Prop :=
  b = 0x2D ∨ isDigit b = true

instance (b : UInt8) : Decidable (StartsNumber b) :=
  inferInstanceAs (Decidable (_ ∨ _))

theorem StartsNumber.ne {b c : UInt8} (h : StartsNumber b) (hc : ¬ StartsNumber c) : b ≠ c := by
  rintro rfl
  exact hc h

theorem StartsNumber.not_isBlank {b : UInt8} (h : StartsNumber b) : isBlank b = false := by
  refine Bool.eq_false_iff.mpr fun hblank => ?_
  simp only [isBlank, Bool.or_eq_true, beq_iff_eq] at hblank
  rcases hblank with ((hb | hb) | hb) | hb <;> exact h.ne (by decide) hb

open Numeral

/-- Digits are taken as long as their value fits. -/
theorem appendDigits_ascii {bound n : Nat} {ds : List Char} (hds : IsDigits ds)
    (hbound : Nat.ofDigitChars 10 ds n < bound) :
    appendDigits bound n (ascii ds) = (Nat.ofDigitChars 10 ds n, ds.length, []) := by
  induction ds generalizing n with
  | nil => rfl
  | cons c ds ih =>
    obtain ⟨hdigit, hvalue⟩ := isDigit_toUInt8 (hds c List.mem_cons_self)
    rw [Nat.ofDigitChars_cons, Nat.mul_comm 10 n] at hbound ⊢
    have hvalue' : c.toNat - '0'.toNat = c.toNat - 48 := rfl
    rw [hvalue'] at hbound ⊢
    -- the first digits are less than all of them
    have hle : n * 10 + (c.toNat - 48) ≤ Nat.ofDigitChars 10 ds (n * 10 + (c.toNat - 48)) := by
      rw [Nat.ofDigitChars_eq_ofDigitChars_zero]
      have hone := Nat.mul_le_mul_right (n * 10 + (c.toNat - 48))
        (Nat.one_le_pow ds.length 10 (by decide))
      omega
    have hfits : (true && decide (n * 10 + (c.toNat - 48) < bound)) = true :=
      decide_eq_true (Nat.lt_of_le_of_lt hle hbound)
    show appendDigits bound n (c.toNat.toUInt8 :: ascii ds) = _
    rw [appendDigits, hdigit, hvalue, if_pos hfits,
      ih (fun d hd => hds d (List.mem_cons_of_mem c hd)) hbound]
    rfl

theorem gives_takeDigits {bound n : Nat} {ds : List Char} (hds : IsDigits ds)
    (hbound : Nat.ofDigitChars 10 ds n < bound) :
    (takeDigits bound n).Gives (ascii ds) (some ((Nat.ofDigitChars 10 ds n, ds.length), [])) := by
  intro offset
  simp only [takeDigits, appendDigits_ascii hds hbound]

/-! ### Integers -/

theorem gives_unsignedNumber (negative : Bool) {n : Nat} (hn : n < 2 ^ 64) :
    (unsignedNumber negative).Gives (ascii (Nat.toDigits 10 n))
      (some (integer negative n, [])) := by
  obtain ⟨c, cs, hcs, hc⟩ := exists_toDigits n
  obtain ⟨hdigit, hvalue⟩ := isDigit_toUInt8 hc
  have hcsdigits : IsDigits cs := fun d hd =>
    isDigits_toDigits n d (hcs ▸ List.mem_cons_of_mem c hd)
  have hall : Nat.ofDigitChars 10 cs (c.toNat - 48) = n := by
    have hself := value_toDigits n
    rw [hcs, value, Nat.ofDigitChars_cons, Nat.mul_zero, Nat.zero_add] at hself
    exact hself
  rw [hcs]
  refine (gives_next c.toNat.toUInt8 (ascii cs)).bind ?_
  dsimp only
  split
  · -- zero stands alone
    rename_i hzero
    obtain rfl := eq_nil_of_toDigits_zero hc hzero hcs
    obtain rfl := toUInt8_eq_zero hc hzero
    obtain rfl : n = 0 := by
      rw [← hall]
      rfl
    exact (gives_atDigit []).bind (gives_pure _ [])
  · rw [hdigit, hvalue]
    refine (gives_takeDigits hcsdigits (by rwa [hall])).bind ?_
    rw [hall]
    exact (gives_atDigit []).bind (gives_pure _ [])

end Reader

open Reader Numeral

/-! ### Legible numbers -/

/-- The text of a number is read as this number. -/
def Legible (n : Number) : Prop :=
  number.Gives (printNumber n) (some (n, []))

theorem legible_int {n : Int} (hlow : -2 ^ 63 ≤ n) (hhigh : n < 2 ^ 64) : Legible (.int n) := by
  rw [Legible, printNumber]
  cases n with
  | ofNat n =>
    have hn : n < 2 ^ 64 := by
      rw [Int.ofNat_eq_natCast] at hhigh
      exact_mod_cast hhigh
    have hdigits := gives_unsignedNumber false hn
    obtain ⟨c, cs, hcs, hc⟩ := exists_toDigits n
    have hminus : some c.toNat.toUInt8 ≠ some 0x2D := by
      intro hminus
      have hdigit := (isDigit_toUInt8 hc).1
      rw [Option.some.inj hminus] at hdigit
      cases hdigit
    rw [Numeral.ofInt]
    rw [hcs] at hdigits ⊢
    refine (gives_peek _).bind ?_
    rw [ascii, List.map_cons, List.head?_cons, if_neg hminus]
    exact hdigits
  | negSucc n =>
    have hn : n + 1 ≤ 2 ^ 63 := by
      rw [Int.negSucc_eq] at hlow
      omega
    have hdigits := gives_unsignedNumber true (n := n + 1) (by omega)
    have hself : integer true (n + 1) = .int (Int.negSucc n) := by
      rw [integer, if_neg (by decide), if_pos ⟨Nat.succ_pos n, hn⟩]
      rfl
    rw [hself] at hdigits
    refine (gives_peek _).bind ?_
    exact (gives_advance 0x2D _).bind hdigits

namespace Reader

variable {rest : Bytes} {n : Number}

/-- A legible number is read. -/
theorem gives_number (h : Legible n) (hrest : EndsValue rest) :
    number.Gives (printNumber n ++ rest) (some (n, rest)) :=
  (Gives.before h (fun _ => reaches_number) hrest).1

/-- A number begins with a sign or a digit. -/
theorem exists_head_printNumber (h : Legible n) :
    ∃ b tl, printNumber n = b :: tl ∧ StartsNumber b := by
  have fails (hbs : (printNumber n).head? ≠ some 0x2D)
      (hnumber : (unsignedNumber false).Gives (printNumber n) none) : False := by
    have hnone : number.Gives (printNumber n) none := by
      refine (gives_peek _).bind ?_
      rw [if_neg hbs]
      exact hnumber
    cases (hnone 0).symm.trans (h 0)
  generalize printNumber n = bs at fails ⊢
  cases bs with
  | nil => exact (fails nofun fun _ => rfl).elim
  | cons b tl =>
    refine ⟨b, tl, rfl, Classical.byContradiction fun hb => ?_⟩
    obtain ⟨hminus, hdigit⟩ := not_or.mp hb
    refine fails (fun hhead => hminus (Option.some.inj hhead)) ?_
    refine (gives_next b tl).bind ?_
    have hzero : b ≠ 0x30 := by
      rintro rfl
      exact hdigit rfl
    dsimp only
    rw [if_neg hzero, if_pos (by rw [Bool.eq_false_iff.mpr hdigit]; rfl)]
    exact gives_failHere _ tl

/-- A legible number is stepped over. -/
theorem gives_skipStart_number (h : Legible n) (hrest : EndsValue rest) :
    skipStart.Gives (printNumber n ++ rest) (some (none, rest)) := by
  have hskip := (Gives.before h (fun _ => reaches_number) hrest).2
  obtain ⟨b, tl, hbs, hb⟩ := exists_head_printNumber h
  rw [hbs, List.cons_append] at hskip ⊢
  refine (gives_token hb.not_isBlank _).bind ?_
  dsimp only
  rw [if_neg (hb.ne (by decide)), if_neg (hb.ne (by decide)), if_neg (hb.ne (by decide))]
  by_cases hminus : b = 0x2D
  · subst hminus
    have hnumber : (advance >>= fun _ => skipNumber).Gives (0x2D :: (tl ++ rest))
        (some ((), rest)) := hskip
    rw [if_pos rfl, ← bind_assoc]
    exact hnumber.bind (gives_pure none rest)
  · have hdigit := hb.resolve_left hminus
    rw [if_neg hminus, if_pos hdigit]
    have hself (offset : Nat) : skipSigned ⟨offset, b :: (tl ++ rest)⟩ = skipNumber ⟨offset, _⟩ :=
      congrFun (if_neg fun h => hminus (Option.some.inj h)) _
    have hnumber : skipNumber.Gives (b :: (tl ++ rest)) (some ((), rest)) := fun offset =>
      hself offset ▸ hskip offset
    exact hnumber.bind (gives_pure none rest)

end Reader
end KubeClient.Json
