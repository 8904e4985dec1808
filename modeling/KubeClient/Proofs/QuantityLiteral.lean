import KubeClient.Proofs.Numerals
import KubeClient.Proofs.QuantityWords

/-!
# Literals of amounts

The grammar of literals, and what reading makes of a text.

* `Quantity.IsSuffix`, `Quantity.readSuffix_eq_some_iff` : the suffixes, with what they stand for;
* `Quantity.Literal`, `Quantity.Literal.value` : a sign, a decimal number and a suffix, and the
  amount that they write;
* `Quantity.Literal.Admitted` : the limits on digits, on the scaled integer and on the exponent;
* `Quantity.parseChars_chars`, `Quantity.exists_literal` : reading a literal, and that nothing but
  literals is read;
* `Quantity.parseCharsChecked_eq` : no operation overflows, whatever the text;
* `Quantity.parse_accepts_literals` : all of it.
-/

namespace KubeClient.Quantity

open Numeral

/-! ### Suffixes -/

/-- The suffixes that are names, with their families and their powers of 1024 or of ten. -/
def suffixNames : List (List Char × Format × Int) :=
  [(['K', 'i'], .binarySI, 1), (['M', 'i'], .binarySI, 2), (['G', 'i'], .binarySI, 3),
    (['T', 'i'], .binarySI, 4), (['P', 'i'], .binarySI, 5), (['E', 'i'], .binarySI, 6),
    (['n'], .decimalSI, -9), (['u'], .decimalSI, -6), (['m'], .decimalSI, -3),
    ([], .decimalSI, 0), (['k'], .decimalSI, 3), (['M'], .decimalSI, 6), (['G'], .decimalSI, 9),
    (['T'], .decimalSI, 12), (['P'], .decimalSI, 15), (['E'], .decimalSI, 18)]

/-- A suffix, its family, and its power of 1024 or of ten: a name, or a marker and the numeral of
an exponent in the range of a 32-bit word. -/
inductive IsSuffix : List Char → Format → Int → Prop
  | name {cs : List Char} {format : Format} {power : Int} (h : (cs, format, power) ∈ suffixNames) :
      IsSuffix cs format power
  | exponent {marker : Char} {ds : List Char} (sign : Sign) (hmarker : marker = 'e' ∨ marker = 'E')
      (hne : ds ≠ []) (hdigits : IsDigits ds)
      (hfits : Fits 32 (sign.apply (Numeral.value ds : Int))) :
      IsSuffix (marker :: (sign.chars ++ ds)) .decimalExponent (sign.apply (Numeral.value ds : Int))

/-- What the suffix of a family and a power stands for. -/
def multiplier : Format → Int → ℚ
  | .binarySI, n => 1024 ^ n
  | .decimalSI, e => 10 ^ e
  | .decimalExponent, e => 10 ^ e

theorem readSuffix_of_name : ∀ name ∈ suffixNames, readSuffix name.1 = some name.2 := by
  decide

theorem endsNumber_of_name {cs : List Char} {format : Format} {power : Int}
    (h : (cs, format, power) ∈ suffixNames) : EndsNumber cs := by
  have hheads : ∀ name ∈ suffixNames,
      (name.1.head?.all fun c => !c.isDigit && c != '.') = true := by decide
  intro c hc
  have hhead := hheads _ h
  rw [Option.mem_def.mp hc] at hhead
  simpa using hhead

theorem readSuffix_marker {marker : Char} {cs : List Char} {n : Int}
    (hmarker : marker = 'e' ∨ marker = 'E') (h : toInt? 32 cs = some n) :
    readSuffix (marker :: cs) = some (.decimalExponent, n) := by
  rcases hmarker with rfl | rfl
  · rw [readSuffix, h]
    rfl
  · -- the names `E` and `Ei` go on with nothing that could be an exponent
    rw [readSuffix, h]
    · rfl
    · rintro rfl
      cases h
    · rintro rfl
      cases h

theorem readSuffix_eq_some_iff {cs : List Char} {format : Format} {power : Int} :
    readSuffix cs = some (format, power) ↔ IsSuffix cs format power := by
  constructor
  · intro h
    have hexponent {marker : Char} {e : List Char} (hmarker : marker = 'e' ∨ marker = 'E')
        (h : ((toInt? 32 e).map fun n => (Format.decimalExponent, n)) = some (format, power)) :
        IsSuffix (marker :: e) format power := by
      obtain ⟨n, hn, heq⟩ := Option.map_eq_some_iff.mp h
      obtain ⟨rfl, rfl⟩ := Prod.mk.inj heq
      obtain ⟨sign, ds, rfl, hne, hdigits, rfl, hfits⟩ := toInt?_eq_some_iff.mp hn
      exact .exponent sign hmarker hne hdigits hfits
    unfold readSuffix at h
    split at h
    case h_17 => exact hexponent (.inl rfl) h
    case h_18 => exact hexponent (.inr rfl) h
    case h_19 => cases h
    all_goals
      obtain ⟨rfl, rfl⟩ := Prod.mk.inj (Option.some.inj h)
      exact .name (by simp [suffixNames])
  · rintro (h | ⟨sign, hmarker, hne, hdigits, hfits⟩)
    · exact readSuffix_of_name _ h
    · exact readSuffix_marker hmarker
        (toInt?_eq_some_iff.mpr ⟨sign, _, rfl, hne, hdigits, rfl, hfits⟩)

/-- A suffix does not go on with the number in front of it. -/
theorem IsSuffix.endsNumber {cs : List Char} {format : Format} {power : Int}
    (h : IsSuffix cs format power) : EndsNumber cs := by
  rcases h with h | ⟨sign, hmarker, -, -, -⟩
  · exact endsNumber_of_name h
  · rintro c ⟨⟩
    rcases hmarker with rfl | rfl <;> decide

theorem IsSuffix.power_nonneg {cs : List Char} {power : Int} (h : IsSuffix cs .binarySI power) :
    0 ≤ power ∧ power ≤ 6 := by
  rcases h with h | _
  have hpowers : ∀ name ∈ suffixNames, name.2.1 = .binarySI → 0 ≤ name.2.2 ∧ name.2.2 ≤ 6 := by
    decide
  exact hpowers _ h rfl

/-! ### Literals -/

/-- A literal: a sign, a decimal number and a suffix. -/
structure Literal where
  sign : Sign
  number : DecimalNumber
  suffix : List Char
  format : Format
  power : Int
  isSuffix : IsSuffix suffix format power

namespace Literal

variable (l : Literal)

/-- How a literal is written. -/
def chars : List Char :=
  l.sign.chars ++ (l.number.chars ++ l.suffix)

/-- The amount that a literal writes. -/
def value : ℚ :=
  l.sign.apply (l.number.value * multiplier l.format l.power)

/-- The limits on a literal: on the number of its digits, on the integer that a binary suffix scales
(without the sign), and on its exponent. -/
structure Admitted : Prop where
  length_le : l.number.length ≤ 30
  scaled_fits : l.format = .binarySI → Fits 128 (l.number.digits * 1024 ^ l.power.toNat : Nat)
  exponent_fits : l.format ≠ .binarySI → Fits 32 (l.power - l.number.fraction.length)

end Literal

/-! ### Reading a literal -/

theorem splitSign_eq (cs : List Char) :
    splitSign cs = ((Sign.split cs).1.isNegative, (Sign.split cs).2) := by
  unfold splitSign
  split
  · rfl
  · rfl
  · rename_i hminus hplus
    rw [Sign.split_of_ne hminus hplus]
    rfl

theorem ne_point_of_isDigits {ds : List Char} (hds : IsDigits ds) :
    ∀ c ∈ ds, (c != '.') = true := by
  intro c hc
  rw [bne_iff_ne]
  rintro rfl
  exact absurd (hds _ hc) (by decide)

theorem splitNumber_chars (d : DecimalNumber) {suffix : List Char} (h : EndsNumber suffix) :
    splitNumber (d.chars ++ suffix) = (d.whole, d.fraction, suffix) := by
  have hin {ds : List Char} (hds : IsDigits ds) : ∀ c ∈ ds, (c.isDigit || c == '.') = true := by
    intro c hc
    rw [hds c hc, Bool.true_or]
  have hends : ∀ c ∈ suffix.head?, (c.isDigit || c == '.') = false := by
    intro c hc
    simp [h c hc]
  have hwhole := ne_point_of_isDigits d.isDigits_whole
  rcases hbehind : d.behind with _ | ds
  · have hchars : d.chars = d.whole := by rw [DecimalNumber.chars, hbehind, List.append_nil]
    have hfraction : d.fraction = [] := by rw [DecimalNumber.fraction, hbehind, Option.getD_none]
    simp only [splitNumber, hchars, hfraction, takeWhile_run (hin d.isDigits_whole) hends,
      dropWhile_run (hin d.isDigits_whole) hends, List.takeWhile_eq_self_iff.mpr hwhole,
      List.dropWhile_eq_nil_iff.mpr hwhole, List.drop_nil]
  · have hchars : d.chars = d.whole ++ '.' :: ds := by rw [DecimalNumber.chars, hbehind]
    have hfraction : d.fraction = ds := by rw [DecimalNumber.fraction, hbehind, Option.getD_some]
    have hnumber : ∀ c ∈ d.whole ++ '.' :: ds, (c.isDigit || c == '.') = true := by
      intro c hc
      rcases List.mem_append.mp hc with hc | hc
      · exact hin d.isDigits_whole c hc
      rcases List.mem_cons.mp hc with rfl | hc
      · rfl
      · exact hin (d.isDigits_behind ds hbehind) c hc
    have hpoint : ∀ c ∈ ('.' :: ds).head?, (c != '.') = false := by
      rintro c ⟨⟩
      rfl
    simp only [splitNumber, hchars, hfraction, takeWhile_run hnumber hends,
      dropWhile_run hnumber hends, takeWhile_run hwhole hpoint, dropWhile_run hwhole hpoint,
      List.drop_one, List.tail_cons]

/-- Digits and points, cut at the first point, are a number if there is no second point. -/
theorem exists_decimal_of_run {run : List Char} (hin : ∀ c ∈ run, c ≠ '.' → c.isDigit = true)
    (hne : ¬ (run.takeWhile (· != '.') = [] ∧ (run.dropWhile (· != '.')).drop 1 = []))
    (hpoint : '.' ∉ (run.dropWhile (· != '.')).drop 1) :
    ∃ d : DecimalNumber, d.whole = run.takeWhile (· != '.') ∧
      d.fraction = (run.dropWhile (· != '.')).drop 1 ∧ d.chars = run := by
  have hparts := List.takeWhile_append_dropWhile (p := (· != '.')) (l := run)
  have hwhole : IsDigits (run.takeWhile (· != '.')) := by
    intro c hc
    refine hin c (List.takeWhile_prefix _ |>.subset hc) ?_
    simpa using List.mem_takeWhile_imp hc
  rcases hdrop : run.dropWhile (· != '.') with _ | ⟨c, ds⟩
  · rw [hdrop] at hne hparts
    exact ⟨⟨run.takeWhile (· != '.'), none, hwhole, by simp, .inl fun hnil => hne ⟨hnil, rfl⟩⟩, rfl,
      rfl, hparts⟩
  · obtain rfl : c = '.' := by
      have hhead := List.head?_dropWhile_not (· != '.') run
      rw [hdrop] at hhead
      simpa using hhead
    rw [hdrop] at hne hpoint hparts
    rw [List.drop_one, List.tail_cons] at hne hpoint
    have hdigits : IsDigits ds := by
      intro c hc
      refine hin c ?_ (fun heq => hpoint (heq ▸ hc))
      rw [← hparts]
      exact List.mem_append_right _ (List.mem_cons_of_mem _ hc)
    have hdigit : run.takeWhile (· != '.') ≠ [] ∨ ∃ es ∈ some ds, es ≠ [] := by
      by_cases hnil : run.takeWhile (· != '.') = []
      · exact .inr ⟨ds, rfl, fun hds => hne ⟨hnil, hds⟩⟩
      · exact .inl hnil
    refine ⟨⟨run.takeWhile (· != '.'), some ds, hwhole, ?_, hdigit⟩, rfl, rfl, hparts⟩
    rintro es ⟨⟩
    exact hdigits

/-- What reading finds in front of a suffix is a number, if it finds a digit and at most one
point. -/
theorem exists_decimal {cs whole fraction suffix : List Char}
    (h : splitNumber cs = (whole, fraction, suffix)) (hne : ¬ (whole = [] ∧ fraction = []))
    (hpoint : '.' ∉ fraction) :
    ∃ d : DecimalNumber, d.whole = whole ∧ d.fraction = fraction ∧ cs = d.chars ++ suffix := by
  obtain ⟨rfl, hrest⟩ := Prod.mk.inj h
  obtain ⟨rfl, rfl⟩ := Prod.mk.inj hrest
  have hin : ∀ c ∈ cs.takeWhile (fun c => c.isDigit || c == '.'), c ≠ '.' → c.isDigit = true := by
    intro c hc hcne
    simpa [hcne] using List.mem_takeWhile_imp hc
  obtain ⟨d, hwhole, hfraction, hchars⟩ := exists_decimal_of_run hin hne hpoint
  refine ⟨d, hwhole, hfraction, ?_⟩
  rw [hchars, List.takeWhile_append_dropWhile]

/-- What a literal reads as: the limits are looked at in this order. -/
def Literal.read (l : Literal) : Except Fault Quantity :=
  if 30 < l.number.length then .error .manyDigits
  else match l.format with
    | .binarySI => ofLiteral l.chars l.sign.isNegative (l.number.digits * 1024 ^ l.power.toNat)
        (-l.number.fraction.length) .binarySI
    | format => ofLiteral l.chars l.sign.isNegative l.number.digits
        (l.power - l.number.fraction.length) format

theorem parseChars_chars (l : Literal) : parseChars l.chars = l.read := by
  have hsuffix := readSuffix_eq_some_iff.mpr l.isSuffix
  have hpoint : '.' ∉ l.number.fraction := by
    intro h
    exact absurd (l.number.isDigits_fraction '.' h) (by decide)
  have hsign : splitSign l.chars = (l.sign.isNegative, l.number.chars ++ l.suffix) := by
    rw [splitSign_eq, Literal.chars, Sign.split_chars_append _ (l.number.unsigned _)]
  have hne : l.chars ≠ [] := by
    obtain ⟨c, cs, hchars, -⟩ := l.number.exists_head
    rw [Literal.chars, hchars]
    simp
  rw [parseChars, if_neg hne, hsign]
  simp only [splitNumber_chars l.number l.isSuffix.endsNumber, if_neg l.number.ne_nil,
    if_neg hpoint, hsuffix]
  rw [Literal.read]
  cases l.format <;> rfl

/-- Nothing but literals is read. -/
theorem exists_literal {cs : List Char} {q : Quantity} (h : parseChars cs = .ok q) :
    ∃ l : Literal, l.chars = cs := by
  unfold parseChars at h
  split_ifs at h
  rw [splitSign_eq] at h
  rcases hnumber : splitNumber (Sign.split cs).2 with ⟨whole, fraction, suffix⟩
  simp only [hnumber] at h
  split_ifs at h with hne hpoint
  obtain ⟨d, -, -, hbody⟩ := exists_decimal hnumber hne hpoint
  rcases hsuffix : readSuffix suffix with _ | ⟨format, power⟩
  · rw [hsuffix] at h
    cases h
  · refine ⟨⟨(Sign.split cs).1, d, suffix, format, power, readSuffix_eq_some_iff.mp hsuffix⟩, ?_⟩
    rw [Literal.chars, ← hbody, Sign.chars_append_split]

/-! ### Limits -/

theorem of_ofLiteral_eq_ok {cs : List Char} {negative : Bool} {n : Nat} {e : Int} {format : Format}
    {q : Quantity} (h : ofLiteral cs negative n e format = .ok q) :
    Fits 128 (n : Int) ∧ Fits 32 e ∧ q.value = exact (if negative then -(n : Int) else n, e) ∧
      q.format = format := by
  rw [ofLiteral] at h
  by_cases hn : Fits 128 (n : Int)
  · by_cases he : Fits 32 e
    · rw [dif_pos hn, dif_pos he] at h
      obtain rfl := Except.ok.inj h
      exact ⟨hn, he, rfl, rfl⟩
    · rw [dif_pos hn, dif_neg he] at h
      cases h
  · rw [dif_neg hn] at h
    cases h

theorem exists_ofLiteral (cs : List Char) (negative : Bool) {n : Nat} {e : Int} (format : Format)
    (hn : Fits 128 (n : Int)) (he : Fits 32 e) : ∃ q, ofLiteral cs negative n e format = .ok q := by
  rw [ofLiteral, dif_pos hn, dif_pos he]
  exact ⟨_, rfl⟩

/-- The limit on the digits is what keeps their integer in a word. -/
theorem digits_fits {d : DecimalNumber} (h : d.length ≤ 30) : Fits 128 (d.digits : Int) := by
  have hlt : d.digits < 10 ^ 30 := d.digits_lt.trans_le (Nat.pow_le_pow_right (by decide) h)
  unfold Fits
  omega

theorem places_fits {d : DecimalNumber} (h : d.length ≤ 30) :
    Fits 32 (d.fraction.length : Int) ∧ Fits 32 (-(d.fraction.length : Int)) := by
  unfold DecimalNumber.length at h
  unfold Fits
  omega

namespace Literal

variable {l : Literal}

theorem exists_read (h : l.Admitted) : ∃ q, l.read = .ok q := by
  rw [read, if_neg (Nat.not_lt.mpr h.length_le)]
  cases hformat : l.format with
  | binarySI => exact exists_ofLiteral _ _ _ (h.scaled_fits hformat) (places_fits h.length_le).2
  | decimalSI =>
    exact exists_ofLiteral _ _ _ (digits_fits h.length_le) (h.exponent_fits (by simp [hformat]))
  | decimalExponent =>
    exact exists_ofLiteral _ _ _ (digits_fits h.length_le) (h.exponent_fits (by simp [hformat]))

theorem admitted_of_read {q : Quantity} (h : l.read = .ok q) : l.Admitted := by
  unfold read at h
  split_ifs at h with hlength
  refine ⟨Nat.not_lt.mp hlength, fun hformat => ?_, fun hformat => ?_⟩
  · rw [hformat] at h
    exact (of_ofLiteral_eq_ok h).1
  · split at h
    · rename_i hbinary
      exact absurd hbinary hformat
    · exact (of_ofLiteral_eq_ok h).2.1

theorem exact_ite (sign : Sign) (n : Nat) (e : Int) :
    exact (if sign.isNegative then -(n : Int) else n, e) = sign.apply ((n : ℚ) * 10 ^ e) := by
  cases sign <;> simp [exact, Sign.isNegative, Sign.apply]

theorem multiplier_of_ne {format : Format} (h : format ≠ .binarySI) (power : Int) :
    multiplier format power = 10 ^ power := by
  cases format with
  | binarySI => exact absurd rfl h
  | decimalSI => rfl
  | decimalExponent => rfl

/-- What is read is what is written. -/
theorem value_of_read {q : Quantity} (h : l.read = .ok q) :
    q.value = l.value ∧ q.format = l.format := by
  unfold read at h
  split_ifs at h
  split at h
  · rename_i hbinary
    obtain ⟨-, -, hvalue, hformat⟩ := of_ofLiteral_eq_ok h
    refine ⟨?_, hformat.trans hbinary.symm⟩
    obtain ⟨n, hn⟩ := Int.eq_ofNat_of_zero_le (hbinary ▸ l.isSuffix).power_nonneg.1
    have hscaled : ((l.number.digits * 1024 ^ l.power.toNat : Nat) : ℚ) *
        10 ^ (-(l.number.fraction.length : Int)) =
          l.number.value * multiplier l.format l.power := by
      rw [DecimalNumber.value_eq, hbinary, hn, Int.toNat_natCast, zpow_neg, zpow_natCast,
        multiplier, zpow_natCast, Nat.cast_mul, Nat.cast_pow, div_eq_mul_inv, mul_right_comm,
        Nat.cast_ofNat]
    rw [hvalue, exact_ite, hscaled, value]
  · rename_i hne
    obtain ⟨-, -, hvalue, hformat⟩ := of_ofLiteral_eq_ok h
    refine ⟨?_, hformat⟩
    have hten : (10 : ℚ) ≠ 0 := by norm_num
    have hscaled : (l.number.digits : ℚ) * 10 ^ (l.power - l.number.fraction.length) =
        l.number.value * multiplier l.format l.power := by
      rw [DecimalNumber.value_eq, multiplier_of_ne hne, zpow_sub₀ hten, zpow_natCast]
      ring
    rw [hvalue, exact_ite, hscaled, value]

end Literal

/-! ### Reading on machine words -/

open Word

/-- The value of more digits behind a number `n`. -/
def valueChecked (n : Nat) : List Char → Except Overflow Nat
  | [] => return n
  | d :: ds => do
    unsigned 8 ((d.toNat : Int) - 48)
    signed 128 (n * 10 : Nat)
    signed 128 (n * 10 + (d.toNat - 48) : Nat)
    valueChecked (n * 10 + (d.toNat - 48)) ds

/-- The amount of a literal, given the magnitude of its significand. -/
def ofLiteralChecked (literal : List Char) (negative : Bool) (magnitude : Nat) (exponent : Int)
    (format : Format) : Except Overflow (Except Fault Quantity) := do
  signed 128 (if negative then -(magnitude : Int) else magnitude)
  return ofLiteral literal negative magnitude exponent format

/-- Reads what is behind the digits of a literal. The program itself checks the scaled integer and
the exponent. -/
def scaleChecked (literal : List Char) (negative : Bool) (n places : Nat) (suffix : List Char) :
    Except Overflow (Except Fault Quantity) :=
  match readSuffix suffix with
  | none => return .error .unknownSuffix
  | some (.binarySI, power) => do
    signed 128 (1024 ^ power.toNat)
    if Fits 128 (n * 1024 ^ power.toNat : Nat) then
      signed 32 (-places)
      ofLiteralChecked literal negative (n * 1024 ^ power.toNat) (-places) .binarySI
    else return .error .valueRange
  | some (format, power) =>
    if Fits 32 (power - places) then
      ofLiteralChecked literal negative n (power - places) format
    else return .error .exponentRange

/-- Reads a literal. -/
def parseCharsChecked (input : List Char) : Except Overflow (Except Fault Quantity) :=
  if input = [] then return .error .empty else
  let (negative, body) := splitSign input
  let (whole, fraction, suffix) := splitNumber body
  if whole = [] ∧ fraction = [] then return .error .noNumber
  else if '.' ∈ fraction then return .error .manyPoints
  else do
    count input ((whole.dropWhile (· == '0')).length + fraction.length)
    if (whole.dropWhile (· == '0')).length + fraction.length > maxDigits then
      return .error .manyDigits
    else
      let n ← valueChecked 0 (whole ++ fraction)
      if Fits 32 fraction.length then scaleChecked input negative n fraction.length suffix
      else return .error .manyDigits

theorem valueChecked_eq {n : Nat} {ds : List Char} (hds : IsDigits ds)
    (h : Fits 128 (Nat.ofDigitChars 10 ds n : Int)) :
    valueChecked n ds = .ok (Nat.ofDigitChars 10 ds n) := by
  induction ds generalizing n with
  | nil => rfl
  | cons d ds ih =>
    obtain ⟨hlow, hhigh⟩ := toNat_sub_lt (hds d List.mem_cons_self)
    have hvalue : Nat.ofDigitChars 10 (d :: ds) n =
        Nat.ofDigitChars 10 ds (n * 10 + (d.toNat - 48)) := by
      rw [Nat.ofDigitChars_cons, Nat.mul_comm]
      rfl
    rw [hvalue] at h ⊢
    -- what has been read so far only grows from here on
    have hgrow : n * 10 + (d.toNat - 48) ≤
        Nat.ofDigitChars 10 ds (n * 10 + (d.toNat - 48)) := by
      rw [Nat.ofDigitChars_eq_ofDigitChars_zero]
      have hpow : 0 < 10 ^ ds.length := Nat.pow_pos (by decide)
      calc n * 10 + (d.toNat - 48) ≤ 10 ^ ds.length * (n * 10 + (d.toNat - 48)) :=
            Nat.le_mul_of_pos_left _ hpow
        _ ≤ _ := Nat.le_add_right _ _
    have hdigit : unsigned 8 ((d.toNat : Int) - 48) = .ok () := unsigned_of_range (by omega)
    have hshift : Fits 128 ((n * 10 : Nat) : Int) := by
      unfold Fits at *
      omega
    have hsum : Fits 128 ((n * 10 + (d.toNat - 48) : Nat) : Int) := by
      unfold Fits at *
      omega
    rw [valueChecked, hdigit, signed_of_fits hshift, signed_of_fits hsum]
    exact ih (fun c hc => hds c (List.mem_cons_of_mem d hc)) h

theorem ofLiteralChecked_eq {literal : List Char} {negative : Bool} {n : Nat} {e : Int}
    {format : Format} (h : Fits 128 (n : Int)) :
    ofLiteralChecked literal negative n e format = .ok (ofLiteral literal negative n e format) := by
  have hfits : Fits 128 (if negative then -(n : Int) else n) := by
    split
    · exact fits_neg h (Int.natCast_nonneg n)
    · exact h
  rw [ofLiteralChecked, signed_of_fits hfits]
  rfl

theorem scaleChecked_eq (literal : List Char) (negative : Bool) {n places : Nat}
    (suffix : List Char) (hn : Fits 128 (n : Int)) (hplaces : Fits 32 (-(places : Int))) :
    scaleChecked literal negative n places suffix = .ok
      (match readSuffix suffix with
      | none => .error .unknownSuffix
      | some (.binarySI, power) =>
        ofLiteral literal negative (n * 1024 ^ power.toNat) (-places) .binarySI
      | some (format, power) => ofLiteral literal negative n (power - places) format) := by
  have hdecimal {format : Format} {e : Int} :
      (if Fits 32 e then ofLiteralChecked literal negative n e format
        else pure (.error .exponentRange)) = .ok (ofLiteral literal negative n e format) := by
    split_ifs with he
    · exact ofLiteralChecked_eq hn
    · rw [ofLiteral, dif_pos hn, dif_neg he]
      rfl
  rw [scaleChecked]
  rcases hsuffix : readSuffix suffix with _ | ⟨_ | _ | _, power⟩
  · rfl
  · obtain ⟨hlow, hhigh⟩ := (readSuffix_eq_some_iff.mp hsuffix).power_nonneg
    have hpow : Fits 128 ((1024 : Int) ^ power.toNat) := by
      have hmax : (1024 : Int) ^ power.toNat ≤ 1024 ^ 6 :=
        pow_le_pow_right₀ (by decide) (by omega)
      have hpos : (0 : Int) < 1024 ^ power.toNat := by positivity
      unfold Fits
      omega
    dsimp only
    rw [signed_of_fits hpow, signed_of_fits hplaces]
    by_cases hfits : Fits 128 (n * 1024 ^ power.toNat : Nat)
    · rw [if_pos hfits, ofLiteralChecked_eq hfits]
      rfl
    · rw [if_neg hfits, ofLiteral, dif_neg hfits]
      rfl
  · exact hdecimal
  · exact hdecimal

/-- The digits of a number are some of the characters of the text in which it stands. -/
theorem length_le_of_split {cs suffix : List Char} {d : DecimalNumber}
    (h : (Sign.split cs).2 = d.chars ++ suffix) : d.length ≤ cs.length := by
  have hcs := congrArg List.length (Sign.chars_append_split cs)
  have hchars := d.length_le
  rw [h] at hcs
  simp only [List.length_append] at hcs
  omega

/-- No operation on the way from a text to its amount, or to the fault that is found, leaves its
word. -/
theorem parseCharsChecked_eq (cs : List Char) : parseCharsChecked cs = .ok (parseChars cs) := by
  rw [parseCharsChecked, parseChars]
  by_cases hnil : cs = []
  · rw [if_pos hnil, if_pos hnil]
    rfl
  rw [if_neg hnil, if_neg hnil, splitSign_eq]
  rcases hnumber : splitNumber (Sign.split cs).2 with ⟨whole, fraction, suffix⟩
  simp only [hnumber]
  by_cases hne : whole = [] ∧ fraction = []
  · rw [if_pos hne, if_pos hne]
    rfl
  rw [if_neg hne, if_neg hne]
  by_cases hpoint : '.' ∈ fraction
  · rw [if_pos hpoint, if_pos hpoint]
    rfl
  rw [if_neg hpoint, if_neg hpoint]
  obtain ⟨d, rfl, rfl, hbody⟩ := exists_decimal hnumber hne hpoint
  rw [← DecimalNumber.length, count_of_le (length_le_of_split hbody)]
  by_cases hlength : d.length > maxDigits
  · rw [if_pos hlength, if_pos hlength]
    rfl
  rw [if_neg hlength, if_neg hlength]
  obtain ⟨hplaces, hplaces'⟩ := places_fits (Nat.not_lt.mp hlength)
  have hdigits := digits_fits (Nat.not_lt.mp hlength)
  have hvalue : valueChecked 0 (d.whole ++ d.fraction) = .ok d.digits :=
    valueChecked_eq d.isDigits_append hdigits
  have hscale := scaleChecked_eq cs (Sign.split cs).1.isNegative suffix hdigits hplaces'
  rw [hvalue, ← DecimalNumber.digits, ok_bind, ok_bind, if_pos hplaces]
  refine hscale.trans ?_
  rcases readSuffix suffix with _ | ⟨_ | _ | _, power⟩ <;> rfl

/-- A text is read if and only if it is a literal within the limits, and what is read is what the
literal writes, in the family of its suffix. No operation on the way overflows. -/
theorem parse_accepts_literals (s : String) :
    ((∃ q, Quantity.parse s = .ok q) ↔ ∃ l : Literal, l.chars = s.toList ∧ l.Admitted) ∧
    (∀ (q : Quantity) (l : Literal), Quantity.parse s = .ok q → l.chars = s.toList →
      q.value = l.value ∧ q.format = l.format) ∧
    parseCharsChecked s.toList = .ok (parseChars s.toList) := by
  have hparse (q : Quantity) : Quantity.parse s = .ok q ↔ parseChars s.toList = .ok q := by
    rw [Quantity.parse]
    cases parseChars s.toList <;> simp [Except.mapError]
  refine ⟨⟨?_, ?_⟩, ?_, parseCharsChecked_eq _⟩
  · rintro ⟨q, hq⟩
    rw [hparse] at hq
    obtain ⟨l, hl⟩ := exists_literal hq
    rw [← hl, parseChars_chars] at hq
    exact ⟨l, hl, Literal.admitted_of_read hq⟩
  · rintro ⟨l, hl, hadmitted⟩
    obtain ⟨q, hq⟩ := Literal.exists_read hadmitted
    refine ⟨q, (hparse q).mpr ?_⟩
    rw [← hl, parseChars_chars, hq]
  · intro q l hq hl
    rw [hparse, ← hl, parseChars_chars] at hq
    exact Literal.value_of_read hq

end KubeClient.Quantity
