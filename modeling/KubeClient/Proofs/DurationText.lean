import KubeClient.Proofs.Digits
import KubeClient.Scalar.Duration

/-!
# Texts of time spans

Reading the text of a span gives the span back.

* `Duration.component_text`, `Duration.component_toDigits` : a number with a unit reads as one
  component;
* `Duration.components_partText` : a component that is left out counts nothing;
* `Duration.components_magnitudeText` : the components of a magnitude add up to it;
* `Duration.parse_text_eq_ok` : the round trip.
-/

namespace KubeClient.Duration

open Numeral FixedPoint

/-! ### One component -/

/-- The text of a number: digits, and a point where there is a fraction. -/
def numberText (whole fraction : List Char) : List Char :=
  whole ++ if fraction = [] then [] else '.' :: fraction

/-- A text at which a unit may begin. -/
def StartsUnit (rest : List Char) : Prop :=
  ∃ c ∈ rest.head?, inUnit c = true

/-- A text at which a unit ends. -/
def EndsUnit (rest : List Char) : Prop :=
  ∀ c ∈ rest.head?, inUnit c = false

theorem isDigit_of_inUnit {c : Char} (h : inUnit c = true) : c.isDigit = false ∧ c ≠ '.' := by
  simpa [inUnit] using h

theorem StartsUnit.endsRun {rest : List Char} (h : StartsUnit rest) : EndsRun rest := by
  obtain ⟨c, hc, hunit⟩ := h
  intro d hd
  obtain rfl : c = d := Option.some.inj (hc.symm.trans hd)
  exact (isDigit_of_inUnit hunit).1

theorem splitNumber_numberText {whole fraction rest : List Char} (hwhole : IsDigits whole)
    (hfraction : IsDigits fraction) (hrest : StartsUnit rest) :
    splitNumber (numberText whole fraction ++ rest) = (whole, fraction, rest) := by
  have hpoint : rest.head? ≠ some '.' := by
    obtain ⟨c, hc, hunit⟩ := hrest
    intro h
    exact (isDigit_of_inUnit hunit).2 (Option.some.inj (hc.symm.trans h))
  rw [splitNumber, numberText, List.append_assoc]
  by_cases h : fraction = []
  · rw [if_pos h, List.nil_append, spanDigits_of_isDigits hwhole hrest.endsRun]
    simp [hpoint, h]
  · rw [if_neg h, List.cons_append,
      spanDigits_of_isDigits hwhole (endsRun_cons (by decide) (fraction ++ rest))]
    simp [spanDigits_of_isDigits hfraction hrest.endsRun]

theorem component_numberText {whole fraction unit rest : List Char} {scale : Nat}
    (hwhole : IsDigits whole) (hne : whole ≠ []) (hfraction : IsDigits fraction)
    (hunit : ∀ c ∈ unit, inUnit c = true) (hscale : unitScale unit = some scale)
    (hrest : EndsUnit rest) :
    component (numberText whole fraction ++ (unit ++ rest)) =
      (componentValue scale whole fraction).map (·, rest) := by
  have hunitne : unit ≠ [] := by
    rintro rfl
    cases hscale
  obtain ⟨c, cs, rfl⟩ := List.exists_cons_of_ne_nil hunitne
  have hstart : StartsUnit (c :: cs ++ rest) := ⟨c, rfl, hunit c List.mem_cons_self⟩
  rw [component, splitNumber_numberText hwhole hfraction hstart]
  simp only [takeWhile_run hunit hrest, dropWhile_run hunit hrest, hscale, hne, false_and, if_false,
    reduceCtorEq]

/-! ### Values -/

/-- The digits of a fraction of a decimal unit keep their places down to one nanosecond. -/
theorem fractionValue_eq (places : Nat) (ds : List Char) (h : ds.length ≤ places) :
    fractionValue (10 ^ places) ds = value ds * 10 ^ (places - ds.length) := by
  induction ds generalizing places with
  | nil => simp [fractionValue, value]
  | cons d ds ih =>
    obtain ⟨places, rfl⟩ : ∃ p, places = p + 1 := ⟨places - 1, by simp at h; omega⟩
    have hlen : ds.length ≤ places := by simpa using h
    have hplace : 10 ^ (places + 1) / 10 = 10 ^ places := by
      rw [Nat.pow_succ, Nat.mul_div_cancel _ (by decide)]
    have hpow : 10 ^ places = 10 ^ ds.length * 10 ^ (places - ds.length) := by
      rw [← Nat.pow_add, Nat.add_sub_cancel' hlen]
    have hne : 10 ^ places ≠ 0 := (Nat.pow_pos (by decide)).ne'
    rw [fractionValue, hplace, if_neg hne, ih places hlen, value_cons, List.length_cons,
      Nat.add_sub_add_right, Nat.add_mul, Nat.mul_assoc, ← hpow]

theorem componentValue_eq (scale : Nat) (whole fraction : List Char)
    (hwhole : value whole < 2 ^ 128) (hproduct : value whole * scale < 2 ^ 128) :
    componentValue scale whole fraction =
      .ok ((value whole * scale + fractionValue scale fraction) % 2 ^ 128) := by
  simp only [componentValue, word?, if_pos hwhole, if_pos hproduct, bind, Except.bind, pure,
    Except.pure]

/-- A fixed-point number with a unit of as many nanoseconds as it counts. -/
theorem component_text {n places : Nat} {unit rest : List Char} (hn : n < 2 ^ 64)
    (hunit : ∀ c ∈ unit, inUnit c = true) (hscale : unitScale unit = some (10 ^ places))
    (hrest : EndsUnit rest) :
    component (FixedPoint.text n places ++ (unit ++ rest)) = .ok (n, rest) := by
  have hwhole : n / 10 ^ places ≤ n := Nat.div_le_self _ _
  have hproduct : n / 10 ^ places * 10 ^ places ≤ n := Nat.div_mul_le_self _ _
  have hvalue := componentValue_eq (10 ^ places) (Nat.toDigits 10 (n / 10 ^ places))
    (fraction n places) (by rw [value_toDigits]; omega) (by rw [value_toDigits]; omega)
  rw [value_toDigits, fractionValue_eq places _ (length_fraction_le n places), value_fraction,
    Nat.div_add_mod', Nat.mod_eq_of_lt (by omega)] at hvalue
  rw [text_eq, ← numberText, component_numberText (isDigits_toDigits _) Nat.toDigits_ne_nil
    (isDigits_fraction n places) hunit hscale hrest, hvalue]
  rfl

/-- A whole number with a unit. -/
theorem component_toDigits {n scale : Nat} {unit rest : List Char} (hn : n < 2 ^ 128)
    (hproduct : n * scale < 2 ^ 128) (hunit : ∀ c ∈ unit, inUnit c = true)
    (hscale : unitScale unit = some scale) (hrest : EndsUnit rest) :
    component (Nat.toDigits 10 n ++ (unit ++ rest)) = .ok (n * scale, rest) := by
  have hvalue := componentValue_eq scale (Nat.toDigits 10 n) [] (by rwa [value_toDigits])
    (by rwa [value_toDigits])
  rw [value_toDigits, fractionValue, Nat.add_zero, Nat.mod_eq_of_lt hproduct] at hvalue
  have hfraction : IsDigits [] := by simp [IsDigits]
  have hcomponent := component_numberText (isDigits_toDigits n) Nat.toDigits_ne_nil hfraction hunit
    hscale hrest
  rw [numberText, if_pos rfl, List.append_nil, hvalue] at hcomponent
  rw [hcomponent]
  rfl

/-! ### Sums of components -/

theorem components_of_component {total n : Nat} {cs rest : List Char}
    (h : component cs = .ok (n, rest)) (hsum : total + n < 2 ^ 128) :
    components total cs = components (total + n) rest := by
  have hne : cs ≠ [] := by
    rintro rfl
    cases h
  have hword : word? (total + n) = .ok (total + n) := if_pos hsum
  rw [components, if_neg hne]
  split
  · rename_i hcs
    cases h.symm.trans hcs
  · rename_i p hcs
    obtain rfl : (n, rest) = p := Except.ok.inj (h.symm.trans hcs)
    simp only [hword]

theorem components_nil (total : Nat) : components total [] = .ok total := by
  rw [components, if_pos rfl]

theorem components_text {total n places : Nat} {unit : List Char} (hn : n < 2 ^ 64)
    (htotal : total < 2 ^ 64) (hunit : ∀ c ∈ unit, inUnit c = true)
    (hscale : unitScale unit = some (10 ^ places)) :
    components total (FixedPoint.text n places ++ unit) = .ok (total + n) := by
  have hend : EndsUnit [] := by simp [EndsUnit]
  have hcomponent := component_text hn hunit hscale hend
  rw [List.append_nil] at hcomponent
  rw [components_of_component hcomponent (by omega), components_nil]

theorem endsUnit_of_digits {ds : List Char} (hds : IsDigits ds) (hne : ds ≠ []) (rest : List Char) :
    EndsUnit (ds ++ rest) := by
  obtain ⟨d, ds, rfl⟩ := List.exists_cons_of_ne_nil hne
  rintro c ⟨⟩
  simp [inUnit, hds d List.mem_cons_self]

theorem endsUnit_text (n places : Nat) (rest : List Char) :
    EndsUnit (FixedPoint.text n places ++ rest) := by
  rw [text_eq, List.append_assoc]
  exact endsUnit_of_digits (isDigits_toDigits _) Nat.toDigits_ne_nil _

/-- A whole number with a unit, left out if `skip` holds. -/
def partText (skip : Prop) [Decidable skip] (n : Nat) (unit : Char) : List Char :=
  if skip then [] else Nat.toDigits 10 n ++ [unit]

theorem endsUnit_partText (skip : Prop) [Decidable skip] {rest : List Char} (h : EndsUnit rest)
    (n : Nat) (unit : Char) : EndsUnit (partText skip n unit ++ rest) := by
  unfold partText
  split
  · exact h
  · rw [List.append_assoc]
    exact endsUnit_of_digits (isDigits_toDigits n) Nat.toDigits_ne_nil _

/-- What is left out is zero, so the sum is the same. -/
theorem components_partText {skip : Prop} [Decidable skip] {total n scale : Nat} {unit : Char}
    {rest : List Char} (hskip : skip → n = 0) (hn : n < 2 ^ 64) (hsum : total + n * scale < 2 ^ 64)
    (hunit : inUnit unit = true) (hscale : unitScale [unit] = some scale) (hrest : EndsUnit rest) :
    components total (partText skip n unit ++ rest) = components (total + n * scale) rest := by
  unfold partText
  split
  · rename_i h
    rw [hskip h, Nat.zero_mul, Nat.add_zero, List.nil_append]
  · rw [List.append_assoc]
    refine components_of_component ?_ (by omega)
    exact component_toDigits (by omega) (by omega) (by simpa using hunit) hscale hrest

/-! ### Magnitudes -/

theorem components_clockText {n : Nat} (hn : n < 2 ^ 64) :
    components 0
      (partText (n / (3600 * 10 ^ 9) = 0) (n / (3600 * 10 ^ 9)) 'h' ++
        (partText (n / (3600 * 10 ^ 9) = 0 ∧ n % (3600 * 10 ^ 9) / (60 * 10 ^ 9) = 0)
          (n % (3600 * 10 ^ 9) / (60 * 10 ^ 9)) 'm' ++
        (FixedPoint.text (n % (60 * 10 ^ 9)) 9 ++ ['s']))) = .ok n := by
  have hseconds : EndsUnit (FixedPoint.text (n % (60 * 10 ^ 9)) 9 ++ ['s']) := by
    exact endsUnit_text _ 9 _
  rw [components_partText id (by omega) (by omega) (by decide) rfl
      (endsUnit_partText _ hseconds _ _),
    components_partText And.right (by omega) (by omega) (by decide) rfl hseconds,
    components_text (by omega) (by omega) (List.all_eq_true.mp rfl) rfl]
  congr 1
  omega

theorem components_magnitudeText {n : Nat} (hn : n < 2 ^ 64) :
    components 0 (magnitudeText n) = .ok n := by
  rw [magnitudeText]
  split_ifs with hmicro hmilli hsecond
  · rw [components_text hn (by decide) (List.all_eq_true.mp rfl) rfl, Nat.zero_add]
  · rw [components_text hn (by decide) (List.all_eq_true.mp rfl) rfl, Nat.zero_add]
  · rw [components_text hn (by decide) (List.all_eq_true.mp rfl) rfl, Nat.zero_add]
  · have hclock := components_clockText hn
    simpa only [partText, List.append_assoc] using hclock

theorem endsUnit_magnitudeText (n : Nat) : EndsUnit (magnitudeText n) := by
  rw [magnitudeText]
  split_ifs
  · exact endsUnit_text n 0 _
  · exact endsUnit_text n 3 _
  · exact endsUnit_text n 6 _
  · have hminutes := endsUnit_partText
      (n / (3600 * 10 ^ 9) = 0 ∧ n % (3600 * 10 ^ 9) / (60 * 10 ^ 9) = 0)
      (endsUnit_text (n % (60 * 10 ^ 9)) 9 ['s']) (n % (3600 * 10 ^ 9) / (60 * 10 ^ 9)) 'm'
    have hclock := endsUnit_partText (n / (3600 * 10 ^ 9) = 0) hminutes (n / (3600 * 10 ^ 9)) 'h'
    simpa only [partText, List.append_assoc] using hclock

/-! ### Signs -/

/-- A sign could be part of a unit, so no sign is read off a text that begins with a number. -/
theorem splitSign_of_endsUnit {cs : List Char} (h : EndsUnit cs) : splitSign cs = (false, cs) := by
  unfold splitSign
  split
  · exact absurd (h '-' rfl) (by decide)
  · exact absurd (h '+' rfl) (by decide)
  · rfl

theorem magnitudeText_ne_nil {n : Nat} (hn : n < 2 ^ 64) (h0 : n ≠ 0) : magnitudeText n ≠ [] := by
  intro hnil
  have hsum := components_magnitudeText hn
  rw [hnil, components_nil] at hsum
  exact h0 (Except.ok.inj hsum).symm

/-- Components that add up to the magnitude of a span. -/
theorem parseChars_of_components {d : Duration} {n : Nat} (negative : Bool)
    {cs body : List Char} (hsplit : splitSign cs = (negative, body)) (hne : body ≠ [])
    (hsum : components 0 body = .ok n) (hd : d.nanos = if negative then -(n : Int) else n) :
    parseChars cs = .ok d := by
  have hfits : ofNanos? (if negative then -(n : Int) else n) = some d := by
    rw [← hd, ofNanos?, dif_pos d.nanos_fits]
  simp only [parseChars, hsplit, if_neg hne, hsum, bind, Except.bind, hfits]

theorem parseChars_chars (d : Duration) : parseChars d.chars = .ok d := by
  obtain ⟨hlow, hhigh⟩ := d.nanos_fits
  have hn : d.nanos.natAbs < 2 ^ 64 := by omega
  by_cases hzero : d.nanos = 0
  · have hsum : components 0 (FixedPoint.text 0 9 ++ ['s']) = .ok (0 + 0) :=
      components_text (by decide) (by decide) (List.all_eq_true.mp rfl) rfl
    rw [chars, if_pos hzero]
    exact parseChars_of_components false rfl (by decide) hsum hzero
  have hsum := components_magnitudeText hn
  have hne := magnitudeText_ne_nil hn (by omega)
  rw [chars, if_neg hzero]
  by_cases hneg : d.nanos < 0
  · rw [if_pos hneg]
    refine parseChars_of_components true rfl hne hsum ?_
    simp only [if_true]
    omega
  · rw [if_neg hneg]
    refine parseChars_of_components false
      (splitSign_of_endsUnit (endsUnit_magnitudeText _)) hne hsum ?_
    simp only [Bool.false_eq_true, if_false]
    omega

theorem parse_text_eq_ok (d : Duration) : Duration.parse d.text = .ok d := by
  rw [Duration.parse, Duration.text, String.toList_ofList, parseChars_chars]
  rfl

end KubeClient.Duration
