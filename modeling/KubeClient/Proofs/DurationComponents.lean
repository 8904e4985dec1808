import Mathlib.Algebra.Order.BigOperators.Group.List
import Mathlib.Algebra.Order.Floor.Semifield
import Mathlib.Data.Rat.Floor
import KubeClient.Proofs.DurationText
import KubeClient.Proofs.Numerals
import KubeClient.Proofs.Outcomes

/-!
# Components of time spans

The grammar of the texts of spans, and what their components count.

* `Duration.units`, `Duration.Component` : a decimal number with a unit;
* `Duration.component_chars`, `Duration.exists_component` : reading one component;
* `Duration.components_chars`, `Duration.exists_components` : reading all of them;
* `Duration.Component.nanos`, `Duration.Component.counted`, `Duration.Component.kept` : the whole
  nanoseconds of a component, those that its digits count one by one, and those that the word keeps;
* `Duration.Component.counted_eq` : the first two agree for decimal units, and for fractions that do
  not split a nanosecond;
* `Duration.parse_counts_digits` : what the text of a span stands for.
-/

namespace KubeClient.Duration

open Numeral

/-! ### Units and components -/

/-- The units, with their nanoseconds. -/
def units : List (List Char × Nat) :=
  [(['n', 's'], 1), (['u', 's'], 1000), (['µ', 's'], 1000), (['μ', 's'], 1000),
    (['m', 's'], 1000000), (['s'], 1000000000), (['m'], 60 * 1000000000),
    (['h'], 60 * 60 * 1000000000)]

theorem unitScale_of_mem : ∀ unit ∈ units, unitScale unit.1 = some unit.2 := by
  decide

theorem unitScale_eq_some_iff {unit : List Char} {scale : Nat} :
    unitScale unit = some scale ↔ (unit, scale) ∈ units := by
  refine ⟨fun h => ?_, unitScale_of_mem (unit, scale)⟩
  unfold unitScale at h
  split at h
  case h_9 => cases h
  all_goals
    obtain rfl := Option.some.inj h
    simp [units]

/-- A component: a decimal number and a unit. -/
structure Component where
  number : DecimalNumber
  unit : List Char
  scale : Nat
  mem_units : (unit, scale) ∈ units

namespace Component

variable (c : Component)

/-- How a component is written. -/
def chars : List Char :=
  c.number.chars ++ c.unit

/-- The whole nanoseconds of a component. -/
def nanos : Nat :=
  ⌊c.number.value * c.scale⌋₊

/-- The nanoseconds of a component if every digit behind the point counts the whole nanoseconds of
its own place. -/
def counted : Nat :=
  Numeral.value c.number.whole * c.scale +
    (c.number.fraction.mapIdx fun i d => (d.toNat - 48) * (c.scale / 10 ^ (i + 1))).sum

/-- What the word of a total keeps of the nanoseconds that are counted. -/
def kept : Nat :=
  c.counted % 2 ^ 128

/-- The unit is a power of ten, or the last digit still stands for whole nanoseconds. -/
def IsResolved : Prop :=
  (∃ places, c.scale = 10 ^ places) ∨ 10 ^ c.number.fraction.length ∣ c.scale

end Component

/-! ### What digits count -/

theorem fractionValue_zero (ds : List Char) : fractionValue 0 ds = 0 := by
  cases ds <;> rfl

/-- The reader stops where a place is worth no nanosecond, and leaves out nothing by that. -/
theorem fractionValue_cons (place : Nat) (d : Char) (ds : List Char) :
    fractionValue place (d :: ds) =
      (d.toNat - 48) * (place / 10) + fractionValue (place / 10) ds := by
  rw [fractionValue]
  split_ifs with hzero
  · rw [hzero, fractionValue_zero, Nat.mul_zero]
  · rfl

theorem fractionValue_eq_sum (place : Nat) (ds : List Char) :
    fractionValue place ds =
      (ds.mapIdx fun i d => (d.toNat - 48) * (place / 10 ^ (i + 1))).sum := by
  induction ds generalizing place with
  | nil => rfl
  | cons d ds ih =>
    have hplaces (i : Nat) : place / 10 ^ (i + 1 + 1) = place / 10 / 10 ^ (i + 1) := by
      rw [Nat.div_div_eq_div_mul, ← Nat.pow_succ']
    rw [fractionValue_cons, ih, List.mapIdx_cons, List.sum_cons, Nat.zero_add, Nat.pow_one]
    simp only [hplaces]

/-- No digit counts more than its share. -/
theorem fractionValue_mul_le (place : Nat) (ds : List Char) :
    fractionValue place ds * 10 ^ ds.length ≤ place * value ds := by
  induction ds generalizing place with
  | nil => simp [fractionValue]
  | cons d ds ih =>
    have hplace : place / 10 * 10 ≤ place := Nat.div_mul_le_self _ _
    calc fractionValue place (d :: ds) * 10 ^ (d :: ds).length
        = (d.toNat - 48) * 10 ^ ds.length * (place / 10 * 10) +
            fractionValue (place / 10) ds * 10 ^ ds.length * 10 := by
          rw [fractionValue_cons, List.length_cons]
          ring
      _ ≤ (d.toNat - 48) * 10 ^ ds.length * place + place / 10 * value ds * 10 :=
          Nat.add_le_add (Nat.mul_le_mul_left _ hplace) (Nat.mul_le_mul_right _ (ih _))
      _ = (d.toNat - 48) * 10 ^ ds.length * place + value ds * (place / 10 * 10) := by ring
      _ ≤ (d.toNat - 48) * 10 ^ ds.length * place + value ds * place :=
          Nat.add_le_add_left (Nat.mul_le_mul_left _ hplace) _
      _ = place * value (d :: ds) := by
          rw [value_cons]
          ring

/-- Digits whose places are whole nanoseconds count their full shares. -/
theorem fractionValue_mul_eq {place : Nat} {ds : List Char} (h : 10 ^ ds.length ∣ place) :
    fractionValue place ds * 10 ^ ds.length = place * value ds := by
  induction ds generalizing place with
  | nil => simp [fractionValue, value]
  | cons d ds ih =>
    obtain ⟨k, rfl⟩ := h
    have hplace : 10 ^ (d :: ds).length * k / 10 = 10 ^ ds.length * k := by
      rw [List.length_cons, Nat.pow_succ, Nat.mul_right_comm]
      exact Nat.mul_div_cancel _ (by decide)
    have hds := ih (Nat.dvd_mul_right (10 ^ ds.length) k)
    rw [fractionValue_cons, hplace, Nat.add_mul, value_cons, List.length_cons, Nat.pow_succ,
      ← Nat.mul_assoc (fractionValue _ _), hds]
    ring

/-- The digits of a decimal unit count all of its whole nanoseconds, and those of further places
none. -/
theorem fractionValue_tenPow (places : Nat) {ds : List Char} (hds : IsDigits ds) :
    fractionValue (10 ^ places) ds = 10 ^ places * value ds / 10 ^ ds.length := by
  induction ds generalizing places with
  | nil => simp [fractionValue, value]
  | cons d ds ih =>
    cases places with
    | zero =>
      -- places below the nanosecond: no digit counts, and all of them are less than one
      rw [fractionValue_cons, pow_zero, Nat.one_mul, Nat.div_eq_of_lt (value_lt_pow hds)]
      simp [fractionValue_zero]
    | succ places =>
      have hplace : 10 ^ (places + 1) / 10 = 10 ^ places := by
        rw [Nat.pow_succ, Nat.mul_div_cancel _ (by decide)]
      have hpos : 0 < 10 ^ ds.length := Nat.pow_pos (by decide)
      have hshift : 10 ^ (places + 1) * value (d :: ds) =
          (10 ^ places * value ds + (d.toNat - 48) * 10 ^ places * 10 ^ ds.length) * 10 := by
        rw [value_cons]
        ring
      have hrest : IsDigits ds := fun c hc => hds c (List.mem_cons_of_mem d hc)
      rw [fractionValue_cons, hplace, ih places hrest, hshift, List.length_cons, Nat.pow_succ,
        Nat.mul_div_mul_right _ _ (by decide), Nat.add_mul_div_right _ _ hpos, Nat.add_comm]

namespace Component

variable (c : Component)

theorem nanos_eq : c.nanos = Numeral.value c.number.whole * c.scale +
    c.scale * Numeral.value c.number.fraction / 10 ^ c.number.fraction.length := by
  have hexact : c.number.value * c.scale =
      ((c.scale * Numeral.value c.number.fraction : Nat) : ℚ) /
        ((10 ^ c.number.fraction.length : Nat) : ℚ) +
      (Numeral.value c.number.whole * c.scale : Nat) := by
    rw [DecimalNumber.value]
    push_cast
    ring
  rw [nanos, hexact, Nat.floor_add_natCast (by positivity), Nat.floor_div_eq_div, Nat.add_comm]

theorem counted_eq_fractionValue : c.counted =
    Numeral.value c.number.whole * c.scale + fractionValue c.scale c.number.fraction := by
  rw [counted, fractionValue_eq_sum]

theorem counted_le : c.counted ≤ c.nanos := by
  have hpos : 0 < 10 ^ c.number.fraction.length := Nat.pow_pos (by decide)
  rw [nanos_eq, counted_eq_fractionValue]
  exact Nat.add_le_add_left ((Nat.le_div_iff_mul_le hpos).mpr (fractionValue_mul_le _ _)) _

theorem kept_le : c.kept ≤ c.counted :=
  Nat.mod_le _ _

variable {c}

theorem kept_eq (h : c.counted < 2 ^ 128) : c.kept = c.counted :=
  Nat.mod_eq_of_lt h

theorem counted_eq (h : c.IsResolved) : c.counted = c.nanos := by
  have hpos : 0 < 10 ^ c.number.fraction.length := Nat.pow_pos (by decide)
  rw [nanos_eq, counted_eq_fractionValue]
  rcases h with ⟨places, hplaces⟩ | hdvd
  · rw [hplaces, fractionValue_tenPow places c.number.isDigits_fraction]
  · rw [← fractionValue_mul_eq hdvd, Nat.mul_div_cancel _ hpos]

end Component

/-! ### Reading one component -/

theorem splitNumber_chars (d : DecimalNumber) {rest : List Char} (h : StartsUnit rest) :
    splitNumber (d.chars ++ rest) = (d.whole, d.fraction, rest) := by
  rw [splitNumber, DecimalNumber.chars, DecimalNumber.fraction]
  rcases hbehind : d.behind with _ | ds
  · have hpoint : rest.head? ≠ some '.' := by
      obtain ⟨c, hc, hunit⟩ := h
      intro heq
      exact (isDigit_of_inUnit hunit).2 (Option.some.inj (hc.symm.trans heq))
    rw [List.append_nil, spanDigits_of_isDigits d.isDigits_whole h.endsRun, if_neg hpoint,
      Option.getD_none]
  · have hds := spanDigits_of_isDigits (d.isDigits_behind ds hbehind) h.endsRun
    rw [List.append_assoc, List.cons_append,
      spanDigits_of_isDigits d.isDigits_whole (endsRun_cons (by decide) (ds ++ rest))]
    dsimp only
    rw [List.head?_cons, if_pos rfl, List.tail_cons, hds, Option.getD_some]

theorem isDigits_spanDigits (cs : List Char) : IsDigits (spanDigits cs).1 :=
  fun _ hc => List.mem_takeWhile_imp hc

/-- What reading finds in front of a unit is a number, if it finds a digit. -/
theorem exists_decimal {cs whole fraction rest : List Char}
    (h : splitNumber cs = (whole, fraction, rest)) (hne : ¬ (whole = [] ∧ fraction = [])) :
    ∃ d : DecimalNumber, d.whole = whole ∧ d.fraction = fraction ∧ cs = d.chars ++ rest := by
  have hwhole := isDigits_spanDigits cs
  have hcs := spanDigits_append cs
  unfold splitNumber at h
  dsimp only at h
  split_ifs at h with hpoint
  · obtain ⟨tail, htail⟩ := List.head?_eq_some_iff.mp hpoint
    rw [htail, List.tail_cons] at h
    obtain ⟨rfl, hrest⟩ := Prod.mk.inj h
    obtain ⟨rfl, rfl⟩ := Prod.mk.inj hrest
    have hdigit : (spanDigits cs).1 ≠ [] ∨ ∃ ds ∈ some (spanDigits tail).1, ds ≠ [] := by
      by_cases hnil : (spanDigits cs).1 = []
      · exact .inr ⟨_, rfl, fun hds => hne ⟨hnil, hds⟩⟩
      · exact .inl hnil
    refine ⟨⟨_, some _, hwhole, ?_, hdigit⟩, rfl, rfl, ?_⟩
    · rintro ds ⟨⟩
      exact isDigits_spanDigits tail
    · have hparts : cs =
          (spanDigits cs).1 ++ '.' :: ((spanDigits tail).1 ++ (spanDigits tail).2) := by
        rw [spanDigits_append, ← htail, hcs]
      rw [DecimalNumber.chars, List.append_assoc]
      exact hparts
  · obtain ⟨rfl, hrest⟩ := Prod.mk.inj h
    obtain ⟨rfl, rfl⟩ := Prod.mk.inj hrest
    refine ⟨⟨_, none, hwhole, by simp, .inl fun hnil => hne ⟨hnil, rfl⟩⟩, rfl, rfl, ?_⟩
    rw [DecimalNumber.chars, List.append_nil, hcs]

theorem inUnit_of_mem_units {unit : List Char} {scale : Nat} (h : (unit, scale) ∈ units) :
    unit ≠ [] ∧ ∀ c ∈ unit, inUnit c = true := by
  have hall : ∀ unit ∈ units, unit.1 ≠ [] ∧ unit.1.all inUnit = true := by decide
  obtain ⟨hne, hunit⟩ := hall _ h
  exact ⟨hne, List.all_eq_true.mp hunit⟩

/-- The number of a component ends where its unit begins. -/
theorem Component.startsUnit (c : Component) (rest : List Char) : StartsUnit (c.unit ++ rest) := by
  obtain ⟨hne, hunit⟩ := inUnit_of_mem_units c.mem_units
  obtain ⟨u, us, hcons⟩ := List.exists_cons_of_ne_nil hne
  exact ⟨u, by rw [hcons]; rfl, hunit u (hcons ▸ List.mem_cons_self)⟩

/-- A component reads as what its digits count, if words hold it. -/
theorem component_chars (c : Component) {rest : List Char} (h : EndsUnit rest) :
    component (c.chars ++ rest) =
      (componentValue c.scale c.number.whole c.number.fraction).map (·, rest) := by
  obtain ⟨hne, hunit⟩ := inUnit_of_mem_units c.mem_units
  have hscale := unitScale_eq_some_iff.mpr c.mem_units
  rw [component, Component.chars, List.append_assoc,
    splitNumber_chars c.number (c.startsUnit rest)]
  simp only [takeWhile_run hunit h, dropWhile_run hunit h, hscale, if_neg c.number.ne_nil,
    if_neg hne]

/-- Words hold the whole number and its product with the unit, or there is no value. -/
theorem componentValue_eq_ok {scale n : Nat} {whole fraction : List Char}
    (h : componentValue scale whole fraction = .ok n) :
    n = (value whole * scale + fractionValue scale fraction) % 2 ^ 128 := by
  by_cases hwhole : value whole < 2 ^ 128
  · by_cases hproduct : value whole * scale < 2 ^ 128
    · rw [componentValue_eq scale whole fraction hwhole hproduct] at h
      exact (Except.ok.inj h).symm
    · simp only [componentValue, word?, if_pos hwhole, if_neg hproduct, bind, Except.bind,
        reduceCtorEq] at h
  · simp only [componentValue, word?, if_neg hwhole, bind, Except.bind, reduceCtorEq] at h

theorem component_chars_eq_ok {c : Component} {rest tail : List Char} {n : Nat}
    (hrest : EndsUnit rest) (h : component (c.chars ++ rest) = .ok (n, tail)) :
    n = c.kept ∧ tail = rest := by
  rw [component_chars c hrest] at h
  obtain ⟨m, hm, hpair⟩ := exists_of_map_ok h
  obtain ⟨rfl, rfl⟩ := Prod.mk.inj hpair
  rw [Component.kept, c.counted_eq_fractionValue, componentValue_eq_ok hm]
  exact ⟨rfl, rfl⟩

/-- Nothing but components is read. -/
theorem exists_component {cs rest : List Char} {n : Nat} (h : component cs = .ok (n, rest)) :
    ∃ c : Component, cs = c.chars ++ rest ∧ n = c.kept := by
  rcases hnumber : splitNumber cs with ⟨whole, fraction, tail⟩
  unfold component at h
  simp only [hnumber] at h
  split_ifs at h with hne hunit
  obtain ⟨d, rfl, rfl, rfl⟩ := exists_decimal hnumber hne
  rcases hscale : unitScale (tail.takeWhile inUnit) with _ | scale
  · rw [hscale] at h
    cases h
  · rw [hscale] at h
    obtain ⟨m, hvalue, hpair⟩ := exists_of_map_ok h
    obtain ⟨rfl, rfl⟩ := Prod.mk.inj hpair
    refine ⟨⟨d, tail.takeWhile inUnit, scale, unitScale_eq_some_iff.mp hscale⟩, ?_, ?_⟩
    · rw [Component.chars, List.append_assoc, List.takeWhile_append_dropWhile]
    · rw [Component.kept, Component.counted_eq_fractionValue, componentValue_eq_ok hvalue]

/-! ### Reading all components -/

/-- One component is read and counted, then the rest. -/
theorem exists_of_components {total m : Nat} {cs : List Char} (hne : cs ≠ [])
    (h : components total cs = .ok m) :
    ∃ n rest, component cs = .ok (n, rest) ∧ components (total + n) rest = .ok m := by
  rw [components, if_neg hne] at h
  split at h
  · cases h
  · rename_i p hp
    by_cases hfits : total + p.1 < 2 ^ 128
    · rw [word?, if_pos hfits] at h
      exact ⟨p.1, p.2, hp, h⟩
    · rw [word?, if_neg hfits] at h
      cases h

/-- A unit ends where the next component begins. -/
theorem endsUnit_chars (comps : List Component) : EndsUnit (comps.flatMap Component.chars) := by
  cases comps with
  | nil => simp [EndsUnit]
  | cons c comps =>
    obtain ⟨d, ds, hchars, hd⟩ := c.number.exists_head
    rw [List.flatMap_cons, Component.chars, hchars]
    rintro _ ⟨⟩
    rcases hd with hd | rfl
    · simp [inUnit, hd]
    · rfl

theorem unsigned_chars (comps : List Component) :
    Sign.Unsigned (comps.flatMap Component.chars) := by
  cases comps with
  | nil => simp [Sign.Unsigned]
  | cons c comps =>
    rw [List.flatMap_cons, Component.chars, List.append_assoc]
    exact c.number.unsigned _

/-- Components in a row add what is kept of each of them. -/
theorem components_chars {total n : Nat} {comps : List Component}
    (h : components total (comps.flatMap Component.chars) = .ok n) :
    n = total + (comps.map Component.kept).sum := by
  induction comps generalizing total with
  | nil => exact (Except.ok.inj ((components_nil total).symm.trans h)).symm
  | cons c comps ih =>
    have hne : (c :: comps).flatMap Component.chars ≠ [] := by
      obtain ⟨d, ds, hchars, -⟩ := c.number.exists_head
      rw [List.flatMap_cons, Component.chars, hchars]
      exact List.cons_ne_nil _ _
    obtain ⟨m, rest, hcomponent, hrest⟩ := exists_of_components hne h
    -- the unit ends where the next number begins, so the reader stops between two components
    obtain ⟨rfl, rfl⟩ := component_chars_eq_ok (endsUnit_chars comps) hcomponent
    rw [ih hrest, List.map_cons, List.sum_cons, Nat.add_assoc]

/-- Nothing but components in a row is read. The induction is on the text that is left. -/
theorem exists_components {total n : Nat} {cs : List Char} (h : components total cs = .ok n) :
    ∃ comps : List Component, cs = comps.flatMap Component.chars := by
  by_cases hne : cs = []
  · exact ⟨[], hne⟩
  · obtain ⟨m, rest, hcomponent, hrest⟩ := exists_of_components hne h
    obtain ⟨c, hcs, -⟩ := exists_component hcomponent
    obtain ⟨comps, hcomps⟩ := exists_components hrest
    exact ⟨c :: comps, by rw [hcs, hcomps, List.flatMap_cons]⟩
termination_by cs.length
decreasing_by exact component_length hcomponent

/-! ### Texts of spans -/

theorem splitSign_eq (cs : List Char) :
    splitSign cs = ((Sign.split cs).1.isNegative, (Sign.split cs).2) := by
  unfold splitSign
  split
  · rfl
  · rfl
  · rename_i hminus hplus
    rw [Sign.split_of_ne hminus hplus]
    rfl

theorem nanos_of_ofNanos? {n : Int} {d : Duration} (h : ofNanos? n = some d) : d.nanos = n := by
  unfold ofNanos? at h
  split at h
  · rw [← Option.some.inj h]
  · cases h

theorem parseChars_of_parse {s : String} {d : Duration} (h : Duration.parse s = .ok d) :
    parseChars s.toList = .ok d := by
  rw [Duration.parse] at h
  cases hchars : parseChars s.toList with
  | error =>
    rw [hchars] at h
    cases h
  | ok e =>
    rw [hchars] at h
    rw [Except.ok.inj h]

/-- What is read is a sign in front of components. -/
theorem exists_of_parseChars {cs : List Char} {d : Duration} (h : parseChars cs = .ok d) :
    ∃ n : Nat, components 0 (Sign.split cs).2 = .ok n ∧
      d.nanos = (Sign.split cs).1.apply (n : Int) := by
  simp only [parseChars, splitSign_eq] at h
  by_cases hnil : (Sign.split cs).2 = []
  · rw [if_pos hnil] at h
    cases h
  rw [if_neg hnil] at h
  cases hsum : components 0 (Sign.split cs).2 with
  | error e =>
    rw [hsum] at h
    cases h
  | ok n =>
    rw [hsum] at h
    refine ⟨n, rfl, ?_⟩
    rw [Sign.apply_eq_ite]
    simp only [bind, Except.bind] at h
    split at h
    · rename_i e he
      obtain rfl := Except.ok.inj h
      exact nanos_of_ofNanos? he
    · cases h

/-- Components of which not all whole nanoseconds are kept add up to less. -/
theorem sum_kept_eq_iff (comps : List Component) :
    (comps.map Component.kept).sum = (comps.map Component.nanos).sum ↔
      ∀ c ∈ comps, c.kept = c.nanos := by
  induction comps with
  | nil => simp
  | cons c comps ih =>
    have hle (c : Component) : c.kept ≤ c.nanos := c.kept_le.trans c.counted_le
    have hc := hle c
    have hcomps : (comps.map Component.kept).sum ≤ (comps.map Component.nanos).sum :=
      List.sum_le_sum fun c _ => hle c
    rw [List.forall_mem_cons, ← ih, List.map_cons, List.map_cons, List.sum_cons, List.sum_cons]
    omega

/-- A text of a span is a sign and components, and stands for what the word keeps of the nanoseconds
that their digits count: all of them, unless a fraction takes a component beyond the word. A
component counts its whole nanoseconds if its unit is a power of ten or its last digit still stands
for whole nanoseconds; another one may count less, never more. -/
theorem parse_counts_digits {s : String} {d : Duration} (h : Duration.parse s = .ok d) :
    (∃ (sign : Sign) (comps : List Component),
      s.toList = sign.chars ++ comps.flatMap Component.chars) ∧
    ∀ (sign : Sign) (comps : List Component),
      s.toList = sign.chars ++ comps.flatMap Component.chars →
      d.nanos = sign.apply (((comps.map Component.kept).sum : Nat) : Int) ∧
      (∀ c ∈ comps, (c.counted < 2 ^ 128 → c.kept = c.counted) ∧ c.kept ≤ c.counted ∧
        c.counted ≤ c.nanos ∧ (c.IsResolved → c.counted = c.nanos)) ∧
      (d.nanos = sign.apply (((comps.map Component.nanos).sum : Nat) : Int) ↔
        ∀ c ∈ comps, c.kept = c.nanos) := by
  obtain ⟨n, hsum, hnanos⟩ := exists_of_parseChars (parseChars_of_parse h)
  constructor
  · obtain ⟨comps, hcomps⟩ := exists_components hsum
    exact ⟨(Sign.split s.toList).1, comps, by rw [← hcomps, Sign.chars_append_split]⟩
  · -- no component begins with a sign, so the text has no other sign and no other components
    intro sign comps hchars
    have hunsigned : Sign.Unsigned (comps.flatMap Component.chars) := unsigned_chars comps
    rw [hchars, Sign.split_chars_append sign hunsigned] at hsum hnanos
    have hkept : d.nanos = sign.apply (((comps.map Component.kept).sum : Nat) : Int) := by
      rw [hnanos, components_chars hsum, Nat.zero_add]
    refine ⟨hkept, fun c _ => ⟨c.kept_eq, c.kept_le, c.counted_le, c.counted_eq⟩, ?_⟩
    rw [hkept, Sign.apply_inj, Nat.cast_inj, sum_kept_eq_iff]

/-- Thirty and a half minutes: the last digit stands for six seconds. -/
def halfHour : Component where
  number :=
    { whole := ['3', '0']
      behind := some ['5']
      isDigits_whole := List.all_eq_true.mp rfl
      isDigits_behind := by rintro _ ⟨⟩; exact List.all_eq_true.mp rfl
      has_digit := .inl (by decide) }
  unit := ['m']
  scale := 60 * 10 ^ 9
  mem_units := by decide

/-- A fraction of a minute whose last digit stands for less than a nanosecond. -/
def speck : Component where
  number :=
    { whole := ['0']
      behind := some ['0', '0', '0', '0', '0', '0', '0', '0', '0', '0', '9']
      isDigits_whole := List.all_eq_true.mp rfl
      isDigits_behind := by rintro _ ⟨⟩; exact List.all_eq_true.mp rfl
      has_digit := .inl (by decide) }
  unit := ['m']
  scale := 60 * 10 ^ 9
  mem_units := by decide

/-- More nanoseconds than the word holds, by the digit behind the point. -/
def brimful : Component where
  number :=
    { whole := "340282366920938463463374607431".toList
      behind := some ['9']
      isDigits_whole := List.all_eq_true.mp (by decide)
      isDigits_behind := by rintro _ ⟨⟩; exact List.all_eq_true.mp rfl
      has_digit := .inl (by decide) }
  unit := ['s']
  scale := 10 ^ 9
  mem_units := by decide

theorem parse_counts_digits_halfHour :
    Duration.parse "-30.5m0.00000000009m" = .ok ⟨-1830000000000, by decide⟩ ∧
    "-30.5m0.00000000009m".toList = Sign.minus.chars ++ [halfHour, speck].flatMap Component.chars ∧
    halfHour.IsResolved ∧
    (-1830000000000 : Int) =
      Sign.minus.apply ((([halfHour, speck].map Component.kept).sum : Nat) : Int) ∧
    halfHour.kept = halfHour.nanos ∧ speck.counted ≤ speck.nanos := by
  have hparse : Duration.parse "-30.5m0.00000000009m" = .ok ⟨-1830000000000, by decide⟩ := by
    decide +kernel
  have hchars : "-30.5m0.00000000009m".toList =
      Sign.minus.chars ++ [halfHour, speck].flatMap Component.chars := by
    decide
  have hresolved : halfHour.IsResolved := .inr (by decide)
  obtain ⟨hnanos, hcounted, -⟩ := (parse_counts_digits hparse).2 .minus [halfHour, speck] hchars
  obtain ⟨hfits, -, -, hwhole⟩ := hcounted halfHour (by simp)
  obtain ⟨-, -, hle, -⟩ := hcounted speck (by simp)
  exact ⟨hparse, hchars, hresolved, hnanos, (hfits (by decide)).trans (hwhole hresolved), hle⟩

/-- Nine hundred-billionths of a minute are five whole nanoseconds, but count none. Where a fraction
takes a component beyond the word, hardly anything is kept of it, and it is accepted. -/
theorem speck_uncounted :
    (Duration.parse "0.00000000009m" = .ok ⟨0, by decide⟩ ∧
      "0.00000000009m".toList = Sign.none.chars ++ [speck].flatMap Component.chars ∧
      speck.counted = 0 ∧ speck.nanos = 5) ∧
    Duration.parse "340282366920938463463374607431.9s" = .ok ⟨131788544, by decide⟩ ∧
    "340282366920938463463374607431.9s".toList =
      Sign.none.chars ++ [brimful].flatMap Component.chars ∧
    brimful.kept = 131788544 ∧ brimful.nanos = 340282366920938463463374607431900000000 := by
  have hspeck : speck.nanos = 5 := by
    rw [Component.nanos_eq]
    decide
  have hbrimful : brimful.nanos = 340282366920938463463374607431900000000 := by
    rw [Component.nanos_eq]
    decide
  exact ⟨⟨by decide +kernel, by decide, by decide, hspeck⟩, by decide +kernel, by decide,
    by decide, hbrimful⟩

end KubeClient.Duration
