import KubeClient.Proofs.DurationComponents

/-!
# The grammar of time spans

Which texts are spans, and what they stand for, as long as no digit lies below the nanosecond.

* `Duration.resolution` : the places behind the point that a unit splits into whole nanoseconds;
* `Duration.Component.span` : the nanoseconds of a component, exactly;
* `Duration.components_chars_of_lt` : components are read if words hold their sum;
* `Duration.written_unique` : a text has one sign and one row of components;
* `Duration.parse_accepts_sums` : a text is accepted exactly if it is a sum that the word of a span
  holds.
-/

namespace KubeClient.Duration

open Numeral

/-! ### Exact components -/

/-- The places behind the point that a unit splits into whole nanoseconds. -/
def resolution : List Char → Nat
  | ['n', 's'] => 0
  | ['u', 's'] => 3
  | ['µ', 's'] => 3
  | ['μ', 's'] => 3
  | ['m', 's'] => 6
  | ['s'] => 9
  | ['m'] => 10
  | ['h'] => 11
  | _ => 0

/-- A unit splits into as many places as its resolution says, and into no more. -/
theorem tenPow_resolution_dvd : ∀ unit ∈ units,
    10 ^ resolution unit.1 ∣ unit.2 ∧ ¬ 10 ^ (resolution unit.1 + 1) ∣ unit.2 := by
  decide

theorem one_le_scale : ∀ unit ∈ units, 1 ≤ unit.2 := by
  decide

namespace Component

variable {c : Component}

/-- The nanoseconds of a component, exactly. -/
def span (c : Component) : ℚ :=
  c.number.value * c.scale

/-- Digits within the resolution of the unit are all counted. -/
theorem counted_eq_span (h : c.number.fraction.length ≤ resolution c.unit) :
    (c.counted : ℚ) = c.span := by
  have hdvd : 10 ^ c.number.fraction.length ∣ c.scale :=
    (Nat.pow_dvd_pow 10 h).trans (tenPow_resolution_dvd _ c.mem_units).1
  have hfraction : (fractionValue c.scale c.number.fraction : ℚ) * 10 ^ c.number.fraction.length =
      c.scale * Numeral.value c.number.fraction := by
    exact_mod_cast fractionValue_mul_eq hdvd
  rw [span, DecimalNumber.value, counted_eq_fractionValue]
  push_cast
  field_simp
  rw [add_mul, hfraction]
  ring

theorem sum_counted_eq_span {comps : List Component}
    (h : ∀ c ∈ comps, c.number.fraction.length ≤ resolution c.unit) :
    (((comps.map counted).sum : Nat) : ℚ) = (comps.map span).sum := by
  induction comps with
  | nil => rfl
  | cons c comps ih =>
    obtain ⟨hc, hcomps⟩ := List.forall_mem_cons.mp h
    rw [List.map_cons, List.map_cons, List.sum_cons, List.sum_cons, Nat.cast_add,
      counted_eq_span hc, ih hcomps]

/-- Words keep all that is counted if they hold the nanoseconds of each component. -/
theorem map_kept_eq {comps : List Component}
    (h : ∀ c ∈ comps, c.number.fraction.length ≤ resolution c.unit ∧ c.span < 2 ^ 128) :
    comps.map kept = comps.map counted := by
  refine List.map_congr_left fun c hc => kept_eq ?_
  obtain ⟨hresolved, hspan⟩ := h c hc
  rw [← counted_eq_span hresolved] at hspan
  exact_mod_cast hspan

end Component

/-! ### What is read -/

/-- A component is read if words hold what it counts. -/
theorem component_chars_of_lt {c : Component} {rest : List Char} (hrest : EndsUnit rest)
    (hfits : c.counted < 2 ^ 128) : component (c.chars ++ rest) = .ok (c.counted, rest) := by
  have hcounted := c.counted_eq_fractionValue
  have hwhole : value c.number.whole ≤ value c.number.whole * c.scale :=
    Nat.le_mul_of_pos_right _ (one_le_scale _ c.mem_units)
  rw [component_chars c hrest, componentValue_eq _ _ _ (by omega) (by omega), ← hcounted,
    Nat.mod_eq_of_lt hfits]
  rfl

/-- Components in a row are read if words hold their sum. -/
theorem components_chars_of_lt {total : Nat} {comps : List Component}
    (hfits : total + (comps.map Component.counted).sum < 2 ^ 128) :
    components total (comps.flatMap Component.chars) =
      .ok (total + (comps.map Component.counted).sum) := by
  -- what has been counted so far is general
  induction comps generalizing total with
  | nil => exact components_nil total
  | cons c comps ih =>
    rw [List.map_cons, List.sum_cons] at hfits ⊢
    have hcomponent : component (c.chars ++ comps.flatMap Component.chars) = .ok (c.counted, _) :=
      component_chars_of_lt (endsUnit_chars comps) (by omega)
    rw [List.flatMap_cons, components_of_component hcomponent (by omega), ih (by omega),
      Nat.add_assoc]

theorem flatMap_chars_ne_nil {comps : List Component} (h : comps ≠ []) :
    comps.flatMap Component.chars ≠ [] := by
  obtain ⟨c, comps, rfl⟩ := List.exists_cons_of_ne_nil h
  obtain ⟨d, ds, hchars, -⟩ := c.number.exists_head
  rw [List.flatMap_cons, Component.chars, hchars]
  exact List.cons_ne_nil _ _

/-- A sign in front of components is read if the word of a span holds their signed sum. -/
theorem parseChars_written {sign : Sign} {comps : List Component} {d : Duration}
    (hne : comps ≠ [])
    (hd : d.nanos = sign.apply (((comps.map Component.counted).sum : Nat) : Int)) :
    parseChars (sign.chars ++ comps.flatMap Component.chars) = .ok d := by
  have hroom := (fits_apply_iff sign).mp (hd ▸ d.nanos_fits)
  have hfits : 0 + (comps.map Component.counted).sum < 2 ^ 128 := by
    unfold room at hroom
    split at hroom <;> omega
  have hsum := components_chars_of_lt hfits
  rw [Nat.zero_add] at hsum
  have hsplit : splitSign (sign.chars ++ comps.flatMap Component.chars) =
      (sign.isNegative, comps.flatMap Component.chars) := by
    rw [splitSign_eq, Sign.split_chars_append sign (unsigned_chars comps)]
  refine parseChars_of_components sign.isNegative hsplit (flatMap_chars_ne_nil hne) hsum ?_
  rw [hd, Sign.apply_eq_ite]

/-- A text that is read is a sign in front of components, at least one, and stands for what is kept
of them. -/
theorem exists_written {cs : List Char} {d : Duration} (h : parseChars cs = .ok d) :
    ∃ (sign : Sign) (comps : List Component),
      cs = sign.chars ++ comps.flatMap Component.chars ∧ comps ≠ [] ∧
      d.nanos = sign.apply (((comps.map Component.kept).sum : Nat) : Int) := by
  obtain ⟨n, hsum, hnanos⟩ := exists_of_parseChars h
  obtain ⟨comps, hcomps⟩ := exists_components hsum
  rw [hcomps] at hsum
  refine ⟨(Sign.split cs).1, comps, by rw [← hcomps, Sign.chars_append_split], ?_, ?_⟩
  · rintro rfl
    have hnil : (splitSign cs).2 = [] := by rw [splitSign_eq, hcomps, List.flatMap_nil]
    rw [parseChars] at h
    simp only [hnil, if_true] at h
    cases h
  · rw [hnanos, components_chars hsum, Nat.zero_add]

/-! ### One way of reading -/

/-- The digits in front of a unit are those of one number. -/
theorem decimal_unique {m n : DecimalNumber} {rest tail : List Char} (hrest : StartsUnit rest)
    (htail : StartsUnit tail) (h : m.chars ++ rest = n.chars ++ tail) : m = n ∧ rest = tail := by
  have hsplit := splitNumber_chars m hrest
  rw [h, splitNumber_chars n htail] at hsplit
  obtain ⟨hwhole, hbehind⟩ := Prod.mk.inj hsplit
  obtain ⟨-, rfl⟩ := Prod.mk.inj hbehind
  refine ⟨?_, rfl⟩
  -- the reader does not tell a point without digits behind it from none, but the text does
  have hchars := List.append_cancel_right h
  obtain ⟨whole, behind⟩ := m
  obtain ⟨whole', behind'⟩ := n
  obtain rfl : whole' = whole := hwhole
  have hpoint := List.append_cancel_left hchars
  cases behind <;> cases behind' <;> simp_all

theorem component_unique {b c : Component} {rest tail : List Char} (hrest : EndsUnit rest)
    (htail : EndsUnit tail) (h : b.chars ++ rest = c.chars ++ tail) : b = c ∧ rest = tail := by
  rw [Component.chars, Component.chars, List.append_assoc, List.append_assoc] at h
  obtain ⟨hnumber, hunit⟩ := decimal_unique (b.startsUnit rest) (c.startsUnit tail) h
  have hb := (inUnit_of_mem_units b.mem_units).2
  have hc := (inUnit_of_mem_units c.mem_units).2
  -- a unit ends where the next number starts
  have hname : b.unit = c.unit := by
    rw [← takeWhile_run hb hrest, hunit, takeWhile_run hc htail]
  have hscale : some b.scale = some c.scale := by
    rw [← unitScale_eq_some_iff.mpr b.mem_units, hname, unitScale_eq_some_iff.mpr c.mem_units]
  refine ⟨?_, List.append_cancel_left (hname ▸ hunit)⟩
  obtain ⟨number, unit, scale, _⟩ := b
  obtain ⟨number', unit', scale', _⟩ := c
  obtain rfl : number = number' := hnumber
  obtain rfl : unit = unit' := hname
  obtain rfl : scale = scale' := Option.some.inj hscale
  rfl

/-- Components in a row need nothing between them to be told apart. -/
theorem flatMap_chars_injective {bs cs : List Component}
    (h : bs.flatMap Component.chars = cs.flatMap Component.chars) : bs = cs := by
  induction bs generalizing cs with
  | nil =>
    by_contra hne
    exact flatMap_chars_ne_nil (Ne.symm hne) h.symm
  | cons b bs ih =>
    cases cs with
    | nil => exact absurd h (flatMap_chars_ne_nil (List.cons_ne_nil b bs))
    | cons c cs =>
      rw [List.flatMap_cons, List.flatMap_cons] at h
      obtain ⟨rfl, hrest⟩ := component_unique (endsUnit_chars bs) (endsUnit_chars cs) h
      rw [ih hrest]

/-- A text has one sign and one row of components. -/
theorem written_unique {sign sign' : Sign} {comps comps' : List Component}
    (h : sign.chars ++ comps.flatMap Component.chars =
      sign'.chars ++ comps'.flatMap Component.chars) : sign = sign' ∧ comps = comps' := by
  have hsplit := congrArg Sign.split h
  rw [Sign.split_chars_append sign (unsigned_chars comps),
    Sign.split_chars_append sign' (unsigned_chars comps')] at hsplit
  obtain ⟨hsign, hcomps⟩ := Prod.mk.inj hsplit
  exact ⟨hsign, flatMap_chars_injective hcomps⟩

/-! ### The accepted texts -/

theorem parse_eq_ok_iff {s : String} {d : Duration} :
    Duration.parse s = .ok d ↔ parseChars s.toList = .ok d := by
  refine ⟨parseChars_of_parse, fun h => ?_⟩
  rw [Duration.parse, h]
  rfl

/-- The largest magnitude of a span; below zero there is one more. -/
def limit (sign : Sign) : ℚ :=
  if sign.isNegative then 2 ^ 63 else 2 ^ 63 - 1

/-- A whole number of nanoseconds makes a span if it is within the limit. -/
theorem cast_le_limit_iff (sign : Sign) (n : Nat) :
    (n : ℚ) ≤ limit sign ↔ Fits 64 (sign.apply (n : Int)) := by
  rw [fits_apply_iff, room, limit]
  have hlimit : (if sign.isNegative then 2 ^ 63 else 2 ^ 63 - 1 : ℚ) =
      ((2 ^ 63 - 1 + if sign.isNegative then 1 else 0 : Nat) : ℚ) := by
    split <;> norm_num
  rw [hlimit, Nat.cast_le]
  omega

/-- A text none of whose components has digits below the nanosecond, or more nanoseconds than words
of 128 bits hold, is accepted exactly if it is an optional sign in front of components, at least
one, whose exact sum is within the limit; it then stands for the signed sum. -/
theorem parse_accepts_sums {s : String}
    (hexact : ∀ (sign : Sign) (comps : List Component),
      s.toList = sign.chars ++ comps.flatMap Component.chars →
      ∀ c ∈ comps, c.number.fraction.length ≤ resolution c.unit ∧ c.span < 2 ^ 128) :
    ((∃ d, Duration.parse s = .ok d) ↔ ∃ (sign : Sign) (comps : List Component),
      s.toList = sign.chars ++ comps.flatMap Component.chars ∧ comps ≠ [] ∧
      (comps.map Component.span).sum ≤ limit sign) ∧
    ∀ d, Duration.parse s = .ok d → ∀ (sign : Sign) (comps : List Component),
      s.toList = sign.chars ++ comps.flatMap Component.chars →
      (d.nanos : ℚ) = sign.apply (comps.map Component.span).sum := by
  have hsum (sign : Sign) (comps : List Component)
      (hchars : s.toList = sign.chars ++ comps.flatMap Component.chars) :
      (((comps.map Component.counted).sum : Nat) : ℚ) = (comps.map Component.span).sum :=
    Component.sum_counted_eq_span fun c hc => (hexact sign comps hchars c hc).1
  have hkept (sign : Sign) (comps : List Component)
      (hchars : s.toList = sign.chars ++ comps.flatMap Component.chars) :
      comps.map Component.kept = comps.map Component.counted :=
    Component.map_kept_eq (hexact sign comps hchars)
  refine ⟨⟨?_, ?_⟩, ?_⟩
  · rintro ⟨d, hd⟩
    obtain ⟨sign, comps, hchars, hne, hnanos⟩ := exists_written (parse_eq_ok_iff.mp hd)
    refine ⟨sign, comps, hchars, hne, ?_⟩
    rw [← hsum sign comps hchars, cast_le_limit_iff, ← hkept sign comps hchars, ← hnanos]
    exact d.nanos_fits
  · rintro ⟨sign, comps, hchars, hne, hlimit⟩
    rw [← hsum sign comps hchars, cast_le_limit_iff] at hlimit
    refine ⟨⟨_, hlimit⟩, parse_eq_ok_iff.mpr ?_⟩
    rw [hchars]
    exact parseChars_written hne rfl
  · intro d hd sign comps hchars
    obtain ⟨sign', comps', hchars', -, hnanos⟩ := exists_written (parse_eq_ok_iff.mp hd)
    obtain ⟨rfl, rfl⟩ := written_unique (hchars.symm.trans hchars')
    rw [← hsum sign comps hchars, hnanos, hkept sign comps hchars]
    cases sign with
    | none | plus => exact Int.cast_natCast _
    | minus => exact (Int.cast_neg _).trans (congrArg Neg.neg (Int.cast_natCast _))

/-- As many nanoseconds as are missing from thirty and a half minutes to the largest magnitude of a
negative span. -/
def remainder : Component where
  number :=
    { whole := "9223370206854775808".toList
      behind := none
      isDigits_whole := List.all_eq_true.mp (by decide)
      isDigits_behind := by simp
      has_digit := .inl (by decide) }
  unit := ['n', 's']
  scale := 1
  mem_units := by decide

theorem parse_accepts_sums_least :
    (∀ (sign : Sign) (comps : List Component),
      "-30.5m9223370206854775808ns".toList = sign.chars ++ comps.flatMap Component.chars →
      ∀ c ∈ comps, c.number.fraction.length ≤ resolution c.unit ∧ c.span < 2 ^ 128) ∧
    (∃ d, Duration.parse "-30.5m9223370206854775808ns" = .ok d) ∧
    ∀ d, Duration.parse "-30.5m9223370206854775808ns" = .ok d →
      (d.nanos : ℚ) = Sign.minus.apply ([halfHour, remainder].map Component.span).sum := by
  have hchars : "-30.5m9223370206854775808ns".toList =
      Sign.minus.chars ++ [halfHour, remainder].flatMap Component.chars := by decide
  have hhalf : (halfHour.counted : ℚ) = halfHour.span := Component.counted_eq_span (by decide)
  have hrest : (remainder.counted : ℚ) = remainder.span := Component.counted_eq_span (by decide)
  have hcounted : halfHour.counted = 1830000000000 := by decide
  have hcounted' : remainder.counted = 9223370206854775808 := by decide
  have hexact : ∀ (sign : Sign) (comps : List Component),
      "-30.5m9223370206854775808ns".toList = sign.chars ++ comps.flatMap Component.chars →
      ∀ c ∈ comps, c.number.fraction.length ≤ resolution c.unit ∧ c.span < 2 ^ 128 := by
    intro sign comps h
    obtain ⟨rfl, rfl⟩ := written_unique (hchars.symm.trans h)
    intro c hc
    rcases List.mem_pair.mp hc with rfl | rfl
    · exact ⟨by decide, by rw [← hhalf, hcounted]; norm_num⟩
    · exact ⟨by decide, by rw [← hrest, hcounted']; norm_num⟩
  obtain ⟨haccepted, hvalue⟩ := parse_accepts_sums hexact
  refine ⟨hexact, haccepted.mpr ⟨.minus, [halfHour, remainder], hchars, by simp, ?_⟩, ?_⟩
  · simp only [List.map_cons, List.map_nil, List.sum_cons, List.sum_nil, ← hhalf, ← hrest,
      hcounted, hcounted', limit, Sign.isNegative, if_true]
    norm_num
  · intro d hd
    exact hvalue d hd .minus _ hchars

end KubeClient.Duration
