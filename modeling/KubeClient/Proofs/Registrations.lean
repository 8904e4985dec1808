import KubeClient.Codec.Registry
import Mathlib.Data.List.Forall2
import Mathlib.Data.List.TakeWhile

/-!
# Registrations of content types

A registry knows a content type by its media type alone, and the last registration of a media type
is the one that counts.

* `MediaType.Spells`, `MediaType.normal_of_spells` : case, blanks and parameters do not matter;
* `Registry.registrations`, `Registry.IsLast` : what was registered, and the last registration of a
  media type;
* `Registry.serializerFor_eq_ok_iff`, `Registry.serializerFor_eq_error_iff` : which content types
  are known, and by which registration;
* `Registry.serializerFor_defaultType` : the default type is known.
-/

namespace KubeClient

/-! ### Blanks around a text -/

namespace Blank

section TrimBoth

variable {α β : Type} {p : α → Bool}

/-- Blanks around a text do not count. -/
theorem trimBoth_append {front back : List α} (hf : ∀ a ∈ front, p a = true)
    (hb : ∀ a ∈ back, p a = true) (xs : List α) :
    trimBoth p (front ++ xs ++ back) = trimBoth p xs := by
  have hr : ∀ a ∈ back.reverse, p a = true := fun a ha => hb a (List.mem_reverse.mp ha)
  unfold trimBoth
  rw [List.append_assoc, List.dropWhile_append_of_pos hf, List.dropWhile_append]
  split
  · -- there is nothing but blanks
    rename_i h
    rw [List.isEmpty_iff.mp h, List.dropWhile_eq_nil_iff.mpr hb]
  · rw [List.reverse_append, List.dropWhile_append_of_pos hr]

/-- A text is what is left of it, with blanks around. -/
theorem exists_trimBoth (p : α → Bool) (xs : List α) :
    ∃ front back, xs = front ++ trimBoth p xs ++ back ∧
      (∀ a ∈ front, p a = true) ∧ ∀ a ∈ back, p a = true := by
  refine ⟨xs.takeWhile p, ((xs.dropWhile p).reverse.takeWhile p).reverse, ?_, ?_, ?_⟩
  · rw [trimBoth, List.append_assoc, ← List.reverse_append, List.takeWhile_append_dropWhile,
      List.reverse_reverse, List.takeWhile_append_dropWhile]
  · intro a ha
    exact List.mem_takeWhile_imp ha
  · intro a ha
    exact List.mem_takeWhile_imp (List.mem_reverse.mp ha)

theorem trimBoth_trimBoth (xs : List α) : trimBoth p (trimBoth p xs) = trimBoth p xs := by
  obtain ⟨front, back, hx, hf, hb⟩ := exists_trimBoth p xs
  conv_rhs => rw [hx, trimBoth_append hf hb]

theorem trimBoth_map {q : β → Bool} {f : α → β} (h : ∀ a, q (f a) = p a) (xs : List α) :
    trimBoth q (xs.map f) = (trimBoth p xs).map f := by
  have hc : q ∘ f = p := funext h
  simp [trimBoth, List.dropWhile_map, hc, ← List.map_reverse]

theorem mem_of_mem_trimBoth {xs : List α} {a : α} (h : a ∈ trimBoth p xs) : a ∈ xs := by
  obtain ⟨front, back, hx, -⟩ := exists_trimBoth p xs
  rw [hx]
  simp [h]

end TrimBoth

end Blank

/-! ### Media types -/

namespace MediaType

/-- Only capital letters change, and they become small ones. -/
theorem toLower_cases (c : Char) :
    c.toLower = c ∨ (0x41 ≤ c.toNat ∧ c.toNat ≤ 0x5A ∧ c.toLower.toNat = c.toNat + 0x20) := by
  unfold Char.toLower
  split
  · rename_i h
    obtain ⟨hl, hu⟩ := h
    rw [ge_iff_le, UInt32.le_iff_toNat_le] at hl
    rw [UInt32.le_iff_toNat_le] at hu
    change 0x41 ≤ c.toNat at hl
    change c.toNat ≤ 0x5A at hu
    refine .inr ⟨hl, hu, ?_⟩
    show (c.val + 0x20).toNat = c.toNat + 0x20
    rw [UInt32.toNat_add]
    show (c.toNat + 0x20) % 2 ^ 32 = c.toNat + 0x20
    omega
  · exact .inl rfl

theorem isUnicode_toLower (c : Char) : Blank.isUnicode c.toLower = Blank.isUnicode c := by
  rcases toLower_cases c with h | ⟨hl, hu, h⟩
  · rw [h]
  · rw [Bool.eq_iff_iff]
    simp only [Blank.isUnicode, h, Bool.or_eq_true, Bool.and_eq_true, decide_eq_true_eq,
      beq_iff_eq]
    omega

theorem toLower_toLower (c : Char) : c.toLower.toLower = c.toLower := by
  rcases toLower_cases c.toLower with h | ⟨hl, hu, -⟩
  · exact h
  · rcases toLower_cases c with h | ⟨hl', hu', h⟩
    · rw [h, h]
    · omega

theorem toLower_ne_semicolon {c : Char} (h : c ≠ ';') : c.toLower ≠ ';' := by
  rcases toLower_cases c with he | ⟨hl, hu, he⟩
  · rwa [he]
  · intro hc
    rw [hc] at he
    change 0x3B = _ at he
    omega

/-- A media type as it is written: any case, blanks around it, parameters behind it. -/
def Spells (contentType media : String) : Prop :=
  ';' ∉ media.toList ∧ ∃ front word back params,
    contentType.toList = front ++ word ++ back ++ params ∧
    (∀ c ∈ front ++ back, Blank.isUnicode c = true) ∧
    word.map Char.toLower = media.toList.map Char.toLower ∧
    (params = [] ∨ ∃ rest, params = ';' :: rest)

/-- The media type in front of parameters. -/
theorem takeWhile_of_params {cs params : List Char} (hc : ';' ∉ cs)
    (hp : params = [] ∨ ∃ rest, params = ';' :: rest) :
    (cs ++ params).takeWhile (· != ';') = cs := by
  have hall : ∀ c ∈ cs, (c != ';') = true := by
    intro c hm
    exact bne_iff_ne.mpr fun h => hc (h ▸ hm)
  rw [List.takeWhile_append_of_pos hall]
  rcases hp with rfl | ⟨rest, rfl⟩ <;> simp

theorem trimChars_map (cs : List Char) :
    (Blank.trimChars cs).map Char.toLower = Blank.trimChars (cs.map Char.toLower) :=
  (Blank.trimBoth_map isUnicode_toLower cs).symm

/-- **Case, blanks and parameters do not matter.** -/
theorem normal_of_spells {contentType media : String} (h : Spells contentType media) :
    normal contentType = normal media := by
  obtain ⟨hm, front, word, back, params, hc, hb, hw, hp⟩ := h
  have hf : ∀ c ∈ front, Blank.isUnicode c = true := fun c h => hb c (List.mem_append_left _ h)
  have hr : ∀ c ∈ back, Blank.isUnicode c = true := fun c h => hb c (List.mem_append_right _ h)
  have hblank : ∀ c, Blank.isUnicode c = true → c ≠ ';' := by
    rintro c hc rfl
    exact absurd hc (by decide)
  have hword : ';' ∉ word := by
    intro h
    have hlow : Char.toLower ';' ∈ media.toList.map Char.toLower :=
      hw ▸ List.mem_map_of_mem h
    obtain ⟨c, hmem, he⟩ := List.mem_map.mp hlow
    exact toLower_ne_semicolon (fun h => hm (h ▸ hmem)) he
  have hfront : ';' ∉ front ++ word ++ back := by
    intro h
    rcases List.mem_append.mp h with h | h
    · rcases List.mem_append.mp h with h | h
      · exact hblank _ (hf _ h) rfl
      · exact hword h
    · exact hblank _ (hr _ h) rfl
  have hmedia : media.toList.takeWhile (· != ';') = media.toList := by
    simpa using takeWhile_of_params hm (.inl rfl)
  rw [normal, normal, hc, takeWhile_of_params hfront hp, hmedia, trimChars_map, trimChars_map,
    ← hw, ← trimChars_map, ← trimChars_map]
  show String.ofList ((Blank.trimBoth _ (front ++ word ++ back)).map _) = _
  rw [Blank.trimBoth_append hf hr]
  rfl

theorem toList_normal (contentType : String) : (normal contentType).toList =
    (Blank.trimChars (contentType.toList.takeWhile (· != ';'))).map Char.toLower := by
  rw [normal, String.toList_ofList]

/-- A normal media type is its own normal form. -/
theorem normal_normal (contentType : String) : normal (normal contentType) = normal contentType := by
  have hn : ';' ∉ (normal contentType).toList := by
    rw [toList_normal]
    intro h
    obtain ⟨c, hc, he⟩ := List.mem_map.mp h
    have hne := List.mem_takeWhile_imp (Blank.mem_of_mem_trimBoth hc)
    exact toLower_ne_semicolon (bne_iff_ne.mp hne) he
  have ht : (normal contentType).toList.takeWhile (· != ';') = (normal contentType).toList := by
    simpa using takeWhile_of_params hn (.inl rfl)
  have hi (cs : List Char) : Blank.trimChars (Blank.trimChars cs) = Blank.trimChars cs :=
    Blank.trimBoth_trimBoth cs
  refine String.toList_inj.mp ?_
  calc (normal (normal contentType)).toList
      = (Blank.trimChars (normal contentType).toList).map Char.toLower := by
        rw [toList_normal, ht]
    _ = ((Blank.trimChars (contentType.toList.takeWhile (· != ';'))).map Char.toLower).map
          Char.toLower := by rw [toList_normal contentType, ← trimChars_map, hi]
    _ = (normal contentType).toList := by
        rw [List.map_map, toList_normal]
        exact List.map_congr_left fun c _ => toLower_toLower c

end MediaType

/-! ### What was said -/

namespace Setting

/-- The registration that a setting makes. -/
def registration? : Setting → Option (String × Format)
  | register contentType format => some (contentType, format)
  | prefer _ => none

/-- The default that a setting makes. -/
def preference? : Setting → Option String
  | register .. => none
  | prefer contentType => some contentType

/-- A setting as it is written, in any spelling of its content type. -/
inductive Spells : Setting → Setting → Prop
  | register {contentType media : String} (h : MediaType.Spells contentType media)
    (format : Format) : Spells (register contentType format) (register media format)
  | prefer {contentType media : String} (h : MediaType.Spells contentType media) :
    Spells (prefer contentType) (prefer media)

end Setting

namespace Registry

/-- What was registered, in order; the types that are always known come first. -/
def registrations (settings : List Setting) : List (String × Format) :=
  builtin ++ settings.filterMap Setting.registration?

/-- The content type that was last said to be the default. -/
def preferred (settings : List Setting) : String :=
  (settings.filterMap Setting.preference?).getLast?.getD MediaType.json

/-- The last registration of the media type of a content type is for a notation. -/
def IsLast (settings : List Setting) (contentType : String) (format : Format) : Prop :=
  ∃ before written after, registrations settings = before ++ (written, format) :: after ∧
    MediaType.normal written = MediaType.normal contentType ∧
    ∀ entry ∈ after, MediaType.normal entry.1 ≠ MediaType.normal contentType

/-- No registration is of the media type of a content type. -/
def IsUnknown (settings : List Setting) (contentType : String) : Prop :=
  ∀ entry ∈ registrations settings, MediaType.normal entry.1 ≠ MediaType.normal contentType

instance (settings : List Setting) (contentType : String) :
    Decidable (IsUnknown settings contentType) :=
  inferInstanceAs (Decidable (∀ entry ∈ registrations settings, _))

/-! ### Setting up a registry -/

/-- A registration under its normal media type. -/
def normalEntry (entry : String × Format) : String × Format :=
  (MediaType.normal entry.1, entry.2)

namespace Draft

variable (d : Draft)

theorem set_of_spells {setting setting' : Setting} (h : setting.Spells setting') :
    d.set setting = d.set setting' := by
  cases h with
  | register h format => simp only [set, MediaType.normal_of_spells h]
  | prefer h => simp only [set, MediaType.normal_of_spells h]

theorem formats_foldl (settings : List Setting) : (settings.foldl set d).formats =
    d.formats ++ (settings.filterMap Setting.registration?).map normalEntry := by
  induction settings generalizing d with
  | nil => simp
  | cons setting settings ih =>
    rw [List.foldl_cons, ih]
    cases setting <;> simp [set, Setting.registration?, normalEntry, List.filterMap_cons]

theorem defaultType_foldl (settings : List Setting) : (settings.foldl set d).defaultType =
    ((settings.filterMap Setting.preference?).getLast?.map MediaType.normal).getD
      d.defaultType := by
  induction settings generalizing d with
  | nil => rfl
  | cons setting settings ih =>
    rw [List.foldl_cons, ih]
    cases setting with
    | register => rfl
    | prefer contentType =>
      simp only [set, List.filterMap_cons, Setting.preference?, List.getLast?_cons]
      cases (settings.filterMap Setting.preference?).getLast? <;> rfl

end Draft

theorem normal_json : MediaType.normal MediaType.json = MediaType.json := by
  decide +kernel

/-- The types that are always known are in normal form. -/
theorem map_normalEntry_builtin : builtin.map normalEntry = builtin := by
  decide +kernel

theorem formats_ofSettings (settings : List Setting) :
    (ofSettings settings).formats = (registrations settings).map normalEntry := by
  rw [registrations, List.map_append, map_normalEntry_builtin]
  exact Draft.start.formats_foldl settings

/-- The same settings in another spelling come to the same registry. -/
theorem ofSettings_of_spells {settings settings' : List Setting}
    (h : List.Forall₂ Setting.Spells settings settings') :
    ofSettings settings = ofSettings settings' := by
  have hd (d : Draft) : settings.foldl Draft.set d = settings'.foldl Draft.set d := by
    induction h generalizing d with
    | nil => rfl
    | cons hs _ ih => rw [List.foldl_cons, List.foldl_cons, d.set_of_spells hs, ih]
  rw [ofSettings, ofSettings, hd]

/-! ### Looking a content type up -/

theorem format?_map (entries : List (String × Format)) (media : String) :
    format? (entries.map normalEntry) media =
      (entries.reverse.find? fun e => MediaType.normal e.1 == media).map (·.2) := by
  rw [format?, ← List.map_reverse, List.find?_map, Option.map_map]
  rfl

theorem format?_eq_some_iff {settings : List Setting} {contentType : String} {f : Format} :
    format? (ofSettings settings).formats (MediaType.normal contentType) = some f ↔
      IsLast settings contentType f := by
  rw [formats_ofSettings, format?_map, Option.map_eq_some_iff]
  constructor
  · rintro ⟨⟨written, f'⟩, hfind, rfl⟩
    obtain ⟨hn, after, before, hr, ha⟩ := List.find?_eq_some_iff_append.mp hfind
    refine ⟨before.reverse, written, after.reverse, ?_, by simpa using hn, ?_⟩
    · simpa using congrArg List.reverse hr
    · intro entry he
      simpa using ha entry (List.mem_reverse.mp he)
  · rintro ⟨before, written, after, hr, hn, ha⟩
    refine ⟨(written, f), List.find?_eq_some_iff_append.mpr ⟨by simpa using hn, after.reverse,
      before.reverse, by simp [hr], ?_⟩, rfl⟩
    intro entry he
    simpa using ha entry (List.mem_reverse.mp he)

theorem format?_eq_none_iff {settings : List Setting} {contentType : String} :
    format? (ofSettings settings).formats (MediaType.normal contentType) = none ↔
      IsUnknown settings contentType := by
  rw [formats_ofSettings, format?_map, Option.map_eq_none_iff, List.find?_eq_none]
  simp [IsUnknown]

theorem serializerFor_of_some {r : Registry} {contentType : String} {f : Format}
    (h : format? r.formats (MediaType.normal contentType) = some f) :
    r.serializerFor contentType = .ok ⟨MediaType.normal contentType, f⟩ := by
  simp only [serializerFor, h]

theorem serializerFor_of_none {r : Registry} {contentType : String}
    (h : format? r.formats (MediaType.normal contentType) = none) :
    r.serializerFor contentType = .error (.unsupported (MediaType.normal contentType)) := by
  simp only [serializerFor, h]

theorem serializerFor_eq_ok_iff {settings : List Setting} {contentType : String}
    {s : Serializer} : (ofSettings settings).serializerFor contentType = .ok s ↔
      s.contentType = MediaType.normal contentType ∧ IsLast settings contentType s.format := by
  obtain ⟨media, f⟩ := s
  rw [← format?_eq_some_iff]
  cases h : format? (ofSettings settings).formats (MediaType.normal contentType) with
  | none => simp [serializerFor_of_none h]
  | some f' => simp [serializerFor_of_some h, eq_comm]

theorem serializerFor_eq_error_iff {settings : List Setting} {contentType : String}
    {e : SerializationError} : (ofSettings settings).serializerFor contentType = .error e ↔
      e = .unsupported (MediaType.normal contentType) ∧ IsUnknown settings contentType := by
  rw [← format?_eq_none_iff]
  cases h : format? (ofSettings settings).formats (MediaType.normal contentType) with
  | none => simp [serializerFor_of_none h, eq_comm]
  | some f => simp [serializerFor_of_some h]

/-- Only the media type of a content type matters. -/
theorem serializerFor_of_normal (r : Registry) {contentType contentType' : String}
    (h : MediaType.normal contentType = MediaType.normal contentType') :
    r.serializerFor contentType = r.serializerFor contentType' := by
  rw [serializerFor, serializerFor, h]

/-- A serializer is found under its own content type. -/
theorem serializerFor_contentType {r : Registry} {contentType : String} {s : Serializer}
    (h : r.serializerFor contentType = .ok s) : r.serializerFor s.contentType = .ok s := by
  have hs : s.contentType = MediaType.normal contentType := by
    cases hf : format? r.formats (MediaType.normal contentType) with
    | none =>
      rw [serializerFor_of_none hf] at h
      cases h
    | some f =>
      rw [serializerFor_of_some hf] at h
      cases h
      rfl
  rw [hs, r.serializerFor_of_normal (MediaType.normal_normal contentType), h]

/-! ### The default -/

/-- JSON is always known, whatever is registered. -/
theorem not_isUnknown_json (settings : List Setting) : ¬IsUnknown settings MediaType.json := by
  intro h
  refine h (MediaType.json, .json) ?_ rfl
  exact List.mem_append_left _ List.mem_cons_self

theorem isSome_format?_iff {settings : List Setting} {contentType : String} :
    (format? (ofSettings settings).formats (MediaType.normal contentType)).isSome = true ↔
      ¬IsUnknown settings contentType := by
  rw [← format?_eq_none_iff, Option.isSome_iff_ne_none]

/-- The default is the last one that was said, if it is known. -/
theorem defaultType_ofSettings (settings : List Setting) : (ofSettings settings).defaultType =
    if IsUnknown settings (preferred settings) then MediaType.json
    else MediaType.normal (preferred settings) := by
  have hd : (settings.foldl Draft.set .start).defaultType =
      MediaType.normal (preferred settings) := by
    rw [Draft.defaultType_foldl, preferred]
    cases (settings.filterMap Setting.preference?).getLast? with
    | none => exact normal_json.symm
    | some contentType => rfl
  show (if (format? (ofSettings settings).formats _).isSome then _ else _) = _
  rw [hd]
  by_cases h : IsUnknown settings (preferred settings)
  · rw [if_pos h, if_neg (mt isSome_format?_iff.mp (not_not_intro h))]
  · rw [if_neg h, if_pos (isSome_format?_iff.mpr h)]

/-- The default type is known, and its serializer is the default one. -/
theorem serializerFor_defaultType (settings : List Setting) :
    (ofSettings settings).serializerFor (ofSettings settings).defaultType =
      .ok (ofSettings settings).defaultSerializer := by
  obtain ⟨contentType, hd, hk⟩ : ∃ contentType, (ofSettings settings).defaultType =
      MediaType.normal contentType ∧ ¬IsUnknown settings contentType := by
    rw [defaultType_ofSettings]
    split
    · exact ⟨MediaType.json, normal_json.symm, not_isUnknown_json settings⟩
    · exact ⟨preferred settings, rfl, by assumption⟩
  obtain ⟨f, hf⟩ := Option.isSome_iff_exists.mp (isSome_format?_iff.mpr hk)
  rw [hd, serializerFor_of_normal _ (MediaType.normal_normal contentType),
    serializerFor_of_some hf, defaultSerializer, hd, hf, Option.getD_some]

end Registry
end KubeClient
