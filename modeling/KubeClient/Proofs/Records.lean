import KubeClient.Document.Content
import KubeClient.Document.Documented

/-!
# Records are read as they were written

What a field of a record loses by being left out is made up for when it is absent.

* `Passage` : a field with what is written for it and what is read from that;
* `Passage.read_record`, `Passage.read_merged`, `read_tagged` : fields that pass one by one pass
  as a record.
-/

namespace KubeClient

open Documented

/-! ### Entries that are there -/

namespace Value

/-- The members of a record: the entries that are there. -/
def present (entries : List (String × Option Value)) : List (String × Value) :=
  entries.filterMap fun e => e.2.map fun v => (e.1, v)

theorem present_cons_some (name : String) (v : Value) (entries : List (String × Option Value)) :
    present ((name, some v) :: entries) = (name, v) :: present entries :=
  rfl

theorem present_append (es fs : List (String × Option Value)) :
    present (es ++ fs) = present es ++ present fs :=
  List.filterMap_append

/-- A member of a record is an entry. -/
theorem mem_of_mem_present {entries : List (String × Option Value)} {m : String × Value}
    (h : m ∈ present entries) : (m.1, some m.2) ∈ entries := by
  obtain ⟨e, he, hm⟩ := List.mem_filterMap.mp h
  obtain ⟨v, hv, rfl⟩ := Option.map_eq_some_iff.mp hm
  rwa [← hv]

/-- The entries of a record are found by their names. -/
theorem lookup_present {entries : List (String × Option Value)}
    (hnodup : (entries.map Prod.fst).Nodup) {e : String × Option Value} (he : e ∈ entries) :
    (present entries).lookup e.1 = e.2 := by
  induction entries with
  | nil => cases he
  | cons x xs ih =>
    obtain ⟨name, o⟩ := x
    obtain ⟨hname, htail⟩ := List.nodup_cons.mp hnodup
    have hnone : (present xs).lookup name = none := by
      refine List.lookup_eq_none_iff.mpr fun m hm => bne_iff_ne.mpr fun heq => hname ?_
      subst heq
      exact List.mem_map.mpr ⟨_, mem_of_mem_present hm, rfl⟩
    rcases List.mem_cons.mp he with rfl | hmem
    · cases o with
      | none => exact hnone
      | some v => exact List.lookup_cons_self
    · have hne : (e.1 == name) = false := beq_eq_false_iff_ne.mpr fun heq =>
        hname (heq ▸ List.mem_map.mpr ⟨e, hmem, rfl⟩)
      cases o with
      | none => exact ih htail hmem
      | some v =>
        rw [present_cons_some, List.lookup_cons, hne]
        exact ih htail hmem

end Value

open Value

/-! ### Fields that pass -/

/-- What is written for a field, and what is read from that. -/
inductive Passes (surplus : Content.Surplus) (required : Bool) (shape : Shape) :
    Option Value → Option Value → Prop
  | absent (h : required = false) : Passes surplus required shape none none
  | present {v w : Value} (h : shape.read surplus (Content.ofValue v) = .ok w) :
    Passes surplus required shape (some v) (some w)

/-- A field with what is written for it and what is read from that. -/
structure Passage (surplus : Content.Surplus) where
  name : String
  required : Bool
  shape : Shape
  written : Option Value
  read : Option Value
  passes : Passes surplus required shape written read

namespace Passage

variable {surplus : Content.Surplus}

/-- How the field is declared in a shape. -/
def declared (p : Passage surplus) : String × Bool × Shape :=
  (p.name, p.required, p.shape)

/-- The field in the record that is written. -/
def before (p : Passage surplus) : String × Option Value :=
  (p.name, p.written)

/-- The field in the record that is read. -/
def after (p : Passage surplus) : String × Option Value :=
  (p.name, p.read)

/-- The reader of the field. -/
def field (p : Passage surplus) : Content.Field :=
  ⟨p.name, p.required, p.shape.read surplus⟩

theorem readers_declared (ps : List (Passage surplus)) :
    (Fields.ofList (ps.map declared)).readers surplus = ps.map field := by
  induction ps with
  | nil => rfl
  | cons p ps ih => exact congrArg (p.field :: ·) ih

/-- A field is found by its name. -/
theorem find?_field {ps : List (Passage surplus)} (hnodup : (ps.map name).Nodup)
    {p : Passage surplus} (hp : p ∈ ps) :
    (ps.map field).find? (fun f => f.name == p.name) = some p.field := by
  induction ps with
  | nil => cases hp
  | cons q ps ih =>
    obtain ⟨hname, hnodup⟩ := List.nodup_cons.mp hnodup
    rw [List.map_cons, List.find?_cons]
    rcases List.mem_cons.mp hp with rfl | hp
    · rw [show (p.field.name == p.name) = true from beq_self_eq_true _]
    · have hne : q.name ≠ p.name := fun heq => hname (heq ▸ List.mem_map_of_mem hp)
      rw [show (q.field.name == p.name) = false from beq_eq_false_iff_ne.mpr hne]
      exact ih hnodup hp

theorem find?_field_none {ps : List (Passage surplus)} {n : String} (h : n ∉ ps.map name) :
    (ps.map field).find? (fun f => f.name == n) = none := by
  refine List.find?_eq_none.mpr fun f hf => ?_
  obtain ⟨p, hp, rfl⟩ := List.mem_map.mp hf
  rw [beq_iff_eq]
  rintro rfl
  exact h (List.mem_map_of_mem hp)

end Passage

/-! ### Records -/

namespace Content

variable {fields : List Field} {slots : Slots} {n : String} {c : Content}

/-- A member is read into its field. -/
theorem readMembers_cons_some {f : Field} {w : Value}
    (hfind : fields.find? (fun f => f.name == n) = some f) (hslot : slots.lookup f.name = none)
    (hread : f.read c = .ok w) (ms : List (Content × Content)) :
    readMembers fields slots ((.string n, c) :: ms) =
      readMembers fields (slots.put f.name w) ms := by
  simp [readMembers, selectField, hfind, hslot, hread, bind, Except.bind]

/-- A member that is no field is left out. -/
theorem readMembers_cons_none (hfind : fields.find? (fun f => f.name == n) = none)
    (ms : List (Content × Content)) :
    readMembers fields slots ((.string n, c) :: ms) = readMembers fields slots ms := by
  simp [readMembers, selectField, hfind, bind, Except.bind]

theorem exists_of_mem_ofMembers {ms : List (String × Value)} {m : Content × Content}
    (h : m ∈ ofMembers ms) : ∃ n ∈ ms, m.1 = .string n.1 := by
  rw [ofMembers_eq_map] at h
  obtain ⟨n, hn, rfl⟩ := List.mem_map.mp h
  exact ⟨n, hn, rfl⟩

end Content

/-- The fields that were read, in the order of their declaration. -/
theorem Slots.finish_eq {slots : Slots} {names : List (String × Bool)}
    (h : ∀ n ∈ names, n.2 = true → (slots.lookup n.1).isSome = true) :
    slots.finish names = .ok (present (names.map fun n => (n.1, slots.lookup n.1))) := by
  induction names with
  | nil => rfl
  | cons n names ih =>
    obtain ⟨name, required⟩ := n
    have htail := ih fun n hn => h n (List.mem_cons_of_mem _ hn)
    rw [finish, htail, List.map_cons]
    cases hlookup : slots.lookup name with
    | some v => rfl
    | none =>
      cases required with
      | false => rfl
      | true =>
        have hsome := h _ List.mem_cons_self rfl
        rw [hlookup] at hsome
        cases hsome

namespace Passage

variable {surplus : Content.Surplus}

/-- The members of a record are read into their fields, one by one. -/
theorem readMembers_present {all ps : List (Passage surplus)} (hall : (all.map name).Nodup)
    (hsub : ∀ p ∈ ps, p ∈ all) (hps : (ps.map name).Nodup) (slots : Slots)
    (hslots : ∀ p ∈ ps, slots.lookup p.name = none) :
    Content.readMembers (all.map field) slots (Content.ofMembers (present (ps.map before))) =
      .ok (slots ++ present (ps.map after)) := by
  induction ps generalizing slots with
  | nil => exact congrArg Except.ok (List.append_nil slots).symm
  | cons p ps ih =>
    obtain ⟨hname, htail⟩ := List.nodup_cons.mp hps
    have hfind := find?_field hall (hsub p List.mem_cons_self)
    have hslot := hslots p List.mem_cons_self
    have hsub' := fun q hq => hsub q (List.mem_cons_of_mem p hq)
    have hslots' := fun q hq => hslots q (List.mem_cons_of_mem p hq)
    have hpasses := p.passes
    rw [List.map_cons, List.map_cons, before, after]
    generalize p.written = written at hpasses ⊢
    generalize p.read = read at hpasses ⊢
    cases hpasses with
    | absent _ => exact ih hsub' htail slots hslots'
    | @present v w hread =>
      rw [present_cons_some, present_cons_some, Content.ofMembers,
        Content.readMembers_cons_some hfind hslot hread]
      refine (ih hsub' htail _ fun q hq => ?_).trans ?_
      · have hne : q.name ≠ p.field.name := fun heq =>
          hname ((show q.name = p.name from heq) ▸ List.mem_map_of_mem hq)
        rw [Slots.put, List.lookup_append, hslots' q hq, List.lookup_cons,
          beq_eq_false_iff_ne.mpr hne]
        rfl
      · rw [Slots.put, List.append_assoc]
        rfl

/-- A field that is required is there. -/
theorem isSome_of_required {p : Passage surplus} (h : p.required = true) :
    p.read.isSome = true := by
  have hpasses := p.passes
  generalize p.read = read at hpasses ⊢
  generalize p.written = written at hpasses
  cases hpasses with
  | absent habsent =>
    rw [h] at habsent
    cases habsent
  | present _ => rfl

theorem names_after (ps : List (Passage surplus)) :
    (ps.map after).map Prod.fst = ps.map name := by
  rw [List.map_map]
  rfl

/-- All fields of a record are there, in order. -/
theorem finish_present {ps : List (Passage surplus)} (hps : (ps.map name).Nodup) :
    Slots.finish (present (ps.map after)) ((ps.map field).map fun f => (f.name, f.required)) =
      .ok (present (ps.map after)) := by
  have hlookup : ∀ p ∈ ps, (present (ps.map after)).lookup p.name = p.read := fun p hp =>
    lookup_present (names_after ps ▸ hps) (List.mem_map_of_mem (f := after) hp)
  rw [Slots.finish_eq]
  · have hentries : ((ps.map field).map fun f => (f.name, f.required)).map
        (fun n => (n.1, (present (ps.map after)).lookup n.1)) = ps.map after := by
      rw [List.map_map, List.map_map]
      exact List.map_congr_left fun p hp => congrArg (p.name, ·) (hlookup p hp)
    rw [hentries]
  · intro n hn hrequired
    obtain ⟨f, hf, rfl⟩ := List.mem_map.mp hn
    obtain ⟨p, hp, rfl⟩ := List.mem_map.mp hf
    exact (hlookup p hp).symm ▸ isSome_of_required hrequired

/-- Fields that pass one by one pass as a record. -/
theorem read_record (typeName : String) (ps : List (Passage surplus))
    (hps : (ps.map name).Nodup) :
    (Shape.ofFields typeName (ps.map declared)).read surplus
      (Content.ofValue (.record (ps.map before))) = .ok (.record (ps.map after)) := by
  have hmembers := readMembers_present hps (fun _ hp => hp) hps [] fun _ _ => rfl
  have hfinish := finish_present hps
  show (Shape.record typeName (Fields.ofList (ps.map declared))).read surplus
    (Content.ofValue (.object (present (ps.map before)))) = _
  rw [Shape.read, Content.ofValue, readers_declared, Content.readRecord, hmembers]
  simp only [bind, Except.bind, List.nil_append, hfinish]
  rfl

/-! ### Records that take over fields -/

/-- The members of a record carry the names of its fields. -/
theorem exists_of_mem_before {ps : List (Passage surplus)} {m : Content × Content}
    (h : m ∈ Content.ofMembers (present (ps.map before))) :
    ∃ p ∈ ps, m.1 = .string p.name := by
  obtain ⟨n, hn, hm⟩ := Content.exists_of_mem_ofMembers h
  obtain ⟨p, hp, hname⟩ := List.mem_map.mp (mem_of_mem_present hn)
  refine ⟨p, hp, hm.trans ?_⟩
  rw [← (Prod.mk.inj hname).1]

theorem all_ne_iff (ps : List (Passage surplus)) (n : String) :
    ((ps.map field).all fun f => some f.name != (Content.string n).name?) = true ↔
      n ∉ ps.map name := by
  rw [List.all_eq_true]
  constructor
  · intro h hn
    obtain ⟨p, hp, rfl⟩ := List.mem_map.mp hn
    exact bne_iff_ne.mp (h _ (List.mem_map_of_mem hp)) rfl
  · intro h f hf
    obtain ⟨p, hp, rfl⟩ := List.mem_map.mp hf
    exact bne_iff_ne.mpr fun heq => h (Option.some.inj heq ▸ List.mem_map_of_mem hp)

theorem any_eq_iff (ps : List (Passage surplus)) (n : String) :
    ((ps.map field).any fun f => some f.name == (Content.string n).name?) = true ↔
      n ∈ ps.map name := by
  rw [List.any_eq_true]
  constructor
  · rintro ⟨f, hf, heq⟩
    obtain ⟨p, hp, rfl⟩ := List.mem_map.mp hf
    exact Option.some.inj (beq_iff_eq.mp heq) ▸ List.mem_map_of_mem hp
  · intro hn
    obtain ⟨p, hp, rfl⟩ := List.mem_map.mp hn
    exact ⟨_, List.mem_map_of_mem hp, beq_iff_eq.mpr rfl⟩

/-- Members of other names are left out. -/
theorem readMembers_other {own other : List (Passage surplus)}
    (h : ∀ p ∈ other, p.name ∉ own.map name) (slots : Slots) (cs : List (Content × Content)) :
    Content.readMembers (own.map field) slots
      (Content.ofMembers (present (other.map before)) ++ cs) =
        Content.readMembers (own.map field) slots cs := by
  induction other with
  | nil => rfl
  | cons p other ih =>
    have htail := ih fun q hq => h q (List.mem_cons_of_mem p hq)
    rw [List.map_cons, before]
    cases p.written with
    | none => exact htail
    | some v =>
      rw [present_cons_some, Content.ofMembers, List.cons_append,
        Content.readMembers_cons_none (find?_field_none (h p List.mem_cons_self))]
      exact htail

theorem ofMembers_present_append (ps qs : List (Passage surplus)) :
    Content.ofMembers (present ((ps ++ qs).map before)) =
      Content.ofMembers (present (ps.map before)) ++
        Content.ofMembers (present (qs.map before)) := by
  rw [List.map_append, present_append, Content.ofMembers_eq_map, List.map_append,
    ← Content.ofMembers_eq_map, ← Content.ofMembers_eq_map]

/-- The members of other names are those that are left. -/
theorem filter_other {own other : List (Passage surplus)}
    (h : ∀ p ∈ other, p.name ∉ own.map name) :
    (Content.ofMembers (present ((other ++ own).map before))).filter (fun m =>
      (own.map field).all fun f => some f.name != m.1.name?) =
        Content.ofMembers (present (other.map before)) := by
  rw [ofMembers_present_append, List.filter_append, List.filter_eq_self.mpr,
    List.filter_eq_nil_iff.mpr, List.append_nil]
  · intro m hm
    obtain ⟨p, hp, hname⟩ := exists_of_mem_before hm
    rw [hname, all_ne_iff]
    exact fun h => h (List.mem_map_of_mem hp)
  · intro m hm
    obtain ⟨p, hp, hname⟩ := exists_of_mem_before hm
    rw [hname, all_ne_iff]
    exact h p hp

/-- The members of the fields' names are all that there are. -/
theorem filter_own (ps : List (Passage surplus)) :
    (Content.ofMembers (present (ps.map before))).filter (fun m =>
      (ps.map field).any fun f => some f.name == m.1.name?) =
        Content.ofMembers (present (ps.map before)) := by
  refine List.filter_eq_self.mpr fun m hm => ?_
  obtain ⟨p, hp, hname⟩ := exists_of_mem_before hm
  rw [hname, any_eq_iff]
  exact List.mem_map_of_mem hp

/-- Fields that pass one by one pass as a record with an inner one. -/
theorem read_merged (typeName : String) (inner own : List (Passage surplus))
    (hps : ((inner ++ own).map name).Nodup) :
    (Shape.merged typeName (.ofList (own.map declared)) (.ofList (inner.map declared))).read surplus
      (Content.ofValue (.record ((inner ++ own).map before))) =
        .ok (.record ((inner ++ own).map after)) := by
  rw [List.map_append] at hps
  obtain ⟨hinner, hown, hne⟩ := List.nodup_append.mp hps
  have hother : ∀ p ∈ inner, p.name ∉ own.map name := fun p hp hmem =>
    hne _ (List.mem_map_of_mem hp) _ hmem rfl
  have hread := (readMembers_other hother [] _).trans
    (readMembers_present hown (fun _ hp => hp) hown [] fun _ _ => rfl)
  rw [← ofMembers_present_append] at hread
  have hread' := readMembers_present hinner (fun _ hp => hp) hinner [] fun _ _ => rfl
  rw [Shape.read, readers_declared, readers_declared]
  show Content.readMerged _ _ _ (.map (Content.ofMembers (present ((inner ++ own).map before)))) = _
  rw [Content.readMerged, hread, filter_other hother]
  simp only [bind, Except.bind, List.nil_append, finish_present hown, filter_own, hread',
    finish_present hinner]
  rw [List.map_append, Value.record]
  exact congrArg (fun ms => Except.ok (Value.object ms)) (present_append _ _).symm

end Passage

/-! ### Tagged records -/

variable {surplus : Content.Surplus}

theorem takeTag_ofMembers {tag : String} {ms : List (String × Value)}
    (h : ∀ m ∈ ms, m.1 ≠ tag) :
    Content.takeTag tag (Content.ofMembers ms) = .ok (none, Content.ofMembers ms) := by
  induction ms with
  | nil => rfl
  | cons m ms ih =>
    have hname : ((Content.string m.1).name? == some tag) = false :=
      beq_eq_false_iff_ne.mpr fun heq => h m List.mem_cons_self (Option.some.inj heq)
    rw [Content.ofMembers, Content.takeTag, ih fun n hn => h n (List.mem_cons_of_mem m hn)]
    simp only [hname, bind, Except.bind]

/-- A case that passes as a record passes with its tag in front. -/
theorem read_tagged (typeName : String) {tag n : String} {cases : Fields} {f : Content.Field}
    {ms ms' : List (String × Value)}
    (hcase : (cases.readers surplus).find? (fun f => f.name == n) = some f)
    (hms : ∀ m ∈ ms, m.1 ≠ tag)
    (hread : f.read (Content.ofValue (.object ms)) = .ok (.object ms')) :
    (Shape.tagged typeName tag cases).read surplus
      (Content.ofValue (.object ((tag, .string n) :: ms))) =
        .ok (.object ((tag, .string n) :: ms')) := by
  have hname : (f.name == n) = true :=
    List.find?_some (p := fun f : Content.Field => f.name == n) hcase
  have htake : Content.takeTag tag (Content.ofMembers ((tag, .string n) :: ms)) =
      .ok (some (.string n), Content.ofMembers ms) := by
    rw [Content.ofMembers, Content.takeTag, takeTag_ofMembers hms]
    simp [Content.name?, Content.ofValue, bind, Except.bind]
  rw [Content.ofValue] at hread
  rw [Shape.read, Content.ofValue, Content.readTagged, htake]
  simp only [bind, Except.bind, Content.selectCase, hcase, hread, beq_iff_eq.mp hname]
  rfl

end KubeClient
