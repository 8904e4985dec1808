import KubeClient.Proofs.SoleFields
import KubeClient.Proofs.YamlShapes

/-!
# Fields in documents

A record of one field is read from bytes that may be read as a value as well. The field is found in
that value. In JSON it is read from its part of the value. In YAML a scalar is not the same for all
who read it, so the field and the member of its name come from the same node.

* `Value.part?` : the field in a value, by its name or as the only item of a list;
* `Json.part_of_read` : a field of JSON is read from its part of the value;
* `Yaml.Plain.IsWord`, `Yaml.Reader.found_word` : texts that stand for nothing but themselves;
* `Yaml.Reader.lockstep_record` : a record and a value, read from the same mapping;
* `Yaml.get?_of_read` : a word in a record of YAML is the member of its name;
* `Yaml.SameNode`, `Yaml.exists_get?_of_read` : what else is in a record of YAML is read from the
  node of that member.
-/

namespace KubeClient

variable {name title : String} {s : Shape} {v w x : Value} {bs : Bytes}

/-- A field of a record: the member of its name, or the only item of a list. -/
def Value.part? (name : String) : Value → Option Value
  | .list [v] => some v
  | v => v.get? name

theorem Slots.lookup_of_finish {slots : Slots} {required : Bool}
    (h : slots.finish [(name, required)] = .ok [(name, x)]) : slots.lookup name = some x := by
  rw [finish] at h
  cases hlookup : slots.lookup name with
  | none =>
    rw [hlookup] at h
    cases required <;> cases h
  | some y =>
    rw [hlookup] at h
    cases h
    rfl

theorem exists_of_object_eq_ok {o : Except Cause (List (String × Value))}
    {ms : List (String × Value)} (h : Value.object <$> o = .ok (.object ms)) : o = .ok ms := by
  cases o with
  | error _ => cases h
  | ok ms' =>
    cases h
    rfl

/-! ### JSON -/

namespace Content

variable {f : Field} {slots slots' : Slots} {ms : List (String × Value)}

theorem exists_of_readMembers_cons {fields : List Field} {n : String} {c : Content}
    {rest : List (Content × Content)} (hfind : fields.find? (fun f => f.name == n) = some f)
    (h : readMembers fields slots ((.string n, c) :: rest) = .ok slots') :
    slots.lookup f.name = none ∧
      ∃ x, f.read c = .ok x ∧ readMembers fields (slots.put f.name x) rest = .ok slots' := by
  cases hslot : slots.lookup f.name with
  | some y => simp [readMembers, selectField, hfind, hslot, bind, Except.bind] at h
  | none =>
    cases hread : f.read c with
    | error _ => simp [readMembers, selectField, hfind, hslot, hread, bind, Except.bind] at h
    | ok x => exact ⟨rfl, x, rfl, (readMembers_cons_some hfind hslot hread rest).symm.trans h⟩

/-- What was read for a field stays. -/
theorem lookup_of_readMembers (hx : slots.lookup f.name = some x)
    (h : readMembers [f] slots (ofMembers ms) = .ok slots') : slots'.lookup f.name = some x := by
  induction ms with
  | nil =>
    cases h
    exact hx
  | cons m ms ih =>
    rw [ofMembers] at h
    cases hfind : [f].find? fun g => g.name == m.1 with
    | none =>
      rw [readMembers_cons_none hfind] at h
      exact ih h
    | some g =>
      obtain rfl : g = f := List.mem_singleton.mp (List.mem_of_find?_eq_some hfind)
      obtain ⟨hslot, -⟩ := exists_of_readMembers_cons hfind h
      rw [hslot] at hx
      cases hx

/-- What was read for a field was read from the member of its name. -/
theorem exists_of_readMembers (hslot : slots.lookup f.name = none)
    (h : readMembers [f] slots (ofMembers ms) = .ok slots') (hx : slots'.lookup f.name = some x) :
    ∃ o, ms.lookup f.name = some o ∧ f.read (ofValue o) = .ok x := by
  induction ms with
  | nil =>
    cases h
    rw [hslot] at hx
    cases hx
  | cons m ms ih =>
    rw [ofMembers] at h
    rw [Members.lookup_cons]
    cases hfind : [f].find? fun g => g.name == m.1 with
    | none =>
      rw [readMembers_cons_none hfind] at h
      have hne : f.name ≠ m.1 := by simpa using hfind
      rw [if_neg hne]
      exact ih h
    | some g =>
      obtain rfl : g = f := List.mem_singleton.mp (List.mem_of_find?_eq_some hfind)
      have hname : g.name = m.1 := by simpa using List.find?_some hfind
      obtain ⟨-, y, hread, hrest⟩ := exists_of_readMembers_cons hfind h
      have hy : (slots.put g.name y).lookup g.name = some y := by
        rw [Slots.lookup_put, hslot, if_pos rfl]
        rfl
      rw [lookup_of_readMembers hy hrest] at hx
      cases hx
      exact ⟨m.2, if_pos hname, hread⟩

/-- The only field of a record is read from its part of the value. -/
theorem part_of_readRecord {surplus : Surplus} {expectation : String} (hf : f.required = true)
    (h : readRecord surplus expectation [f] (ofValue v) = .ok (.object [(f.name, x)])) :
    ∃ o, v.part? f.name = some o ∧ f.read (ofValue o) = .ok x := by
  cases v with
  | object ms =>
    rw [ofValue, readRecord] at h
    cases hslots : readMembers [f] [] (ofMembers ms) with
    | error _ =>
      rw [hslots] at h
      cases h
    | ok slots =>
      rw [hslots] at h
      have hx := Slots.lookup_of_finish (exists_of_object_eq_ok h)
      exact exists_of_readMembers rfl hslots hx
  | list vs =>
    rw [ofValue, readRecord] at h
    cases vs with
    | nil =>
      rw [ofValues, readPositions, if_pos hf] at h
      cases h
    | cons o vs =>
      rw [ofValues, readPositions] at h
      cases hread : f.read (ofValue o) with
      | error _ =>
        rw [hread] at h
        cases h
      | ok y =>
        rw [hread] at h
        cases vs with
        | nil =>
          have hx := Slots.lookup_of_finish (exists_of_object_eq_ok h)
          rw [Slots.lookup_put, if_pos rfl] at hx
          cases hx
          exact ⟨o, rfl, hread⟩
        | cons _ _ => cases h
  | _ => cases h

end Content

/-- A field of JSON is read from its part of the value. -/
theorem Json.part_of_read (surplus : Content.Surplus) (hs : s.isPlain = true)
    (h : Json.read (.ofFields title [(name, true, s)]) bs = .ok (.object [(name, x)]))
    (hv : Json.read .any bs = .ok v) :
    ∃ o, v.part? name = some o ∧ s.read surplus (Content.ofValue o) = .ok x := by
  have hplain : (Shape.ofFields title [(name, true, s)]).isPlain = true := by
    rw [Shape.ofFields, Shape.isPlain, Fields.ofList, Fields.isPlain, hs]
    rfl
  exact Content.part_of_readRecord rfl (Json.read_value hplain h hv)

/-! ### YAML -/

namespace Yaml

/-- The text stands for itself wherever it is read, whatever its tag. -/
structure Plain.IsWord (text : List Char) : Prop where
  ne_nil : text ≠ []
  isNull : isNull text = false
  bool? : bool? text = none
  integer? : integerFound? text = none
  float? : float? text = none

namespace Reader

variable {d : Document} {depth i : Nat} {text : List Char} {tag : Option (List Char)}
  {style : ScalarStyle}

theorem found_plain (h : Plain.IsWord text) : Plain.found text = .string (String.ofList text) := by
  simp [Plain.found, h.ne_nil, h.isNull, h.bool?, h.integer?, h.float?]

theorem found_word (h : Plain.IsWord text) {f : Found} (hf : found tag text style = .ok f) :
    f = .string (String.ofList text) := by
  cases tag with
  | none =>
    rw [found, found_plain h] at hf
    split at hf <;> cases hf <;> rfl
  | some t =>
    -- a tag of a kind of its own is refused, and no other tag changes the text
    simp only [found, found_plain h, h.bool?, h.integer?, h.float?, h.isNull] at hf
    split at hf
    · cases hf
    · split at hf
      · cases hf
      · split at hf
        · cases hf
        · split at hf
          · cases hf
          · split at hf <;> cases hf <;> rfl

variable {α β δ : Type} {R : α → β → Prop} {S : α → δ → Prop} {r : Reader α} {q : Reader β}

theorem Lockstep.map_right {g : β → δ} (h : Lockstep R r q d depth i)
    (hg : ∀ a b, R a b → S a (g b)) : Lockstep S r (g <$> q) d depth i := by
  intro path path' w w' v v' a c hw hw' hr hq
  obtain ⟨b, hb, rfl⟩ := exists_of_map_eq_ok hq
  obtain ⟨hend, hab⟩ := h hw hw' hr hb
  exact ⟨hend, hg a b hab⟩

/-- A checked string is what is read as a value, if the check admits only words. -/
theorem lockstep_checkedString {expected : String} {check : String → Except String Unit}
    (h : ∀ text, check (String.ofList text) = .ok () → Plain.IsWord text) (fuel : Nat) :
    Lockstep (fun v x => x = .string v.asString) (checkedString expected check) (value fuel) d depth
      i := by
  cases fuel with
  | zero => exact lockstep_of_fails_right fun _ _ _ _ hq => by cases hq
  | succ fuel =>
    refine Lockstep.map_right (R := fun v x => x = .string v.asString) (lockstep_node ?_) ?_
    · intro n m j
      cases n with
      | scalar tag text style =>
        intro path path' w w' v v' a x hw hw' hr hq
        dsimp only at hr hq
        cases hcheck : check (String.ofList text) with
        | error _ =>
          rw [hcheck] at hr
          cases hr
        | ok _ =>
          rw [hcheck] at hr
          cases hr
          split at hq
          · cases hq
          · obtain ⟨rfl, f, hf, hx⟩ := exists_of_anyScalar_eq_ok hq
            exact ⟨hw.trans hw'.symm, hx _ (found_word (h text hcheck) hf)⟩
      | _ => exact lockstep_of_fails (not_ok_mismatch _ expected)
    · rintro v _ rfl
      rfl

/-- What was read for a field goes with the member of its name; the members stand in the order of
the text, the last one first. -/
def Told (R : Value → Content → Prop) (name : String) (slots : Slots)
    (xs : List (Content × Content)) : Prop :=
  ∃ ms, xs = Content.named ms ∧ ∀ v, slots.lookup name = some v →
    ∃ x, ms.lookup name = some x ∧ R v x

variable {P : Value → Content → Prop}

theorem lockstep_fieldMember {f : Field} {slots : Slots} {xs : List (Content × Content)}
    (hread : ∀ fuel j, Lockstep P f.read (value fuel) d depth j) (h : Told P f.name slots xs)
    (k : String) (fuel : Nat) :
    Lockstep (Told P f.name) (fieldMember [f] slots k) (valueMember fuel xs k) d depth i := by
  obtain ⟨ms, rfl, hms⟩ := h
  unfold fieldMember
  cases hfind : [f].find? fun g => g.name == k with
  | none =>
    have hne : f.name ≠ k := by simpa using hfind
    -- what is no field is stepped over where it is read as a value
    refine (lockstep_skip fuel depth).bind fun _ x j _ => lockstep_pure ⟨(k, x) :: ms, rfl, ?_⟩
    intro v hv
    rw [Members.lookup_cons, if_neg hne]
    exact hms v hv
  | some g =>
    obtain rfl : g = f := List.mem_singleton.mp (List.mem_of_find?_eq_some hfind)
    obtain rfl : g.name = k := by simpa using List.find?_some hfind
    dsimp only
    split
    · exact lockstep_of_fails fun _ _ _ _ hr => by cases hr
    · rename_i hslot
      have hnone : slots.lookup g.name = none := Option.not_isSome_iff_eq_none.mp hslot
      refine (hread fuel i).bind fun v x j hx => lockstep_pure ⟨(g.name, x) :: ms, rfl, ?_⟩
      intro v' hv'
      rw [Slots.lookup_put, hnone, if_pos rfl] at hv'
      cases hv'
      exact ⟨x, by rw [Members.lookup_cons, if_pos rfl], hx⟩

theorem lockstep_text (expected expected' : String) :
    Lockstep Eq (Reader.text expected) (Reader.text expected') d depth i := by
  refine lockstep_node fun n m j => ?_
  cases n with
  | scalar tag text style => exact lockstep_pure rfl
  | _ => exact lockstep_of_fails (not_ok_mismatch _ expected)

/-- What goes with a field goes with it in the value that the members make. -/
theorem Told.get? {slots : Slots} {xs : List (Content × Content)} (h : Told P name slots xs)
    (hv : slots.lookup name = some v) :
    ∃ x, (Content.map xs.reverse).toValue.get? name = some x.toValue ∧ P v x := by
  obtain ⟨ms, rfl, hms⟩ := h
  obtain ⟨x, hx, hvx⟩ := hms v hv
  refine ⟨x, ?_, hvx⟩
  rw [← Content.named_reverse, Content.toValue_map_named, Value.get?, Members.lookup_map,
    Members.lookup_ofList, List.reverse_reverse, hx]
  rfl

/-- Nothing but a mapping makes a record with a field. -/
theorem not_ok_absent {f : Field} (hrequired : f.required = true) (n : Node) (expected : String)
    (p : Place) (u : Walk) (w : Value) (u' : Walk) :
    (if isEmpty n then Value.object <$> ofExcept (Slots.finish [] (declared [f]))
      else mismatch n expected : Reader Value) p u ≠ .ok w u' := by
  intro h
  split at h
  · obtain ⟨ms, hms, -⟩ := exists_of_map_eq_ok h
    obtain ⟨hfinish, -⟩ := exists_of_ofExcept_eq_ok hms
    rw [declared, List.map_singleton, hrequired] at hfinish
    cases hfinish
  · exact not_ok_mismatch n expected p u w u' h

theorem lockstep_record {f : Field} {expected : String}
    (hread : ∀ fuel depth j, Lockstep P f.read (value fuel) d depth j)
    (hrequired : f.required = true) (fuel : Nat) :
    Lockstep (fun w x => ∀ v, w = .object [(f.name, v)] →
      ∃ y, x.toValue.get? f.name = some y.toValue ∧ P v y) (record expected [f]) (value fuel) d
      depth i := by
  cases fuel with
  | zero => exact lockstep_of_fails_right fun _ _ _ _ hq => by cases hq
  | succ fuel =>
    refine Lockstep.map_right (R := fun w x => ∀ v, w = .object [(f.name, v)] →
      ∃ y, (finite x).toValue.get? f.name = some y.toValue ∧ P v y) (lockstep_node ?_)
      fun _ _ h => h
    intro n m j
    cases n with
    | mappingStart tag =>
      dsimp only
      split
      · exact lockstep_of_fails_right fun _ _ _ _ hq => by cases hq
      · refine (lockstep_members (K := Eq) (R := Told P f.name) ?_ ?_ ⟨[], rfl, by simp⟩).bind ?_
        · exact fun _ _ => lockstep_text _ _
        · rintro slots xs k _ j h rfl
          exact lockstep_fieldMember (fun fuel j => hread fuel _ j) h k fuel
        · intro slots xs j h path path' u u' u₁ u₁' w x hu hu' hr hq
          obtain ⟨ms, hms, rfl⟩ := exists_of_map_eq_ok hr
          obtain ⟨hfinish, rfl⟩ := exists_of_ofExcept_eq_ok hms
          cases hq
          refine ⟨hu.trans hu'.symm, fun v hv => ?_⟩
          cases hv
          exact h.get? (Slots.lookup_of_finish hfinish)
    | _ => exact lockstep_of_fails (not_ok_absent hrequired _ expected)

/-- The reader has made `a` of a node, and one who reads values has made `x` of the same node. The
paths to it, which only complaints show, are left open, and so are the aliases followed so far. -/
def Meet (d : Document) (r : Reader α) (a : α) (x : Content) : Prop :=
  ∃ (fuel depth : Nat) (path path' : Option String) (w w' v v' : Walk), w.position = w'.position ∧
    r ⟨d, depth, path⟩ w = .ok a v ∧ value fuel ⟨d, depth, path'⟩ w' = .ok x v'

theorem InStep.meet (h : InStep d r) (fuel depth i : Nat) :
    Lockstep (Meet d r) r (value fuel) d depth i := by
  intro path path' w w' v v' a x hw hw' hr hvalue
  exact ⟨(h fuel depth i hw hw' hr hvalue).1, fuel, depth, path, path', w, w', v, v',
    hw.trans hw'.symm, hr, hvalue⟩

end Reader

/-- `w`, which has the shape `s`, and `o`, a value of any shape, are read from the same node of the
document in the bytes. -/
def SameNode (s : Shape) (bs : Bytes) (w o : Value) : Prop :=
  ∃ x, Reader.Meet (Document.ofBytes bs).1 s.ofEvents w x ∧ o = x.toValue

variable {P : Value → Content → Prop}

/-- The field of a record goes with the member of its name, if all that its reader and one of values
make of the same node go together. -/
theorem exists_get?_of_lockstep
    (hread : ∀ fuel depth j,
      Reader.Lockstep P s.ofEvents (Reader.value fuel) (Document.ofBytes bs).1 depth j)
    (h : Yaml.read (.ofFields title [(name, true, s)]) bs = .ok (.object [(name, w)]))
    (hv : Yaml.read .any bs = .ok v) : ∃ x, v.get? name = some x.toValue ∧ P w x := by
  obtain ⟨u, hrecord⟩ := exists_of_read_eq_ok h
  obtain ⟨u', hany⟩ := exists_of_read_eq_ok hv
  obtain ⟨x, hvalue, rfl⟩ := Reader.exists_of_map_eq_ok hany
  have hlockstep := @Reader.lockstep_record (Document.ofBytes bs).1 Reader.maxDepth 0 P
    ⟨name, true, s.ofEvents⟩ ("struct " ++ title) hread rfl Reader.anyFuel
  exact (hlockstep rfl rfl hrecord hvalue).2 w rfl

/-- A word in a record of YAML is the member of its name. -/
theorem get?_of_read {expected : String} {check : String → Except String Unit}
    (hcheck : ∀ text, check (String.ofList text) = .ok () → Plain.IsWord text)
    (h : Yaml.read (.ofFields title [(name, true, .text expected check)]) bs =
      .ok (.object [(name, w)]))
    (hv : Yaml.read .any bs = .ok v) : v.get? name = some (.string w.asString) := by
  obtain ⟨_, hx, rfl⟩ := exists_get?_of_lockstep
    (fun fuel _ _ => Reader.lockstep_checkedString hcheck fuel) h hv
  exact hx

/-- A field of YAML is read from the node of the member of its name. -/
theorem exists_get?_of_read (h : Yaml.read (.ofFields title [(name, true, s)]) bs =
      .ok (.object [(name, w)]))
    (hv : Yaml.read .any bs = .ok v) : ∃ o, v.get? name = some o ∧ SameNode s bs w o := by
  obtain ⟨x, hx, hmeet⟩ := exists_get?_of_lockstep (s.inStep _).meet h hv
  exact ⟨x.toValue, hx, x, hmeet, rfl⟩

end Yaml

end KubeClient
