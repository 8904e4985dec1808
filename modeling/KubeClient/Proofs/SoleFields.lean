import KubeClient.Codec.Serializer
import KubeClient.Proofs.Deletions
import KubeClient.Proofs.YamlSteppedOver

/-!
# Records of one field

The type of an event and its object are each read as a record whose only field they are.

* `Shape.Gives` : what is read as a shape, in all notations;
* `Json.Reader.sole_of_record`, `Yaml.Reader.sole_of_record` : a record is read as its field;
* `Shape.Gives.of_read` : the same for whole documents.
-/

namespace KubeClient

variable {P : Value → Prop} {name : String} {v w : Value}

/-- If only values with `P` were read, the field is one of them. -/
theorem Slots.sole_of_finish {slots : Slots} {required : Bool} {ms : List (String × Value)}
    (hP : ∀ m ∈ slots, P m.2) (hsome : required = true ∨ (slots.lookup name).isSome)
    (h : slots.finish [(name, required)] = .ok ms) : ∃ v, ms = [(name, v)] ∧ P v := by
  rw [finish] at h
  cases hlookup : slots.lookup name with
  | none =>
    rw [hlookup] at h hsome
    obtain rfl : required = true := by simpa using hsome
    cases h
  | some v =>
    rw [hlookup] at h
    cases h
    obtain ⟨before, behind, rfl, -⟩ := List.lookup_eq_some_iff.mp hlookup
    exact ⟨v, rfl, hP (name, v) (by simp)⟩

theorem Slots.forall_put {slots : Slots} (hP : ∀ m ∈ slots, P m.2) (hv : P v) :
    ∀ m ∈ slots.put name v, P m.2 := by
  intro m hm
  rcases List.mem_append.mp hm with hm | hm
  · exact hP m hm
  · rw [List.mem_singleton.mp hm]
    exact hv

/-! ### JSON -/

namespace Json.Reader

variable {field : Field} {depth : Nat} {expected : String} {c d : Cursor}

theorem exists_of_fieldMember_eq_ok {fields : List Field} {slots slots' : Slots} {n : String}
    (h : fieldMember fields depth slots n c = .ok slots' d) :
    slots' = slots ∨ ∃ f ∈ fields, ∃ c' v, f.read depth c' = .ok v d ∧ slots' = slots.put n v := by
  unfold fieldMember at h
  cases hfind : fields.find? fun f => f.name == n with
  | none =>
    rw [hfind] at h
    obtain ⟨_, c₁, -, h⟩ := exists_of_bind_eq_ok h
    obtain ⟨_, c₂, -, h⟩ := exists_of_bind_eq_ok h
    cases h
    exact .inl rfl
  | some f =>
    rw [hfind] at h
    dsimp only at h
    split at h
    · cases h
    · obtain ⟨_, c₁, -, h⟩ := exists_of_bind_eq_ok h
      obtain ⟨v, c₂, hread, h⟩ := exists_of_bind_eq_ok h
      cases h
      exact .inr ⟨f, List.mem_of_find?_eq_some hfind, c₁, v, hread, rfl⟩

/-- What every member keeps, all members keep. -/
theorem members_keep {α : Type} {Q : α → Prop} {member : α → String → Reader α}
    (hmember : ∀ a n c a' d, Q a → member a n c = .ok a' d → Q a') {a a' : α} (ha : Q a)
    (h : members member a c = .ok a' d) : Q a' := by
  have hlockstep : Lockstep (fun a b => a = b ∧ Q a) (members member a) (members member a) c := by
    refine lockstep_members ?_ ⟨rfl, ha⟩
    rintro a _ n c ⟨rfl, ha⟩ b d b' d' hb hb'
    cases hb.symm.trans hb'
    exact ⟨rfl, rfl, hmember a n c b d ha hb⟩
  exact (hlockstep a' d a' d h h).2.2

theorem exists_of_map_ofExcept_eq_ok {α β : Type} {f : α → β} {o : Except Cause α} {b : β}
    (h : (f <$> ofExcept o) c = .ok b d) : ∃ a, o = .ok a ∧ b = f a := by
  rw [map_eq_pure_bind] at h
  obtain ⟨a, c', ha, hpure⟩ := exists_of_bind_eq_ok h
  cases hpure
  cases o with
  | error cause => cases ha
  | ok a' =>
    cases ha
    exact ⟨a, rfl, rfl⟩

theorem sole_of_namedFields (hrequired : field.required = true)
    (hP : ∀ depth c v d, field.read depth c = .ok v d → P v)
    (h : namedFields [field] depth c = .ok w d) : ∃ v, w = .object [(field.name, v)] ∧ P v := by
  obtain ⟨slots, c', hmembers, h⟩ := exists_of_bind_eq_ok h
  obtain ⟨ms, hfinish, rfl⟩ := exists_of_map_ofExcept_eq_ok h
  have hslots : ∀ m ∈ slots, P m.2 := by
    refine members_keep (Q := fun slots => ∀ m ∈ slots, P m.2) ?_ (by simp) hmembers
    intro slots n c slots' d hP' h
    rcases exists_of_fieldMember_eq_ok h with rfl | ⟨f, hf, c', v, hread, rfl⟩
    · exact hP'
    · rw [List.mem_singleton.mp hf] at hread
      exact Slots.forall_put hP' (hP depth c' v d hread)
  obtain ⟨v, rfl, hv⟩ := Slots.sole_of_finish hslots (.inl hrequired) hfinish
  exact ⟨v, rfl, hv⟩

/-- A list holds the field if it holds an item. -/
theorem exists_of_positionalFields_eq_ok (hrequired : field.required = true) {words : String}
    {slots : Slots} (h : positionalFields words depth 0 [] [field] c = .ok slots d) :
    ∃ c' v d', field.read depth c' = .ok v d' ∧ slots = [(field.name, v)] := by
  obtain ⟨more, c₁, -, h⟩ := exists_of_bind_eq_ok h
  cases more with
  | false =>
    rw [if_neg Bool.false_ne_true, if_pos hrequired] at h
    cases h
  | true =>
    rw [if_pos rfl] at h
    obtain ⟨v, c₂, hread, h⟩ := exists_of_bind_eq_ok h
    cases h
    exact ⟨c₁, v, d, hread, rfl⟩

/-- A record is read as its only field. -/
theorem sole_of_record (hrequired : field.required = true)
    (hP : ∀ depth c v d, field.read depth c = .ok v d → P v)
    (h : record expected [field] depth c = .ok w d) : ∃ v, w = .object [(field.name, v)] ∧ P v := by
  rw [record, locate_eq_ok] at h
  obtain ⟨b, c₁, -, h⟩ := exists_of_bind_eq_ok h
  cases b with
  | none => cases h
  | some b =>
    dsimp only at h
    split at h
    · obtain ⟨c₂, d', -, h, -⟩ := exists_of_nested_eq_ok h
      exact sole_of_namedFields hrequired hP h
    · split at h
      · obtain ⟨c₂, d', -, h, -⟩ := exists_of_nested_eq_ok h
        obtain ⟨slots, c₃, hslots, h⟩ := exists_of_bind_eq_ok h
        obtain ⟨ms, hfinish, rfl⟩ := exists_of_map_ofExcept_eq_ok h
        obtain ⟨c₄, v, d₄, hread, rfl⟩ := exists_of_positionalFields_eq_ok hrequired hslots
        obtain ⟨v', rfl, hv⟩ := Slots.sole_of_finish (P := P)
          (by simpa using hP _ _ _ _ hread) (.inr (by simp)) hfinish
        exact ⟨v', rfl, hv⟩
      · exact (not_ok_mismatch expected c₁ w d h).elim

theorem exists_of_checkedString_eq_ok {check : String → Except String Unit}
    (h : checkedString expected check c = .ok v d) : ∃ s, v = .string s ∧ check s = .ok () := by
  rw [checkedString, locate_eq_ok] at h
  obtain ⟨b, c₁, -, h⟩ := exists_of_bind_eq_ok h
  cases b with
  | none => cases h
  | some b =>
    dsimp only at h
    split at h
    · obtain ⟨s, c₂, -, h⟩ := exists_of_bind_eq_ok h
      cases hcheck : check s with
      | error _ =>
        rw [hcheck] at h
        cases h
      | ok _ =>
        rw [hcheck] at h
        cases h
        exact ⟨s, rfl, hcheck⟩
    · exact (not_ok_mismatch expected c₁ v d h).elim

end Json.Reader

/-! ### YAML -/

namespace Yaml.Reader

variable {field : Field} {expected : String} {p : Place} {u u' : Walk}

theorem exists_of_fieldMember_eq_ok {fields : List Field} {slots slots' : Slots} {n : String}
    (h : fieldMember fields slots n p u = .ok slots' u') :
    slots' = slots ∨ ∃ f ∈ fields, ∃ p v, f.read p u = .ok v u' ∧ slots' = slots.put n v := by
  unfold fieldMember at h
  cases hfind : fields.find? fun f => f.name == n with
  | none =>
    rw [hfind] at h
    obtain ⟨_, u₁, -, h⟩ := exists_of_bind_eq_ok h
    cases h
    exact .inl rfl
  | some f =>
    rw [hfind] at h
    dsimp only at h
    split at h
    · cases h
    · obtain ⟨v, u₁, hread, h⟩ := exists_of_bind_eq_ok h
      cases h
      exact .inr ⟨f, List.mem_of_find?_eq_some hfind, p, v, hread, rfl⟩

/-- What every member keeps, all members keep. -/
theorem foldMembers_keep {α κ : Type} {Q : α → Prop} {key : Bool → Reader κ}
    {member : α → κ → Reader α} (hmember : ∀ a k p u a' u', Q a → member a k p u = .ok a' u' → Q a')
    (first : Bool) {a a' : α} (ha : Q a) (fuel : Nat)
    (h : foldMembers key member first a fuel p u = .ok a' u') : Q a' := by
  induction fuel generalizing first a u with
  | zero => cases h
  | succ fuel ih =>
    obtain ⟨e, -, hturn⟩ := exists_of_foldMembers_eq_ok h
    rcases hturn with ⟨-, rfl, -⟩ | ⟨-, text, k, b, u₁, u₂, -, hb, hrest⟩
    · exact ha
    · exact ih false (hmember a k _ u₁ b u₂ ha hb) hrest

/-- A record is read as its only field. -/
theorem sole_of_record (hrequired : field.required = true)
    (hP : ∀ p u v u', field.read p u = .ok v u' → P v)
    (h : record expected [field] p u = .ok w u') : ∃ v, w = .object [(field.name, v)] ∧ P v := by
  have hfinish : ∀ slots : Slots, (∀ m ∈ slots, P m.2) → ∀ p u u',
      (Value.object <$> ofExcept (slots.finish (declared [field])) : Reader Value) p u =
        .ok w u' → ∃ v, w = .object [(field.name, v)] ∧ P v := by
    intro slots hslots p u u' h
    obtain ⟨ms, hms, rfl⟩ := exists_of_map_eq_ok h
    obtain ⟨hfinish, -⟩ := exists_of_ofExcept_eq_ok hms
    obtain ⟨v, rfl, hv⟩ := Slots.sole_of_finish hslots (.inl hrequired) hfinish
    exact ⟨v, rfl, hv⟩
  obtain ⟨n, m, u₁, u₂, -, -, h, -⟩ := exists_of_node_eq_ok h
  cases n with
  | mappingStart tag =>
    obtain ⟨slots, u₃, hmembers, h⟩ := exists_of_bind_eq_ok h
    refine hfinish slots ?_ p u₃ u₂ h
    refine foldMembers_keep (Q := fun slots : Slots => ∀ m ∈ slots, P m.2) ?_ true (by simp) _
      (exists_of_members_eq_ok hmembers)
    intro slots k p u slots' u' hslots h
    rcases exists_of_fieldMember_eq_ok h with rfl | ⟨f, hf, p, v, hread, rfl⟩
    · exact hslots
    · rw [List.mem_singleton.mp hf] at hread
      exact Slots.forall_put hslots (hP p u v u' hread)
  | _ =>
    dsimp only at h
    split at h
    · exact hfinish [] (by simp) p _ _ h
    · exact (not_ok_mismatch _ expected p _ w _ h).elim

theorem exists_of_checkedString_eq_ok {check : String → Except String Unit}
    (h : checkedString expected check p u = .ok v u') : ∃ s, v = .string s ∧ check s = .ok () := by
  obtain ⟨n, m, u₁, u₂, -, -, h, -⟩ := exists_of_node_eq_ok h
  cases n with
  | scalar tag text style =>
    dsimp only at h
    cases hcheck : check (String.ofList text) with
    | error _ =>
      rw [hcheck] at h
      cases h
    | ok _ =>
      rw [hcheck] at h
      cases h
      exact ⟨_, rfl, hcheck⟩
  | _ => exact (not_ok_mismatch _ expected p _ v _ h).elim

end Yaml.Reader

/-! ### Documents -/

/-- Only values with `P` are read as the shape. -/
structure Shape.Gives (s : Shape) (P : Value → Prop) : Prop where
  ofText : ∀ depth c v d, s.ofText depth c = .ok v d → P v
  ofEvents : ∀ p u v u', s.ofEvents p u = .ok v u' → P v

theorem Shape.Gives.mono {Q : Value → Prop} {s : Shape} (hs : s.Gives P) (h : ∀ v, P v → Q v) :
    s.Gives Q where
  ofText depth c v d hread := h v (hs.ofText depth c v d hread)
  ofEvents p u v u' hread := h v (hs.ofEvents p u v u' hread)

theorem Shape.gives_text (expectation : String) (check : String → Except String Unit) :
    (Shape.text expectation check).Gives fun v => ∃ s, v = .string s ∧ check s = .ok () where
  ofText _ _ _ _ h := Json.Reader.exists_of_checkedString_eq_ok h
  ofEvents _ _ _ _ h := Yaml.Reader.exists_of_checkedString_eq_ok h

theorem Shape.gives_true (s : Shape) : s.Gives fun _ => True where
  ofText _ _ _ _ _ := trivial
  ofEvents _ _ _ _ _ := trivial

theorem Shape.Gives.sole {s : Shape} (hs : s.Gives P) (record : String) :
    (Shape.ofFields record [(name, true, s)]).Gives fun w =>
      ∃ v, w = .object [(name, v)] ∧ P v where
  ofText _ _ _ _ h := Json.Reader.sole_of_record rfl hs.ofText h
  ofEvents _ _ _ _ h := Yaml.Reader.sole_of_record rfl hs.ofEvents h

theorem Yaml.exists_of_read_eq_ok {s : Shape} {bs : Bytes} (h : Yaml.read s bs = .ok v) :
    ∃ u, s.ofEvents ⟨(Document.ofBytes bs).1, Reader.maxDepth, none⟩ ⟨0, 0⟩ = .ok v u := by
  unfold Yaml.read at h
  dsimp only at h
  cases hread : s.ofEvents ⟨(Document.ofBytes bs).1, Reader.maxDepth, none⟩ ⟨0, 0⟩ with
  | error f u =>
    rw [hread] at h
    cases h
  | ok v' u =>
    rw [hread] at h
    cases hfault : (Document.ofBytes bs).1.fault with
    | some f =>
      rw [hfault] at h
      cases h
    | none =>
      rw [hfault] at h
      dsimp only at h
      split at h
      · cases h
      · cases h
        exact ⟨u, rfl⟩

theorem mapError_eq_ok {ε ε' α : Type} {f : ε → ε'} {x : Except ε α} {a : α} :
    x.mapError f = .ok a ↔ x = .ok a := by
  cases x <;> simp [Except.mapError]

/-- What is read from a document. -/
theorem Shape.Gives.of_read {s : Shape} (hs : s.Gives P) {format : Format} {bs : Bytes}
    (h : format.read s bs = .ok v) : P v := by
  cases format with
  | json =>
    obtain ⟨d, htext, -⟩ := Json.exists_of_read_eq_ok (mapError_eq_ok.mp h)
    exact hs.ofText _ _ v d htext
  | yaml =>
    obtain ⟨u, hevents⟩ := Yaml.exists_of_read_eq_ok (mapError_eq_ok.mp h)
    exact hs.ofEvents _ _ v u hevents

end KubeClient
