import KubeClient.Proofs.YamlSteppedOver

/-!
# Nodes of a shape

Whatever shape is asked for, a node of YAML ends where it ends for one who reads it as a value of
any shape. So both readers go on with the same node behind it.

* `Yaml.Reader.InStep` : a reader that keeps step with values;
* `Yaml.Reader.Still` : a reader that takes no event;
* `Yaml.Reader.inStep_node`, `inStep_optional`, `inStep_record` and the other rules : nodes of each
  kind;
* `Shape.inStep` : all shapes.
-/

namespace KubeClient

namespace Yaml.Reader

variable {α β : Type} {d : Document} {depth i n k : Nat} {r : Reader α} {q : Reader β}
  {fields : List Field} {expected : String}

/-- A node has one end. -/
theorem SteppedOver.unique (h : SteppedOver d i n) (h' : SteppedOver d i k) : n = k := by
  have hskip := skip_of_steppedOver (p := ⟨d, 0, none⟩) (w := ⟨i, 0⟩) h
  have hskip' := skip_of_steppedOver (p := ⟨d, 0, none⟩) (w := ⟨i, 0⟩) h'
  obtain ⟨-, hwalks⟩ := EStateM.Result.ok.inj (hskip.symm.trans hskip')
  exact Nat.add_left_cancel (congrArg Walk.position hwalks)

/-- Where the reader and one of values both succeed at an event, they come equally far. -/
def InStep (d : Document) (r : Reader α) : Prop :=
  ∀ fuel depth i, Lockstep (fun _ _ => True) r (value fuel) d depth i

theorem Passes.lockstep (hr : Passes d r) (hq : Passes d q) :
    Lockstep (fun _ _ => True) r q d depth i := by
  intro path path' w w' v v' a b hw hw' ha hb
  obtain ⟨n, hv, hn⟩ := hr rfl ha
  obtain ⟨k, hv', hk⟩ := hq rfl hb
  rw [hw] at hv hn
  rw [hw'] at hv' hk
  rw [hv, hv', hn.unique hk]
  exact ⟨rfl, trivial⟩

theorem Passes.inStep (h : Passes d r) : InStep d r :=
  fun fuel _ _ => h.lockstep (passes_value fuel)

/-! ### Readers that take nothing -/

/-- Where the reader succeeds, it has taken no event. -/
def Still (r : Reader α) : Prop :=
  ∀ ⦃p w a v⦄, r p w = .ok a v → v.position = w.position

theorem lockstep_of_still (hr : Still r) (hq : Still q) :
    Lockstep (fun _ _ => True) r q d depth i := by
  intro path path' w w' v v' a b hw hw' ha hb
  exact ⟨by rw [hr ha, hq hb, hw, hw'], trivial⟩

theorem still_pure (a : α) : Still (pure a : Reader α) := by
  intro p w a' v h
  cases h
  rfl

theorem still_of_fails (h : ∀ p w a v, r p w ≠ .ok a v) : Still r :=
  fun p w a v hr => (h p w a v hr).elim

theorem still_ofExcept (o : Except Cause α) : Still (ofExcept o) := by
  intro p w a v h
  rw [(exists_of_ofExcept_eq_ok h).2]

theorem Still.map (h : Still r) (f : α → β) : Still (f <$> r) := by
  intro p w b v hb
  obtain ⟨a, ha, -⟩ := exists_of_map_eq_ok hb
  exact h ha

theorem still_ite {c : Prop} [Decidable c] {r' : Reader α} (h : Still r) (h' : Still r') :
    Still (if c then r else r') := by
  split
  · exact h
  · exact h'

theorem still_failShape (cause : Cause) : Still (failShape cause : Reader α) :=
  still_of_fails fun _ _ _ _ h => by cases h

theorem still_mismatch (n : Node) (expected : String) : Still (mismatch n expected : Reader α) :=
  still_of_fails (not_ok_mismatch n expected)

theorem completes_of_still {n : Node} (hlevel : ∀ l, n.level l = l) (h : Still r) :
    Completes d n r :=
  fun _ _ _ _ _ hr => .inl ⟨hlevel, h hr⟩

theorem Passes.thenStill {f : α → Reader β} (h : Passes d r) (hf : ∀ a, Still (f a)) :
    Passes d (r >>= f) := by
  intro p w b v hp hb
  obtain ⟨a, u, hr, hf'⟩ := exists_of_bind_eq_ok hb
  rw [hf a hf']
  exact h hp hr

theorem Lockstep.thenStill {γ : Type} {f : α → Reader γ}
    (h : Lockstep (fun _ _ => True) r q d depth i) (hf : ∀ a, Still (f a)) :
    Lockstep (fun _ _ => True) (r >>= f) q d depth i := by
  intro path path' w w' v v' c b hw hw' hr hq
  obtain ⟨a, u, hr, hf'⟩ := exists_of_bind_eq_ok hr
  rw [hf a hf']
  exact h hw hw' hr hq

theorem Closes.thenStill {f : α → Reader β} (h : Closes d r) (hf : ∀ a, Still (f a)) :
    Closes d (r >>= f) := by
  intro p w b v hp hb
  obtain ⟨a, u, hr, hf'⟩ := exists_of_bind_eq_ok hb
  rw [hf a hf']
  exact h hp hr

/-! ### Scalars -/

theorem passes_checkedString (expected : String) (check : String → Except String Unit) :
    Passes d (checkedString expected check) := by
  refine passes_node fun n m => ?_
  cases n with
  | scalar tag text style =>
    refine completes_of_still (fun _ => rfl) ?_
    dsimp only
    split
    · exact still_pure _
    · exact still_failShape _
  | _ => exact completes_of_fails (not_ok_mismatch _ expected)

theorem passes_boolean : Passes d boolean := by
  refine passes_node fun n m => ?_
  cases n with
  | scalar tag text style =>
    refine completes_of_still (fun _ => rfl) ?_
    dsimp only
    split
    · exact still_pure _
    · exact still_mismatch _ _
  | _ => exact completes_of_fails (not_ok_mismatch _ _)

theorem passes_boundedInt (word : String) (low high : Int) :
    Passes d (boundedInt word low high) := by
  refine passes_node fun n m => ?_
  cases n with
  | scalar tag text style =>
    refine completes_of_still (fun _ => rfl) ?_
    dsimp only
    split
    · exact still_ofExcept _
    · exact still_mismatch _ _
  | _ => exact completes_of_fails (not_ok_mismatch _ _)

theorem passes_unit : Passes d unit := by
  refine passes_node fun n m => ?_
  cases n with
  | void => exact completes_of_still (fun _ => rfl) (still_pure _)
  | scalar tag text style =>
    exact completes_of_still (fun _ => rfl) (still_ite (still_pure _) (still_failShape _))
  | _ => exact completes_of_fails (not_ok_mismatch _ _)

theorem passes_intOrString : Passes d intOrString := by
  unfold intOrString
  refine passes_node fun n m => ?_
  cases n with
  | scalar tag text style =>
    refine completes_of_still (fun _ => rfl) ?_
    intro p w a v h
    dsimp only at h
    split at h
    · cases h
    · obtain ⟨f, u, hfound, hkind⟩ := exists_of_bind_eq_ok h
      obtain ⟨-, rfl⟩ := exists_of_ofExcept_eq_ok hfound
      cases f with
      | string s => exact still_pure _ hkind
      | int n => exact still_ofExcept _ hkind
      | _ => cases hkind
  | _ => exact completes_of_fails fun _ _ _ _ h => by cases h

/-! ### Nodes -/

/-- One more item of a list, the last one first. -/
def valueItem (fuel : Nat) (xs : List Content) : Reader (List Content) := do
  return (← value fuel) :: xs

/-- One more member of a value, the last one first. -/
def valueMember (fuel : Nat) (xs : List (Content × Content)) (k : String) :
    Reader (List (Content × Content)) := do
  return (.string k, ← value fuel) :: xs

/-- A reader of nodes keeps step if it does so in lists and in mappings, and takes nothing else
behind the first event of another node. -/
theorem inStep_node {r : Node → Mark → Reader α}
    (hlist : ∀ tag m fuel depth i, Lockstep (fun _ _ => True) (r (.sequenceStart tag) m)
      (do let xs ← items m (valueItem fuel) []; return Content.list xs.reverse) d depth i)
    (hmap : ∀ tag m fuel depth i, Lockstep (fun _ _ => True) (r (.mappingStart tag) m)
      (do
        let xs ← members m (fun first => text (if first then "a string key" else "a string"))
          (valueMember fuel) []
        return Content.map xs.reverse) d depth i)
    (hrest : ∀ n m, (∀ tag, n ≠ .sequenceStart tag) → (∀ tag, n ≠ .mappingStart tag) →
      Still (r n m)) : InStep d (node r) := by
  intro fuel depth i
  cases fuel with
  | zero => exact lockstep_of_fails_right fun _ _ _ _ hq => by cases hq
  | succ fuel =>
    intro path path' w w' v v' a x hw hw' hr hq
    obtain ⟨y, hq, -⟩ := exists_of_map_eq_ok hq
    refine lockstep_node (R := fun _ _ => True) (fun n m j => ?_) hw hw' hr hq
    cases n with
    | sequenceStart tag =>
      dsimp only
      split
      · exact lockstep_of_fails_right fun _ _ _ _ hq => by cases hq
      · exact hlist tag m fuel depth j
    | mappingStart tag =>
      dsimp only
      split
      · exact lockstep_of_fails_right fun _ _ _ _ hq => by cases hq
      · exact hmap tag m fuel depth j
    | scalar tag text style =>
      refine lockstep_of_still (hrest _ m (by simp) (by simp)) ?_
      intro p w x v h
      dsimp only at h
      split at h
      · cases h
      · rw [(exists_of_anyScalar_eq_ok h).1]
    | void => exact lockstep_of_still (hrest _ m (by simp) (by simp)) (still_pure _)
    | _ => exact lockstep_of_fails_right fun _ _ _ _ hq => by cases hq

/-! ### Collections -/

theorem exists_of_foldItems_eq_ok {item : α → Reader α} {index fuel : Nat} {a a' : α} {p : Place}
    {w v : Walk} (h : foldItems item index a (fuel + 1) p w = .ok a' v) :
    ∃ e, p.document.events[w.position]? = some e ∧
      ((e.1 = .sequenceEnd ∧ v.position = w.position + 1) ∨
      (e.1 ≠ .sequenceEnd ∧ ∃ b w₁, atItem index (item a) p w = .ok b w₁ ∧
        foldItems item (index + 1) b fuel p w₁ = .ok a' v)) := by
  obtain ⟨e, _, hpeek, h⟩ := exists_of_bind_eq_ok h
  obtain ⟨hevent, rfl⟩ := exists_of_peek_eq_ok hpeek
  obtain ⟨n, m⟩ := e
  refine ⟨(n, m), hevent, ?_⟩
  cases n with
  | sequenceEnd =>
    obtain ⟨_, w₁, hadvance, h⟩ := exists_of_bind_eq_ok h
    cases hadvance
    cases h
    exact .inl ⟨rfl, rfl⟩
  | _ =>
    obtain ⟨b, w₁, hitem, h⟩ := exists_of_bind_eq_ok h
    exact .inr ⟨by simp, b, w₁, hitem, h⟩

theorem lockstep_foldItems {item : α → Reader α} {item' : β → Reader β}
    (h : ∀ a b j, Lockstep (fun _ _ => True) (item a) (item' b) d depth j) (index : Nat) (a : α)
    (b : β) (fuel : Nat) : Lockstep (fun _ _ => True) (foldItems item index a fuel)
      (foldItems item' index b fuel) d depth i := by
  induction fuel generalizing index a b i with
  | zero => exact lockstep_of_fails fun _ _ _ _ hr => by cases hr
  | succ fuel ih =>
    intro path path' w w' v v' a' b' hw hw' hr hq
    obtain ⟨e, hevent, hr⟩ := exists_of_foldItems_eq_ok hr
    obtain ⟨e', hevent', hq⟩ := exists_of_foldItems_eq_ok hq
    dsimp only at hevent hevent'
    rw [hw] at hevent
    rw [hw'] at hevent'
    cases hevent.symm.trans hevent'
    rcases hr with ⟨hclosed, hv⟩ | ⟨hopen, a₁, w₁, hr, htail⟩
    · rcases hq with ⟨-, hv'⟩ | ⟨hopen, -⟩
      · exact ⟨by rw [hv, hv', hw, hw'], trivial⟩
      · exact (hopen hclosed).elim
    · rcases hq with ⟨hclosed, -⟩ | ⟨-, b₁, w₁', hq, htail'⟩
      · exact (hopen hclosed).elim
      · obtain ⟨hw₁, -⟩ := h a b i hw hw' hr hq
        exact ih (index + 1) a₁ b₁ rfl hw₁.symm htail htail'

theorem lockstep_items {item : α → Reader α} {item' : β → Reader β} {m : Mark}
    (h : ∀ a b j, Lockstep (fun _ _ => True) (item a) (item' b) d (depth - 1) j) (a : α) (b : β) :
    Lockstep (fun _ _ => True) (items m item a) (items m item' b) d depth i := by
  intro path path' w w' v v' a' b' hw hw' hr hq
  exact lockstep_foldItems h 0 a b _ hw hw' (exists_of_sized_eq_ok hr) (exists_of_sized_eq_ok hq)

/-- Where a collection may stand, nothing may stand as well. -/
theorem still_empty (n : Node) {a : Reader α} (h : Still a) (expected : String) :
    Still (if isEmpty n then a else mismatch n expected) :=
  still_ite h (still_mismatch n expected)

theorem not_ok_filled {n : Node} (hn : isEmpty n = false) (a : Reader α) (expected : String)
    (p : Place) (w : Walk) (b : α) (v : Walk) :
    (if isEmpty n then a else mismatch n expected : Reader α) p w ≠ .ok b v := by
  rw [if_neg (Bool.eq_false_iff.mp hn)]
  exact not_ok_mismatch n expected p w b v

theorem inStep_list {r : Reader Value} (h : InStep d r) (expected : String) :
    InStep d (list expected r) := by
  refine inStep_node ?_ ?_ ?_
  · intro tag m fuel depth i
    refine (lockstep_items (fun vs xs j => ?_) [] []).bind fun _ _ _ _ => lockstep_pure trivial
    exact (h fuel _ j).bind fun _ _ _ _ => lockstep_pure trivial
  · exact fun tag m _ _ _ => lockstep_of_fails (not_ok_filled rfl _ expected)
  · intro n m hlist _
    cases n with
    | sequenceStart tag => exact (hlist tag rfl).elim
    | _ => exact still_empty _ (still_pure _) expected

theorem inStep_map {r : Reader Value} (h : InStep d r) (expected : String) :
    InStep d (map expected r) := by
  refine inStep_node ?_ ?_ ?_
  · exact fun tag m _ _ _ => lockstep_of_fails (not_ok_filled rfl _ expected)
  · intro tag m fuel depth i
    refine (lockstep_members (K := fun _ _ => True) (R := fun _ _ => True) ?_ ?_ trivial).bind
      fun _ _ _ _ => lockstep_pure trivial
    · exact fun _ j => (passes_text _).lockstep (passes_text _)
    · exact fun ms xs k k' j _ _ => (h fuel _ j).bind fun _ _ _ _ => lockstep_pure trivial
  · intro n m _ hmap
    cases n with
    | mappingStart tag => exact (hmap tag rfl).elim
    | _ => exact still_empty _ (still_pure _) expected

/-- The member of a record, be it a field or not, ends where it ends for one who reads a value. -/
theorem inStep_fieldMember (h : ∀ f ∈ fields, InStep d f.read) (slots : Slots) (k k' : String)
    (fuel : Nat) (xs : List (Content × Content)) : Lockstep (fun _ _ => True)
      (fieldMember fields slots k) (valueMember fuel xs k') d depth i := by
  unfold fieldMember
  cases hfind : fields.find? fun f => f.name == k with
  | none => exact (lockstep_skip fuel depth).bind fun _ _ _ _ => lockstep_pure trivial
  | some f =>
    dsimp only
    split
    · exact lockstep_of_fails fun _ _ _ _ hr => by cases hr
    · exact (h f (List.mem_of_find?_eq_some hfind) fuel depth i).bind
        fun _ _ _ _ => lockstep_pure trivial

theorem inStep_record (h : ∀ f ∈ fields, InStep d f.read) (expected : String) :
    InStep d (record expected fields) := by
  refine inStep_node ?_ ?_ ?_
  · exact fun tag m _ _ _ => lockstep_of_fails (not_ok_filled rfl _ expected)
  · intro tag m fuel depth i
    refine (lockstep_members (K := fun _ _ => True) (R := fun _ _ => True) ?_ ?_ trivial).bind
      fun _ _ _ _ => lockstep_of_still ((still_ofExcept _).map _) (still_pure _)
    · exact fun _ j => (passes_text _).lockstep (passes_text _)
    · exact fun slots xs k k' j _ _ => inStep_fieldMember h slots k k' fuel xs
  · intro n m _ hmap
    cases n with
    | mappingStart tag => exact (hmap tag rfl).elim
    | _ => exact still_empty _ ((still_ofExcept _).map _) expected

/-! ### Nodes whose shape is not known yet -/

theorem passes_content (fuel : Nat) : Passes d (content fuel) := by
  induction fuel with
  | zero =>
    intro p w x v hp hr
    cases hr
  | succ fuel ih =>
    refine passes_anyNode (fun m => ?_) fun m => ?_
    · exact (closes_items (fun cs => ih.andReturn (· :: cs)) m []).andReturn
        fun cs => Content.list cs.reverse
    · exact (closes_members (fun _ => ih) (fun ms k => ih.andReturn fun x => (k, x) :: ms) m
        []).andReturn fun ms => Content.map ms.reverse

theorem inStep_merged (h : ∀ f ∈ fields, InStep d f.read) (expected : String)
    (inner : List Content.Field) : InStep d (merged expected fields inner) := by
  refine inStep_node ?_ ?_ ?_
  · exact fun tag m _ _ _ => lockstep_of_fails (not_ok_filled rfl _ expected)
  · intro tag m fuel depth i
    refine (lockstep_members (K := fun _ _ => True) (R := fun _ _ => True) ?_ ?_ trivial).bind
      fun _ _ _ _ => lockstep_of_still (still_ofExcept _) (still_pure _)
    · exact fun _ j => (passes_text _).lockstep (passes_text _)
    · rintro ⟨slots, others⟩ xs k k' j - -
      dsimp only
      split
      · exact ((passes_content anyFuel).inStep fuel _ j).bind
          fun _ _ _ _ => lockstep_pure trivial
      · exact (inStep_fieldMember h slots k k' fuel xs).thenStill fun _ => still_pure _
  · intro n m _ hmap
    cases n with
    | mappingStart tag => exact (hmap tag rfl).elim
    | _ => exact still_empty _ (still_ofExcept _) expected

theorem passes_caseName (cases : List Content.Field) : Passes d (caseName cases) := by
  refine passes_node fun n m => ?_
  cases n with
  | scalar tag text style =>
    refine completes_of_still (fun _ => rfl) ?_
    intro p w x v h
    obtain ⟨_, u, hcase, hpure⟩ := exists_of_bind_eq_ok h
    rw [← still_ofExcept _ hcase]
    exact still_pure _ hpure
  | _ => exact completes_of_fails (not_ok_mismatch _ _)

theorem closes_taggedMembers (tag : String) (cases : List Content.Field) (m : Mark) :
    Closes d (taggedMembers tag cases m) := by
  refine Closes.thenStill (closes_members (fun _ => passes_content _) ?_ m _) ?_
  · rintro ⟨found, others⟩ k
    dsimp only
    split
    · split
      · intro p w x v _ h
        cases h
      · exact (passes_caseName cases).thenStill fun _ => still_pure _
    · exact (passes_content _).thenStill fun _ => still_pure _
  · rintro ⟨found, others⟩
    cases found with
    | none => exact still_failShape _
    | some c => exact still_pure _

theorem closes_taggedItems (tag : String) (cases : List Content.Field) (m : Mark) :
    Closes d (taggedItems tag cases m) := by
  refine Closes.thenStill (closes_items ?_ m _) fun cs =>
    still_ite (still_failShape _) (still_pure _)
  intro cs
  split
  · exact (passes_caseName cases).thenStill fun _ => still_pure _
  · exact (passes_content _).thenStill fun _ => still_pure _

theorem passes_tagged (expected tag : String) (cases : List Content.Field) :
    Passes d (tagged expected tag cases) := by
  refine Passes.thenStill (passes_node fun n m => ?_) fun _ => still_ofExcept _
  cases n with
  | mappingStart t =>
    intro p w x v hp hr
    dsimp only at hr
    split at hr
    · cases hr
    · exact .inr ⟨fun _ => rfl, closes_taggedMembers tag cases m hp hr⟩
  | sequenceStart t =>
    intro p w x v hp hr
    dsimp only at hr
    split at hr
    · cases hr
    · exact .inr ⟨fun _ => rfl, closes_taggedItems tag cases m hp hr⟩
  | scalar t text style =>
    exact completes_of_still (fun _ => rfl) (still_ite (still_failShape _) (still_mismatch _ _))
  | void => exact completes_of_still (fun _ => rfl) (still_failShape _)
  | _ => exact completes_of_fails (not_ok_mismatch _ _)

/-! ### Nodes that may be null -/

theorem level_of_absent {n : Node} (h : isPresent n = .ok false) (l : Nat) : n.level l = l := by
  cases n with
  | scalar tag text style => rfl
  | void => rfl
  | _ => cases h

theorem inStep_optional {r : Reader Value} (h : InStep d r) : InStep d (optional r) := by
  intro fuel depth i path path' w w' v v' a x hw hw' hr hvalue
  refine ⟨?_, trivial⟩
  obtain ⟨u, u', hu, hr, hv⟩ := exists_of_jumping_eq_ok hr
  obtain ⟨k, hv', hk⟩ := passes_value fuel rfl hvalue
  dsimp only at hu hv hk
  rw [hw] at hu hv
  rw [hw'] at hv' hk
  rcases alias_or_here d i with ⟨id, m, halias, hbehind⟩ | ⟨horigin, hbehind⟩
  · -- an alias is one event for both of them
    have hone := steppedOver_single halias fun _ => rfl
    rw [hv, hbehind, hv', hk.unique hone]
  · rw [horigin] at hu
    rw [hbehind] at hv
    obtain ⟨⟨n, m⟩, _, hpeek, htail⟩ := exists_of_bind_eq_ok hr
    obtain ⟨hevent, rfl⟩ := exists_of_peek_eq_ok hpeek
    obtain ⟨present, _, hcheck, htail⟩ := exists_of_bind_eq_ok htail
    obtain ⟨hpresent, rfl⟩ := exists_of_ofExcept_eq_ok hcheck
    cases present with
    | true =>
      rw [hv]
      exact (h fuel depth i hu hw' htail hvalue).1
    | false =>
      obtain ⟨_, w₁, hadvance, hpure⟩ := exists_of_bind_eq_ok htail
      cases hadvance
      cases hpure
      rw [hu] at hevent
      have hone := steppedOver_single hevent (level_of_absent hpresent)
      rw [hv, hv', hk.unique hone, ← hu]

end Yaml.Reader

open Yaml.Reader

mutual

/-- **Every shape keeps step with values.** -/
theorem Shape.inStep (d : Yaml.Document) : (s : Shape) → InStep d s.ofEvents
  | .any => ((passes_value _).map _).inStep
  | .string => (passes_checkedString _ _).inStep
  | .text _ _ => (passes_checkedString _ _).inStep
  | .bool => passes_boolean.inStep
  | .int _ _ _ => (passes_boundedInt _ _ _).inStep
  | .intOrString => passes_intOrString.inStep
  | .unit => passes_unit.inStep
  | .option s => inStep_optional (s.inStep d)
  | .list s => inStep_list (s.inStep d) _
  | .map s => inStep_map (s.inStep d) _
  | .record _ fields => inStep_record (fields.inStep d) _
  | .merged _ fields _ => inStep_merged (fields.inStep d) _ _
  | .tagged _ _ _ => (passes_tagged _ _ _).inStep

theorem Fields.inStep (d : Yaml.Document) : (fields : Fields) →
    ∀ f ∈ fields.ofEvents, InStep d f.read
  | .nil => fun _ h => absurd h List.not_mem_nil
  | .cons _ _ s rest => List.forall_mem_cons.mpr ⟨s.inStep d, rest.inStep d⟩

end

end KubeClient
