import Mathlib.Data.List.Induction
import Mathlib.Data.Option.Basic
import KubeClient.Proofs.KeptValues
import KubeClient.Proofs.ShapeDepth

/-!
# Values of trees

The value of a tree has the members of an object in the order of their names, and only the last one
of equal names. What is read from the value does not see this.

* `Members.lookup_ofList`, `Members.ofList_map` : members that are put in order;
* `Content.inOrder_toValue` : the value of a tree is that of its own tree;
* `Content.readRecord_of_lookup` : a record is read from its members, in whatever order they stand.
-/

namespace KubeClient

namespace Members

variable {α β : Type}

theorem lookup_cons (k : String) (m : String × α) (ms : List (String × α)) :
    (m :: ms).lookup k = if k = m.1 then some m.2 else ms.lookup k := by
  rw [List.lookup_cons]
  by_cases hk : k = m.1
  · rw [if_pos hk, hk, beq_self_eq_true]
  · rw [if_neg hk, beq_eq_false_iff_ne.mpr hk]

theorem lookup_insert (k name : String) (a : α) (ms : List (String × α)) :
    (insert name a ms).lookup k = if k = name then some a else ms.lookup k := by
  induction ms with
  | nil => rw [insert, lookup_cons]
  | cons m ms ih =>
    rw [insert]
    split
    · rw [lookup_cons]
    · split
      · rename_i hname
        rw [lookup_cons, lookup_cons, ← hname]
        split <;> rfl
      · rename_i hname
        rw [lookup_cons, ih, lookup_cons]
        split
        · rename_i hm
          rw [if_neg fun hk => hname (hk.symm.trans hm)]
        · rfl

theorem ofList_concat (ms : List (String × α)) (m : String × α) :
    ofList (ms ++ [m]) = insert m.1 m.2 (ofList ms) := by
  simp [ofList, List.foldl_append]

/-- The last of equal names counts. -/
theorem lookup_ofList (ms : List (String × α)) (k : String) :
    (ofList ms).lookup k = ms.reverse.lookup k := by
  induction ms using List.reverseRecOn with
  | nil => rfl
  | append_singleton ms m ih =>
    rw [ofList_concat, lookup_insert, ih, List.reverse_concat, lookup_cons]

/-- Members of the same names, whose values are related. -/
def Related (R : α → β → Prop) : List (String × α) → List (String × β) → Prop :=
  List.Forall₂ fun a b => a.1 = b.1 ∧ R a.2 b.2

variable {R : α → β → Prop} {as : List (String × α)} {bs : List (String × β)}

theorem Related.insert (h : Related R as bs) (name : String) {a : α} {b : β} (hab : R a b) :
    Related R (insert name a as) (insert name b bs) := by
  induction h with
  | nil => exact .cons ⟨rfl, hab⟩ .nil
  | @cons m n ms ns hmn htail ih =>
    rw [Members.insert, Members.insert, hmn.1]
    split
    · exact .cons ⟨rfl, hab⟩ (.cons hmn htail)
    · split
      · exact .cons ⟨rfl, hab⟩ htail
      · exact .cons hmn ih

theorem insert_map (f : α → β) (name : String) (a : α) (ms : List (String × α)) :
    insert name (f a) (ms.map fun m => (m.1, f m.2)) =
      (insert name a ms).map fun m => (m.1, f m.2) := by
  induction ms with
  | nil => rfl
  | cons m ms ih =>
    rw [List.map_cons, insert, insert]
    split
    · rfl
    · split
      · rfl
      · rw [ih, List.map_cons]

theorem ofList_map (f : α → β) (ms : List (String × α)) :
    ofList (ms.map fun m => (m.1, f m.2)) = (ofList ms).map fun m => (m.1, f m.2) := by
  induction ms using List.reverseRecOn with
  | nil => rfl
  | append_singleton ms m ih =>
    rw [List.map_append, List.map_cons, List.map_nil, ofList_concat, ofList_concat, ih]
    exact insert_map f m.1 m.2 _

theorem lookup_map (f : α → β) (ms : List (String × α)) (k : String) :
    (ms.map fun m => (m.1, f m.2)).lookup k = (ms.lookup k).map f := by
  induction ms with
  | nil => rfl
  | cons m ms ih =>
    rw [List.map_cons, lookup_cons, lookup_cons, ih]
    split <;> rfl

theorem Related.sorted (h : Related R as bs) (hsorted : Sorted bs) : Sorted as := by
  have hnames : as.map Prod.fst = bs.map Prod.fst := by
    induction h with
    | nil => rfl
    | cons hmn _ ih => rw [List.map_cons, List.map_cons, hmn.1, ih (List.Pairwise.of_cons hsorted)]
  exact List.pairwise_map.mp (hnames ▸ List.pairwise_map.mpr hsorted)

theorem nodup_of_sorted (h : Sorted as) : (as.map Prod.fst).Nodup := by
  refine List.pairwise_map.mpr (h.imp fun hlt heq => ?_)
  rw [heq] at hlt
  exact String.lt_irrefl _ hlt

theorem lookup_of_mem (h : (as.map Prod.fst).Nodup) {m : String × α} (hm : m ∈ as) :
    as.lookup m.1 = some m.2 := by
  induction as with
  | nil => cases hm
  | cons n ns ih =>
    obtain ⟨hname, htail⟩ := List.nodup_cons.mp h
    rw [lookup_cons]
    rcases List.mem_cons.mp hm with rfl | hm
    · rw [if_pos rfl]
    · have hmem : m.1 ∈ ns.map Prod.fst := List.mem_map_of_mem hm
      have hne : m.1 ≠ n.1 := fun heq => hname (by rwa [← heq])
      rw [if_neg hne, ih htail hm]

end Members

namespace Content

/-! ### Values that are in order -/

theorem toValues_eq_map (cs : List Content) : toValues cs = cs.map toValue := by
  induction cs with
  | nil => rfl
  | cons c cs ih => rw [toValues, ih, List.map_cons]

/-- Members whose names are strings. -/
def named (ms : List (String × Content)) : List (Content × Content) :=
  ms.map fun m => (.string m.1, m.2)

theorem named_reverse (ms : List (String × Content)) : named ms.reverse = (named ms).reverse :=
  List.map_reverse

theorem toMembers_named (ms : List (String × Content)) :
    toMembers (named ms) = ms.map fun m => (m.1, m.2.toValue) := by
  induction ms with
  | nil => rfl
  | cons m ms ih => rw [named, List.map_cons, toMembers, ← named, ih, List.map_cons]

theorem ofMembers_eq_named (ms : List (String × Value)) :
    ofMembers ms = named (ms.map fun m => (m.1, ofValue m.2)) := by
  rw [ofMembers_eq_map, named, List.map_map]
  rfl

/-- The value is that of its own tree. -/
def InOrder (v : Value) : Prop :=
  (ofValue v).toValue = v

theorem inOrder_list {vs : List Value} (h : ∀ v ∈ vs, InOrder v) : InOrder (.list vs) := by
  unfold InOrder
  rw [ofValue, toValue, toValues_eq_map, ofValues_eq_map, List.map_map]
  exact congrArg Value.list ((List.map_congr_left h).trans (List.map_id vs))

theorem inOrder_object {ms : List (String × Value)} (hsorted : Members.Sorted ms)
    (h : ∀ m ∈ ms, InOrder m.2) : InOrder (.object ms) := by
  have hmembers : toMembers (ofMembers ms) = ms := by
    rw [ofMembers_eq_named, toMembers_named, List.map_map]
    refine (List.map_congr_left fun m hm => ?_).trans (List.map_id ms)
    exact congrArg (m.1, ·) (h m hm)
  unfold InOrder
  rw [ofValue, toValue, hmembers, Members.ofList_of_sorted hsorted]

mutual

/-- Values of trees are in order. -/
theorem inOrder_toValue : (c : Content) → InOrder c.toValue
  | .null => rfl
  | .bool _ => rfl
  | .number _ => rfl
  | .string _ => rfl
  | .list cs => by
    rw [toValue]
    exact inOrder_list (inOrder_toValues cs)
  | .map ms => by
    rw [toValue]
    exact inOrder_object (Members.sorted_ofList _)
      fun m hm => inOrder_toMembers ms m (mem_of_mem_ofList hm)

theorem inOrder_toValues : (cs : List Content) → ∀ v ∈ toValues cs, InOrder v
  | [] => by simp [toValues]
  | c :: cs => by
    rw [toValues]
    exact List.forall_mem_cons.mpr ⟨inOrder_toValue c, inOrder_toValues cs⟩

theorem inOrder_toMembers : (ms : List (Content × Content)) → ∀ m ∈ toMembers ms, InOrder m.2
  | [] => by simp [toMembers]
  | (.string s, c) :: ms => by
    rw [toMembers]
    exact List.forall_mem_cons.mpr ⟨inOrder_toValue c, inOrder_toMembers ms⟩
  | (.null, _) :: ms => by simpa [toMembers] using inOrder_toMembers ms
  | (.bool _, _) :: ms => by simpa [toMembers] using inOrder_toMembers ms
  | (.number _, _) :: ms => by simpa [toMembers] using inOrder_toMembers ms
  | (.list _, _) :: ms => by simpa [toMembers] using inOrder_toMembers ms
  | (.map _, _) :: ms => by simpa [toMembers] using inOrder_toMembers ms

end

theorem toValue_map_named (ms : List (String × Content)) :
    toValue (.map (named ms)) = .object ((Members.ofList ms).map fun m => (m.1, m.2.toValue)) := by
  rw [toValue, toMembers_named, Members.ofList_map]

end Content

/-! ### Records by their members -/

/-- A record is made of what is found by the names of its fields. -/
theorem Slots.finish_congr {slots slots' : Slots} {names : List (String × Bool)}
    (h : ∀ n ∈ names, slots.lookup n.1 = slots'.lookup n.1) :
    slots.finish names = slots'.finish names := by
  induction names with
  | nil => rfl
  | cons n names ih =>
    rw [finish, finish, h n List.mem_cons_self, ih fun n hn => h n (List.mem_cons_of_mem _ hn)]

theorem Slots.lookup_put (slots : Slots) (name k : String) (v : Value) :
    (slots.put name v).lookup k = (slots.lookup k).or (if k = name then some v else none) := by
  rw [put, List.lookup_append, Members.lookup_cons, List.lookup_nil]

namespace Content

variable {fields : List Field} {own : Slots} {ms : List (String × Value)}

/-- Each of the members is found among the slots, and none else. -/
theorem exists_readMembers (hms : (ms.map Prod.fst).Nodup)
    (h : ∀ m ∈ ms, ∀ f, fields.find? (fun f => f.name == m.1) = some f →
      ∃ v, own.lookup m.1 = some v ∧ f.read (ofValue m.2) = .ok v)
    (slots : Slots) (hslots : ∀ m ∈ ms, slots.lookup m.1 = none) :
    ∃ more : Slots, readMembers fields slots (ofMembers ms) = .ok (slots ++ more) ∧
      ∀ n f, fields.find? (fun f => f.name == n) = some f →
        more.lookup n = if (ms.lookup n).isSome then own.lookup n else none := by
  induction ms generalizing slots with
  | nil => exact ⟨[], by rw [List.append_nil]; rfl, fun n f _ => rfl⟩
  | cons m ms ih =>
    obtain ⟨hname, htail⟩ := List.nodup_cons.mp hms
    have hrest := fun n hn => h n (List.mem_cons_of_mem m hn)
    have hslots' := fun n hn => hslots n (List.mem_cons_of_mem m hn)
    rw [ofMembers]
    cases hfind : fields.find? fun f => f.name == m.1 with
    | none =>
      -- what no field asks for is neither read nor looked up
      obtain ⟨more, hread, hlookup⟩ := ih htail hrest slots hslots'
      refine ⟨more, (readMembers_cons_none hfind _).trans hread, fun n f hf => ?_⟩
      have hne : n ≠ m.1 := by
        rintro rfl
        cases hfind.symm.trans hf
      rw [hlookup n f hf, Members.lookup_cons, if_neg hne]
    | some f =>
      obtain ⟨v, hown, hread⟩ := h m List.mem_cons_self f hfind
      have hf : f.name = m.1 := by
        have hbeq := List.find?_some hfind
        exact beq_iff_eq.mp hbeq
      -- names do not come twice, so the slot is still empty here, and stays out of the rest
      have hslot : slots.lookup f.name = none := hf ▸ hslots m List.mem_cons_self
      obtain ⟨more, hmore, hlookup⟩ := ih htail hrest (slots.put f.name v) fun n hn => by
        have hmem : n.1 ∈ ms.map Prod.fst := List.mem_map_of_mem hn
        have hne : n.1 ≠ f.name := fun heq => hname (by rwa [← heq.trans hf])
        rw [Slots.lookup_put, hslots' n hn, if_neg hne]
        rfl
      refine ⟨(f.name, v) :: more, ?_, fun n g hg => ?_⟩
      · rw [readMembers_cons_some hfind hslot hread, hmore, Slots.put, List.append_assoc]
        rfl
      · rw [Members.lookup_cons, hlookup n g hg, hf, Members.lookup_cons]
        split
        · rename_i hn
          rw [hn, hown]
          rfl
        · rfl

theorem exists_find?_name {f : Field} (h : f ∈ fields) :
    ∃ g, fields.find? (fun g => g.name == f.name) = some g :=
  Option.isSome_iff_exists.mp (List.find?_isSome.mpr ⟨f, h, beq_self_eq_true f.name⟩)

/-- A record is read from its members by their names. -/
theorem readRecord_of_lookup {surplus : Surplus} {expectation : String}
    {ws : List (String × Value)} (hms : (ms.map Prod.fst).Nodup)
    (h : ∀ n f, fields.find? (fun f => f.name == n) = some f →
      Option.Rel (fun v w => f.read (ofValue w) = .ok v) (own.lookup n) (ms.lookup n))
    (hfinish : own.finish (fields.map fun f => (f.name, f.required)) = .ok ws) :
    readRecord surplus expectation fields (.map (ofMembers ms)) = .ok (.object ws) := by
  have hmember : ∀ m ∈ ms, ∀ f, fields.find? (fun f => f.name == m.1) = some f →
      ∃ v, own.lookup m.1 = some v ∧ f.read (ofValue m.2) = .ok v := by
    intro m hm f hf
    have hrel := h m.1 f hf
    rw [Members.lookup_of_mem hms hm] at hrel
    generalize own.lookup m.1 = found at hrel ⊢
    cases hrel with
    | some hread => exact ⟨_, rfl, hread⟩
  obtain ⟨slots, hread, hlookup⟩ := exists_readMembers hms hmember [] fun _ _ => rfl
  have hsame : ∀ n ∈ fields.map (fun f => (f.name, f.required)),
      slots.lookup n.1 = own.lookup n.1 := by
    intro n hn
    obtain ⟨f, hf, rfl⟩ := List.mem_map.mp hn
    obtain ⟨g, hg⟩ := exists_find?_name hf
    rw [hlookup f.name g hg]
    have hrel := h f.name g hg
    generalize own.lookup f.name = found at hrel ⊢
    generalize ms.lookup f.name = given at hrel ⊢
    cases hrel <;> rfl
  rw [readRecord, hread]
  simp only [bind, Except.bind, List.nil_append, Slots.finish_congr hsame, hfinish]
  rfl

end Content
end KubeClient
