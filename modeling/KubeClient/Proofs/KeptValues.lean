import KubeClient.Proofs.Records
import Mathlib.Data.List.Forall2

/-!
# Values that come out of their documents as they went in

* `Documented.KeptAs`, `Documented.Kept` : the document of a value is read, and stands for it;
* `Key.KeptAs`, `Key.Kept` : so does a field, be it written or left out;
* `Key.kept_optional`, `Key.kept_omitting` and the like : what is left out is made up for.
-/

namespace KubeClient

open Documented Value

variable {surplus : Content.Surplus}

/-- The document of `a` is read as `w`, which stands for `a` again. -/
structure Documented.KeptAs {α : Type} [Documented α] (surplus : Content.Surplus) (a : α)
    (w : Value) : Prop where
  read : (shape α).read surplus (Content.ofValue (toValue a)) = .ok w
  value : ofValue w = a

/-- The document of `a` is read as it is. -/
abbrev Documented.Kept {α : Type} [Documented α] (surplus : Content.Surplus) (a : α) : Prop :=
  KeptAs surplus a (toValue a)

/-- The field is read as `o` from what is written for it, and `o` stands for `a` again. -/
structure Key.KeptAs {α : Type} (surplus : Content.Surplus) (k : Key α) (a : α)
    (o : Option Value) : Prop where
  passes : Passes surplus k.required k.shape (k.write a) o
  value : k.read o = a

/-- The field is read as it is written. -/
abbrev Key.Kept {α : Type} (surplus : Content.Surplus) (k : Key α) (a : α) : Prop :=
  k.KeptAs surplus a (k.write a)

namespace Key

variable {α : Type} {k : Key α} {a : α} {o : Option Value} {w : Value} {name : String}

/-- The field on its way. -/
def KeptAs.passage (h : k.KeptAs surplus a o) : Passage surplus :=
  ⟨k.name, k.required, k.shape, k.write a, o, h.passes⟩

/-- The field is found in the record that was read. -/
theorem KeptAs.of_record (h : k.KeptAs surplus a o) {ps : List (Passage surplus)}
    (hnames : (ps.map Passage.name).Nodup) (hmem : h.passage ∈ ps) :
    k.of (.record (ps.map Passage.after)) = a := by
  have hlookup := lookup_present (Passage.names_after ps ▸ hnames)
    (List.mem_map_of_mem (f := Passage.after) hmem)
  show k.read ((present (ps.map Passage.after)).lookup k.name) = a
  exact (congrArg k.read hlookup).trans h.value

variable [Documented α]

theorem keptAs_always (h : Documented.KeptAs surplus a w) :
    (always name).KeptAs surplus a (some w) :=
  ⟨.present h.read, h.value⟩

theorem keptAs_defaulting (h : Documented.KeptAs surplus a w) (b : α) :
    (defaulting name b).KeptAs surplus a (some w) :=
  ⟨.present h.read, h.value⟩

/-- What equals the default is left out, and made up for by the default. -/
theorem kept_omitting [DecidableEq α] (h : Documented.Kept surplus a) (b : α) :
    (omitting name b).Kept surplus a := by
  have hwrite : (omitting name b).write a = if a = b then none else some (toValue a) := rfl
  rw [Kept, hwrite]
  split
  · next heq => exact ⟨hwrite ▸ if_pos heq ▸ .absent rfl, heq.symm⟩
  · next hne => exact ⟨hwrite ▸ if_neg hne ▸ .present h.read, h.value⟩

/-- Null is not taken for the value of an optional field. -/
theorem read_option {s : Shape} {v : Value} (hv : v ≠ .null) :
    (Shape.option s).read surplus (Content.ofValue v) = s.read surplus (Content.ofValue v) := by
  cases v with
  | null => exact (hv rfl).elim
  | _ => rfl

theorem ofValue_option {v : Value} (hv : v ≠ .null) :
    (ofValue v : Option α) = some (ofValue v) := by
  cases v with
  | null => exact (hv rfl).elim
  | _ => rfl

/-- What is absent is left out. -/
theorem kept_optional {b : Option α}
    (h : ∀ a ∈ b, Documented.Kept surplus a ∧ toValue a ≠ .null) :
    (optional name).Kept surplus b := by
  cases b with
  | none => exact ⟨.absent rfl, rfl⟩
  | some a =>
    obtain ⟨hkept, hnull⟩ := h a rfl
    exact ⟨.present ((read_option hnull).trans hkept.read),
      (ofValue_option hnull).trans (congrArg some hkept.value)⟩

end Key

/-! ### Lists and maps -/

section

variable {α : Type} [Documented α]

/-- The items of a list are read one by one. -/
theorem readItems_keptAs {as : List α} {ws : List Value}
    (h : List.Forall₂ (fun a w => Documented.KeptAs surplus a w) as ws) :
    Content.readItems ((shape α).read surplus) (Content.ofValues (as.map toValue)) = .ok ws := by
  induction h with
  | nil => rfl
  | @cons a w as ws hhead _ ih =>
    rw [List.map_cons, Content.ofValues, Content.readItems, hhead.read, ih]
    rfl

theorem keptAs_list {as : List α} {ws : List Value}
    (h : List.Forall₂ (fun a w => Documented.KeptAs surplus a w) as ws) :
    Documented.KeptAs surplus as (.list ws) := by
  constructor
  · show Value.list <$> Content.readItems _ (Content.ofValues (as.map toValue)) = _
    rw [readItems_keptAs h]
    rfl
  · show ws.map ofValue = as
    induction h with
    | nil => rfl
    | cons hhead _ ih => rw [List.map_cons, hhead.value, ih]

theorem kept_list {as : List α} (h : ∀ a ∈ as, Documented.Kept surplus a) :
    Documented.Kept surplus as := by
  refine keptAs_list ?_
  induction as with
  | nil => exact .nil
  | cons a as ih =>
    exact .cons (h a List.mem_cons_self) (ih fun b hb => h b (List.mem_cons_of_mem a hb))

/-- An empty list is left out. -/
theorem Key.kept_list {name : String} {as : List α} (h : ∀ a ∈ as, Documented.Kept surplus a) :
    (Key.list name).Kept surplus as := by
  cases as with
  | nil => exact ⟨.absent rfl, rfl⟩
  | cons a as =>
    have hkept := KubeClient.kept_list h
    exact ⟨.present hkept.read, hkept.value⟩

end

namespace Members

variable {β : Type}

/-- A name behind all others is added at the end. -/
theorem insert_of_lt {name : String} {a : β} {ms : List (String × β)}
    (h : ∀ m ∈ ms, m.1 < name) : insert name a ms = ms ++ [(name, a)] := by
  induction ms with
  | nil => rfl
  | cons m ms ih =>
    have hlt := h m List.mem_cons_self
    have hne : name ≠ m.1 := by
      rintro rfl
      exact String.lt_irrefl _ hlt
    rw [insert, if_neg (String.lt_asymm hlt), if_neg hne,
      ih fun n hn => h n (List.mem_cons_of_mem m hn), List.cons_append]

/-- Members that are in order already stay as they are. -/
theorem ofList_of_sorted {ms : List (String × β)} (h : Sorted ms) : ofList ms = ms := by
  have go : ∀ (ms sorted : List (String × β)), Sorted (sorted ++ ms) →
      ms.foldl (fun sorted m => insert m.1 m.2 sorted) sorted = sorted ++ ms := by
    intro ms
    induction ms with
    | nil => exact fun sorted _ => (List.append_nil sorted).symm
    | cons m ms ih =>
      intro sorted hsorted
      have hlt : ∀ n ∈ sorted, n.1 < m.1 := fun n hn =>
        (List.pairwise_append.mp hsorted).2.2 n hn m List.mem_cons_self
      rw [List.append_cons] at hsorted ⊢
      rw [List.foldl_cons, insert_of_lt hlt]
      exact ih _ hsorted
  exact go ms [] h

end Members

section

variable {α : Type} [Documented α]

/-- The members of a map are read one by one. -/
theorem readMap_kept {ms : List (String × α)} (h : ∀ m ∈ ms, Documented.Kept surplus m.2) :
    Content.readMap ((shape α).read surplus)
      (Content.ofMembers (ms.map fun m => (m.1, toValue m.2))) =
        .ok (ms.map fun m => (m.1, toValue m.2)) := by
  induction ms with
  | nil => rfl
  | cons m ms ih =>
    rw [List.map_cons, Content.ofMembers, Content.readMap, (h m List.mem_cons_self).read,
      ih fun n hn => h n (List.mem_cons_of_mem m hn)]
    rfl

theorem kept_map {ms : NameMap α} (h : ∀ m ∈ ms.members, Documented.Kept surplus m.2) :
    Documented.Kept surplus ms := by
  have hsorted : Members.Sorted (ms.members.map fun m => (m.1, toValue m.2)) :=
    List.pairwise_map.mpr ms.sorted
  constructor
  · show (fun ns => Value.object (Members.ofList ns)) <$> Content.readMap _
      (Content.ofMembers (ms.members.map fun m => (m.1, toValue m.2))) = _
    rw [readMap_kept h]
    exact congrArg (fun ns => Except.ok (Value.object ns)) (Members.ofList_of_sorted hsorted)
  · have hvalues : (ms.members.map fun m => (m.1, toValue m.2)).map
        (fun m => (m.1, (ofValue m.2 : α))) = ms.members := by
      rw [List.map_map]
      refine (List.map_congr_left fun m hm => ?_).trans (List.map_id ms.members)
      exact congrArg (m.1, ·) (h m hm).value
    refine NameMap.ext ?_
    show Members.ofList ((ms.members.map fun m => (m.1, toValue m.2)).map
      fun m => (m.1, (ofValue m.2 : α))) = ms.members
    rw [hvalues]
    exact Members.ofList_of_sorted ms.sorted

/-- An empty map is left out. -/
theorem Key.kept_map {name : String} {ms : NameMap α}
    (h : ∀ m ∈ ms.members, Documented.Kept surplus m.2) : (Key.map name).Kept surplus ms := by
  have hwrite : (Key.map name).write ms = if ms.isEmpty then none else some (toValue ms) := rfl
  have hkept := KubeClient.kept_map h
  rw [Key.Kept, hwrite]
  split
  · next hempty =>
    exact ⟨hwrite ▸ if_pos hempty ▸ .absent rfl, (NameMap.ext (List.isEmpty_iff.mp hempty)).symm⟩
  · next hne => exact ⟨hwrite ▸ if_neg hne ▸ .present hkept.read, hkept.value⟩

end

/-! ### Scalars -/

theorem kept_string (s : String) : Documented.Kept surplus s :=
  ⟨rfl, rfl⟩

theorem kept_bool (b : Bool) : Documented.Kept surplus b :=
  ⟨rfl, rfl⟩

/-- An integer between the bounds of its shape. -/
theorem readInt_int {word : String} {low high n : Int} (hlow : low ≤ n) (hhigh : n ≤ high) :
    Content.readInt word low high (Content.ofValue (.int n)) = .ok (.int n) :=
  if_pos ⟨hlow, hhigh⟩

theorem kept_int64 (n : Int64) : Documented.Kept surplus n := by
  refine ⟨readInt_int ?_ ?_, Int64.ofInt_toInt n⟩
  · exact Int64.le_toInt n
  · exact Int64.toInt_le n

theorem kept_uint16 (n : UInt16) : Documented.Kept surplus n := by
  refine ⟨readInt_int ?_ ?_, ?_⟩
  · exact Int.natCast_nonneg _
  · have hlt := n.toNat_lt
    show (n.toNat : Int) ≤ _
    omega
  · exact UInt16.ofNat_toNat

theorem kept_uint32 (n : UInt32) : Documented.Kept surplus n := by
  refine ⟨readInt_int ?_ ?_, ?_⟩
  · exact Int.natCast_nonneg _
  · have hlt := n.toNat_lt
    show (n.toNat : Int) ≤ _
    omega
  · exact UInt32.ofNat_toNat

/-- A scalar whose text is read back. -/
theorem kept_scalar {α : Type} [Scalar α] [Inhabited α] {target : String} {a : α}
    (h : Scalar.parse (Scalar.text a) = .ok a) :
    @Documented.Kept α (.scalar target) surplus a := by
  refine @KeptAs.mk α (.scalar target) surplus a _ ?_ ?_
  · show Content.readText _ _ (.string (Scalar.text a)) = .ok (.string (Scalar.text a))
    rw [Content.readText]
    simp only [h]
  · show ((Scalar.parse (Scalar.text a)).toOption.getD default) = a
    rw [h]
    rfl

end KubeClient
