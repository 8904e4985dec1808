import KubeClient.Document.Value

/-!
# Maps from names

A map keeps its members in the order of their names, so that equal maps are equal lists.

* `Members.Sorted` : names ascend strictly, kept by `Members.insert` and made by `Members.ofList`;
* `NameMap` : sorted members.
-/

namespace KubeClient

namespace Members

variable {α : Type}

/-- Names ascend strictly. -/
def Sorted (ms : List (String × α)) : Prop :=
  ms.Pairwise fun m n => m.1 < n.1

theorem sorted_nil : Sorted ([] : List (String × α)) :=
  .nil

theorem mem_insert {name : String} {a : α} {m : String × α} {ms : List (String × α)} :
    m ∈ insert name a ms → m = (name, a) ∨ m ∈ ms := by
  induction ms with
  | nil => simp [insert]
  | cons x xs ih => rw [insert]; split <;> grind

theorem Sorted.insert {ms : List (String × α)} (h : Sorted ms) (name : String) (a : α) :
    Sorted (Members.insert name a ms) := by
  induction ms with
  | nil => exact List.pairwise_singleton _ _
  | cons x xs ih =>
    have hx := List.pairwise_cons.1 h
    rw [Members.insert]
    split
    · next hlt =>
      refine List.pairwise_cons.2 ⟨fun m hm => ?_, h⟩
      rcases List.mem_cons.1 hm with rfl | hm
      · exact hlt
      · exact String.lt_trans hlt (hx.1 m hm)
    · next hlt =>
      split
      · next heq =>
        subst heq
        exact List.pairwise_cons.2 ⟨hx.1, hx.2⟩
      · next hne =>
        refine List.pairwise_cons.2 ⟨fun m hm => ?_, ih hx.2⟩
        rcases mem_insert hm with rfl | hm
        · refine Classical.byContradiction fun hge => hne ?_
          exact String.le_antisymm (String.not_lt.1 hge) (String.not_lt.1 hlt)
        · exact hx.1 m hm

theorem sorted_ofList (ms : List (String × α)) : Sorted (ofList ms) := by
  have go : ∀ (ms sorted : List (String × α)), Sorted sorted →
      Sorted (ms.foldl (fun sorted m => Members.insert m.1 m.2 sorted) sorted) := by
    intro ms
    induction ms with
    | nil => exact fun _ h => h
    | cons m ms ih => exact fun _ h => ih _ (h.insert m.1 m.2)
  exact go ms [] sorted_nil

end Members

/-- Members in the order of their names. -/
structure NameMap (α : Type) where
  members : List (String × α)
  sorted : Members.Sorted members

namespace NameMap

variable {α : Type}

@[ext] theorem ext {a b : NameMap α} (h : a.members = b.members) : a = b := by
  cases a
  cases b
  cases h
  rfl

/-- No members. -/
def empty : NameMap α :=
  ⟨[], Members.sorted_nil⟩

instance : Inhabited (NameMap α) := ⟨empty⟩

instance [DecidableEq α] : DecidableEq (NameMap α) := fun a b =>
  if h : a.members = b.members then .isTrue (ext h) else .isFalse fun e => h (e ▸ rfl)

/-- The map of a list, the last of equal names winning. -/
def ofList (ms : List (String × α)) : NameMap α :=
  ⟨Members.ofList ms, Members.sorted_ofList ms⟩

/-- There are no members. -/
def isEmpty (m : NameMap α) : Bool :=
  m.members.isEmpty

end NameMap
end KubeClient
