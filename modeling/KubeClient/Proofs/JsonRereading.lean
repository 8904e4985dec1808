import KubeClient.Proofs.JsonLockstep
import KubeClient.Proofs.JsonSteppedOver
import KubeClient.Proofs.TreeValues

/-!
# Reading at once and reading again

A shape is read from its text at once, or the text is read as a value first and the shape from that.
Where both ways come to an end, they give the same, for shapes that are made of scalars, lists, maps
and records.

* `Json.Reader.Rereads` : what was read at once is read from the value as well;
* `Json.Reader.Accords` : a reader of texts and one of trees, at every depth;
* `Json.Reader.accords_list`, `accords_map`, `accords_record` : shapes that hold others;
* `Shape.accords` : all plain shapes.
-/

namespace KubeClient

namespace Json.Reader

variable {α β γ : Type} {R : α → β → Prop} {c d e : Cursor} {depth : Nat} {b : UInt8}
  {t : Content.Reader} {surplus : Content.Surplus}

/-- What is read from the value of `x`. -/
def Rereads (t : Content.Reader) (v : Value) (x : Content) : Prop :=
  t (Content.ofValue x.toValue) = .ok v

/-- What `r` reads from a text is read by `t` from its value. -/
def Accords (r : Nat → Reader Value) (t : Content.Reader) : Prop :=
  ∀ depth c, Lockstep (Rereads t) (r depth) (content depth) c

/-- A reader that looks at the first byte. -/
theorem accords_of_token {k : Nat → Option UInt8 → Reader Value}
    (h : ∀ depth b c, Lockstep (Rereads t) (k (depth + 1) (some b)) (contentAt depth b) c) :
    Accords (fun depth => locate (peekToken >>= k depth)) t := by
  intro depth c
  cases depth with
  | zero => exact lockstep_of_fails_right (not_ok_content_zero c)
  | succ depth => exact lockstep_token fun b c => h depth b c

/-! ### Readers that fail -/

theorem not_ok_mismatch (expected : String) (c : Cursor) (a : α) (d : Cursor) :
    mismatch expected c ≠ .ok a d := by
  intro h
  rw [mismatch, locate_eq_ok] at h
  obtain ⟨x, c', -, h⟩ := exists_of_bind_eq_ok h
  cases x with
  | inl x => cases h
  | inr b =>
    dsimp only at h
    split at h
    · cases h
    · split at h <;> cases h

theorem not_ok_nested_failShape (depth : Nat) (cause : Cause) (close : Reader Unit) (c : Cursor)
    (a : α) (d : Cursor) : nested depth (fun _ => failShape cause) close c ≠ .ok a d := by
  intro h
  obtain ⟨c', d', -, hfail, -⟩ := exists_of_nested_eq_ok h
  cases hfail

theorem not_ok_nested_null {depth : Nat} {f : β → Content} {g : Reader β} {close : Reader Unit}
    (hf : ∀ x, f x ≠ .null) :
    nested depth (fun _ => do return f (← g)) close c ≠ .ok .null d := by
  intro h
  obtain ⟨c₁, c₂, -, h, -⟩ := exists_of_nested_eq_ok h
  obtain ⟨x, c₃, -, hpure⟩ := exists_of_bind_eq_ok h
  exact hf x (EStateM.Result.ok.inj hpure).1

theorem not_ok_containerMismatch (depth : Nat) (expected : String) (b : UInt8) (c : Cursor) (a : α)
    (d : Cursor) : containerMismatch depth expected b c ≠ .ok a d := by
  intro h
  unfold containerMismatch at h
  split at h
  · exact not_ok_nested_failShape _ _ _ _ _ _ h
  · split at h
    · exact not_ok_nested_failShape _ _ _ _ _ _ h
    · cases h

theorem lockstep_mismatch {expected : String} {q : Reader β} :
    Lockstep R (mismatch expected) q c :=
  lockstep_of_fails (not_ok_mismatch expected c)

/-! ### Scalars -/

theorem lockstep_word {rest : Bytes} {a : α} {x : β} (h : R a x) :
    Lockstep R (word rest a) (word rest x) c :=
  lockstep_step fun _ _ => lockstep_step fun _ _ => lockstep_pure h

theorem lockstep_ofExcept {o : Except Cause α} {x : β} (h : ∀ a, o = .ok a → R a x) :
    Lockstep R (ofExcept o) (pure x) c := by
  cases o with
  | error _ => exact lockstep_of_fails fun _ _ hr => by cases hr
  | ok a => exact lockstep_pure (h a rfl)

/-- What is made of an answer at last. -/
theorem lockstep_map_ofExcept {o : Except Cause α} {f : α → γ} {x : β} {T : γ → β → Prop}
    (h : ∀ a, o = .ok a → T (f a) x) : Lockstep T (f <$> ofExcept o) (pure x) c := by
  cases o with
  | error _ => exact lockstep_of_fails fun _ _ hr => by cases hr
  | ok a => exact lockstep_pure (h a rfl)

theorem contentAt_number (h : b = 0x2D ∨ isDigit b = true) :
    contentAt depth b = do return .number (← number) := by
  have hword : b ≠ 0x6E ∧ b ≠ 0x74 ∧ b ≠ 0x66 := by
    refine ⟨?_, ?_, ?_⟩ <;> rintro rfl <;> revert h <;> decide
  rw [contentAt, if_neg hword.1, if_neg hword.2.1, if_neg hword.2.2, if_pos h]

theorem accords_any : Accords (fun depth => Content.toValue <$> content depth)
    (fun c => .ok c.toValue) := by
  intro depth c v d x e hr hq
  dsimp only at hr
  rw [map_eq_pure_bind] at hr
  obtain ⟨y, c', hy, hr⟩ := exists_of_bind_eq_ok hr
  cases hr
  cases hy.symm.trans hq
  exact ⟨rfl, congrArg Except.ok (Content.inOrder_toValue x)⟩

theorem accords_text (expected : String) (check : String → Except String Unit) :
    Accords (fun _ => checkedString expected check) (Content.readText expected check) := by
  refine accords_of_token fun depth b c => ?_
  dsimp only
  split
  · rename_i hb
    subst hb
    refine lockstep_step fun s d => ?_
    cases hcheck : check s with
    | error _ => exact lockstep_of_fails fun _ _ hr => by cases hr
    | ok u =>
      refine lockstep_pure ?_
      show Content.readText expected check (.string s) = _
      rw [Content.readText, hcheck]
  · exact lockstep_mismatch

theorem accords_bool : Accords (fun _ => boolean) (Shape.bool.read surplus) := by
  refine accords_of_token fun depth b c => ?_
  dsimp only
  split
  · rename_i hb
    subst hb
    exact lockstep_word rfl
  · split
    · rename_i hb
      subst hb
      exact lockstep_word rfl
    · exact lockstep_mismatch

theorem accords_int (expected : String) (low high : Int) :
    Accords (fun _ => boundedInt expected low high) (Content.readInt expected low high) := by
  refine accords_of_token fun depth b c => ?_
  dsimp only
  split
  · rename_i hb
    rw [contentAt_number hb]
    exact lockstep_step fun n d => lockstep_ofExcept fun v h => h
  · exact lockstep_mismatch

theorem accords_unit : Accords (fun _ => unit) (Shape.unit.read surplus) := by
  refine accords_of_token fun depth b c => ?_
  dsimp only
  split
  · rename_i hb
    subst hb
    exact lockstep_word rfl
  · exact lockstep_mismatch

theorem accords_intOrString : Accords intOrString Content.readIntOrString := by
  intro depth c
  cases depth with
  | zero => exact lockstep_of_fails_right (not_ok_content_zero c)
  | succ depth =>
    refine Lockstep.locate (lockstep_step fun x d => ?_)
    cases x with
    | inl x =>
      refine lockstep_ofExcept fun v h => ?_
      cases x with
      | string s => exact h
      | number n => exact h
      | _ => cases h
    | inr b => exact lockstep_of_fails (not_ok_containerMismatch _ _ b d)

/-! ### Null -/

theorem eq_of_word_eq_ok {rest : Bytes} {a x : α} (h : word rest a c = .ok x d) : x = a := by
  obtain ⟨-, c', -, h⟩ := exists_of_bind_eq_ok h
  obtain ⟨-, c'', -, h⟩ := exists_of_bind_eq_ok h
  cases h
  rfl

/-- Null alone is spelled with an `n`. -/
theorem contentAt_ne_null (hb : b ≠ 0x6E) : contentAt depth b c ≠ .ok .null d := by
  intro h
  unfold contentAt at h
  rw [if_neg hb] at h
  split at h
  · cases eq_of_word_eq_ok h
  split at h
  · cases eq_of_word_eq_ok h
  split at h
  · obtain ⟨n, c', -, h⟩ := exists_of_bind_eq_ok h
    cases h
  split at h
  · obtain ⟨s, c', -, h⟩ := exists_of_bind_eq_ok h
    cases h
  split at h
  · exact not_ok_nested_null (fun xs hx => by cases hx) h
  split at h
  · exact not_ok_nested_null (fun ms hx => by cases hx) h
  · cases h

theorem content_behindBlanks (hhead : (behindBlanks c).rest.head? = some b) {x : Content}
    (h : contentAt depth b (behindBlanks c) = .ok x d) :
    content (depth + 1) (behindBlanks c) = .ok x d := by
  rw [content_succ, locate_eq_ok, bind_eq_of_ok (peekToken_eq _), behindBlanks_behindBlanks, hhead]
  exact h

theorem accords_option {r : Nat → Reader Value} {s : Shape} (h : Accords r (s.read surplus)) :
    Accords (fun depth => optional (r depth)) ((Shape.option s).read surplus) := by
  intro depth c v d x e hr hq
  cases depth with
  | zero => exact (not_ok_content_zero c x e hq).elim
  | succ depth =>
    obtain ⟨b, hhead, hcontent⟩ := exists_of_content_eq_ok hq
    dsimp only at hr
    rw [optional, bind_eq_of_ok (peekToken_eq c), hhead] at hr
    by_cases hb : b = 0x6E
    · subst hb
      rw [if_pos rfl] at hr
      have hnull : Rereads ((Shape.option s).read surplus) .null .null := rfl
      exact lockstep_word hnull v d x e hr hcontent
    · rw [if_neg fun heq => hb (Option.some.inj heq)] at hr
      obtain ⟨rfl, hread⟩ := h (depth + 1) _ v d x e hr (content_behindBlanks hhead hcontent)
      -- a tree that does not begin like null is none, so the option passes it on to the shape
      have hnull : x.toValue ≠ .null := by
        intro hx
        cases x with
        | null => exact contentAt_ne_null hb hcontent
        | _ => cases hx
      exact ⟨rfl, (Key.read_option hnull).trans hread⟩

/-! ### Lists and maps -/

theorem readItems_of_forall₂ {vs : List Value} {xs : List Content}
    (h : List.Forall₂ (Rereads t) vs xs) :
    Content.readItems t (Content.ofValues (Content.toValues xs)) = .ok vs := by
  induction h with
  | nil => rfl
  | @cons v x vs xs hhead _ ih =>
    rw [Content.toValues, Content.ofValues, Content.readItems, hhead, ih]
    rfl

theorem accords_list {r : Nat → Reader Value} {s : Shape} (h : Accords r (s.read surplus)) :
    Accords (fun depth => list depth (Shape.list s).expectation fun depth => do
      let vs ← items (fun vs => do return (← r depth) :: vs) []
      return .list vs.reverse) ((Shape.list s).read surplus) := by
  refine accords_of_token fun depth b c => ?_
  dsimp only
  split
  · rename_i hb
    subst hb
    rw [contentAt_list]
    refine lockstep_nested fun d => ?_
    refine (lockstep_items (R := List.Forall₂ (Rereads (s.read surplus))) ?_ .nil).bind ?_
    · exact fun vs xs d hvs => (h depth d).bind fun v x e hv => lockstep_pure (.cons hv hvs)
    · intro vs xs d hvs
      refine lockstep_pure ?_
      have hitems := readItems_of_forall₂ (List.rel_reverse hvs)
      show Value.list <$> Content.readItems (s.read surplus)
        (Content.ofValues (Content.toValues xs.reverse)) = _
      rw [hitems]
      rfl
  · exact lockstep_mismatch

theorem readMap_of_related {vs : List (String × Value)} {xs : List (String × Content)}
    (h : Members.Related (Rereads t) vs xs) :
    Content.readMap t (Content.ofMembers (xs.map fun m => (m.1, m.2.toValue))) = .ok vs := by
  induction h with
  | nil => rfl
  | @cons v x vs xs hhead _ ih =>
    have hread : t (Content.ofValue x.2.toValue) = .ok v.2 := hhead.2
    rw [List.map_cons, Content.ofMembers, Content.readMap, hread, ih, ← hhead.1]
    rfl

/-- Members that were read into a map, and the same members in the order of the text, the last one
first. -/
def Mapped (t : Content.Reader) (vs : List (String × Value)) (xs : List (Content × Content)) :
    Prop :=
  ∃ ms, xs = Content.named ms ∧ Members.Related (Rereads t) vs (Members.ofList ms.reverse)

theorem Mapped.insert {vs : List (String × Value)} {xs : List (Content × Content)}
    (h : Mapped t vs xs) (n : String) {v : Value} {x : Content} (hv : Rereads t v x) :
    Mapped t (Members.insert n v vs) ((.string n, x) :: xs) := by
  obtain ⟨ms, rfl, hms⟩ := h
  refine ⟨(n, x) :: ms, rfl, ?_⟩
  rw [List.reverse_cons, Members.ofList_concat]
  exact hms.insert n hv

/-- Members in the order of the text are read into the map again. -/
theorem Mapped.rereads {vs : List (String × Value)} {xs : List (Content × Content)} {s : Shape}
    (h : Mapped (s.read surplus) vs xs) :
    Rereads ((Shape.map s).read surplus) (.object vs) (.map xs.reverse) := by
  obtain ⟨ms, rfl, hms⟩ := h
  -- the map is in order already, so reading it again does not move its members
  have hsorted : Members.Sorted vs := hms.sorted (Members.sorted_ofList _)
  unfold Rereads
  rw [← Content.named_reverse, Content.toValue_map_named]
  show (fun ms => Value.object (Members.ofList ms)) <$> Content.readMap (s.read surplus)
    (Content.ofMembers ((Members.ofList ms.reverse).map fun m => (m.1, m.2.toValue))) = _
  rw [readMap_of_related hms]
  exact congrArg (fun ms => Except.ok (Value.object ms)) (Members.ofList_of_sorted hsorted)

theorem accords_map {r : Nat → Reader Value} {s : Shape} (h : Accords r (s.read surplus)) :
    Accords (fun depth => object depth (Shape.map s).expectation fun depth => do
      let ms ← members (fun ms n => do
        colon
        return Members.insert n (← r depth) ms) []
      return .object ms) ((Shape.map s).read surplus) := by
  refine accords_of_token fun depth b c => ?_
  dsimp only
  split
  · rename_i hb
    subst hb
    rw [contentAt_object]
    refine lockstep_nested fun d => ?_
    refine (lockstep_members (R := Mapped (s.read surplus)) ?_ ⟨[], rfl, .nil⟩).bind ?_
    · intro vs xs n d hvs
      exact lockstep_step fun _ d =>
        (h depth d).bind fun v x e hv => lockstep_pure (hvs.insert n hv)
    · exact fun vs xs d hvs => lockstep_pure hvs.rereads
  · exact lockstep_mismatch

/-! ### Records -/

/-- A field that is read from texts and from trees. -/
structure FieldAccords (f : Field) (g : Content.Field) : Prop where
  name : f.name = g.name
  required : f.required = g.required
  read : Accords f.read g.read

variable {fs : List Field} {gs : List Content.Field}

theorem find?_of_accords (h : List.Forall₂ FieldAccords fs gs) (n : String) :
    Option.Rel FieldAccords (fs.find? fun f => f.name == n) (gs.find? fun g => g.name == n) := by
  induction h with
  | nil => exact .none
  | @cons f g fs gs hfg _ ih =>
    rw [List.find?_cons, List.find?_cons, hfg.name]
    split
    · exact .some hfg
    · exact ih

theorem names_of_accords (h : List.Forall₂ FieldAccords fs gs) :
    (fs.map fun f => (f.name, f.required)) = gs.map fun g => (g.name, g.required) := by
  induction h with
  | nil => rfl
  | cons hfg _ ih => rw [List.map_cons, List.map_cons, ih, hfg.name, hfg.required]

/-- Fields that were read so far, and the members in the order of the text, the last one first. -/
def Gathered (gs : List Content.Field) (slots : Slots) (xs : List (Content × Content)) : Prop :=
  ∃ ms, xs = Content.named ms ∧ ∀ n g, gs.find? (fun g => g.name == n) = some g →
    Option.Rel (Rereads g.read) (slots.lookup n) (ms.lookup n)

/-- A member that is no field is passed over. -/
theorem Gathered.pass {slots : Slots} {xs : List (Content × Content)} (h : Gathered gs slots xs)
    {n : String} (hn : gs.find? (fun g => g.name == n) = none) (x : Content) :
    Gathered gs slots ((.string n, x) :: xs) := by
  obtain ⟨ms, rfl, hms⟩ := h
  refine ⟨(n, x) :: ms, rfl, fun k g hk => ?_⟩
  have hne : k ≠ n := by
    rintro rfl
    cases hn.symm.trans hk
  rw [Members.lookup_cons, if_neg hne]
  exact hms k g hk

theorem Gathered.put {slots : Slots} {xs : List (Content × Content)} (h : Gathered gs slots xs)
    {n : String} {g : Content.Field} (hn : gs.find? (fun g => g.name == n) = some g)
    (hslot : slots.lookup n = none) {v : Value} {x : Content} (hv : Rereads g.read v x) :
    Gathered gs (slots.put n v) ((.string n, x) :: xs) := by
  obtain ⟨ms, rfl, hms⟩ := h
  refine ⟨(n, x) :: ms, rfl, fun k g' hk => ?_⟩
  rw [Slots.lookup_put, Members.lookup_cons]
  by_cases hkn : k = n
  · subst hkn
    cases hn.symm.trans hk
    rw [hslot, if_pos rfl, if_pos rfl]
    exact .some hv
  · rw [if_neg hkn, if_neg hkn, Option.or_none]
    exact hms k g' hk

theorem lockstep_fieldMember (hfields : List.Forall₂ FieldAccords fs gs) {slots : Slots}
    {xs : List (Content × Content)} (h : Gathered gs slots xs) (n : String) :
    Lockstep (Gathered gs) (fieldMember fs depth slots n) (contentMember depth xs n) c := by
  have hfind := find?_of_accords hfields n
  unfold fieldMember contentMember
  cases hg : gs.find? fun g => g.name == n with
  | none =>
    rw [hg] at hfind
    cases hf : fs.find? fun f => f.name == n with
    | some f =>
      rw [hf] at hfind
      cases hfind
    | none =>
      -- what no field asks for is stepped over where the tree is read
      refine lockstep_step fun _ d => ?_
      intro slots' c₁ xs' c₂ hr hq
      obtain ⟨_, d₁, hskip, hr⟩ := exists_of_bind_eq_ok hr
      obtain ⟨x, d₂, hx, hq⟩ := exists_of_bind_eq_ok hq
      cases hr
      cases hq
      cases hskip.symm.trans (skipValue_of_content hx)
      exact ⟨rfl, h.pass hg x⟩
  | some g =>
    rw [hg] at hfind
    cases hf : fs.find? fun f => f.name == n with
    | none =>
      rw [hf] at hfind
      cases hfind
    | some f =>
      rw [hf] at hfind
      cases hfind with
      | some hfg =>
        dsimp only
        split
        · exact lockstep_of_fails fun _ _ hr => by cases hr
        · rename_i hslot
          have hslot : slots.lookup n = none := Option.not_isSome_iff_eq_none.mp hslot
          exact lockstep_step fun _ d =>
            (hfg.read depth d).bind fun v x e hv => lockstep_pure (h.put hg hslot hv)

/-- The record is read from the value of its members. -/
theorem Gathered.rereads {slots : Slots} {xs : List (Content × Content)}
    (h : Gathered gs slots xs) {expected : String} {ws : List (String × Value)}
    (hfinish : slots.finish (gs.map fun g => (g.name, g.required)) = .ok ws) :
    Rereads (Content.readRecord surplus expected gs) (.object ws) (.map xs.reverse) := by
  obtain ⟨ms, rfl, hms⟩ := h
  unfold Rereads
  rw [← Content.named_reverse, Content.toValue_map_named, Content.ofValue]
  have hsorted : Members.Sorted ((Members.ofList ms.reverse).map fun m => (m.1, m.2.toValue)) := by
    rw [← Members.ofList_map]
    exact Members.sorted_ofList _
  refine Content.readRecord_of_lookup (Members.nodup_of_sorted hsorted) (fun n g hg => ?_) hfinish
  have hrel := hms n g hg
  rw [Members.lookup_map, Members.lookup_ofList, List.reverse_reverse]
  generalize slots.lookup n = o at hrel ⊢
  generalize ms.lookup n = o' at hrel ⊢
  cases hrel with
  | none => exact .none
  | some hread => exact .some hread

theorem lockstep_namedFields (hfields : List.Forall₂ FieldAccords fs gs) (expected : String) :
    Lockstep (Rereads (Content.readRecord surplus expected gs)) (namedFields fs depth)
      (do return .map (← members (contentMember depth) []).reverse) c := by
  refine (lockstep_members (R := Gathered gs) ?_ ⟨[], rfl, fun n g _ => .none⟩).bind ?_
  · exact fun slots xs n d h => lockstep_fieldMember hfields h n
  · intro slots xs d h
    rw [names_of_accords hfields]
    exact lockstep_map_ofExcept fun ws hfinish => h.rereads hfinish

/-- What `r` reads up to the end of a list. -/
def listed (r : Reader α) : Reader α := do
  let a ← r
  endList
  return a

theorem listed_eq_ok {r : Reader α} {a : α} {e : Cursor} (h : r c = .ok a d)
    (hend : endList d = .ok () e) : listed r c = .ok a e := by
  rw [listed, bind_eq_of_ok h, bind_eq_of_ok hend]
  rfl

theorem exists_of_listed_eq_ok {r : Reader α} {a : α} {e : Cursor} (h : listed r c = .ok a e) :
    ∃ d, r c = .ok a d ∧ endList d = .ok () e := by
  obtain ⟨a', d, hr, h⟩ := exists_of_bind_eq_ok h
  obtain ⟨_, e', hend, h⟩ := exists_of_bind_eq_ok h
  cases h
  exact ⟨d, hr, hend⟩

/-- Two readers of lists need not stop at the same byte in front of the bracket. -/
theorem lockstep_nested_listed {r : Nat → Reader α} {q : Nat → Reader β}
    (h : ∀ d, Lockstep R (listed (r depth)) (listed (q depth)) d) :
    Lockstep R (nested (depth + 1) r endList) (nested (depth + 1) q endList) c := by
  intro a d x e hr hq
  obtain ⟨c₁, d₁, hadvance, hr, hend⟩ := exists_of_nested_eq_ok hr
  obtain ⟨c₂, e₁, hadvance', hq, hend'⟩ := exists_of_nested_eq_ok hq
  cases hadvance.symm.trans hadvance'
  exact h c₁ a d x e (listed_eq_ok hr hend) (listed_eq_ok hq hend')

theorem endList_behindBlanks (c : Cursor) : endList (behindBlanks c) = endList c := by
  unfold endList
  rw [bind_eq_of_ok (peekToken_eq _), bind_eq_of_ok (peekToken_eq c), behindBlanks_behindBlanks]

/-- No item comes next where the list ends. -/
theorem moreItems_of_endList (h : endList c = .ok () d) (first : Bool) :
    moreItems first c = .ok false (behindBlanks c) := by
  obtain ⟨offset, bs, hc, -⟩ := endList_eq_ok h
  unfold moreItems
  rw [bind_eq_of_ok (peekToken_eq c), hc]
  rfl

theorem behindBlanks_of_moreItems {first : Bool} (h : moreItems first c = .ok false d) :
    d = behindBlanks c := by
  obtain ⟨offset, b, bs, hc, ⟨-, -, rfl⟩ | ⟨-, hmore, -⟩ | ⟨-, hmore, -⟩⟩ := moreItems_eq_ok h
  · exact hc.symm
  · cases hmore
  · cases hmore

/-- Where no item comes next, no item is read. -/
theorem listed_foldItems_of_moreItems {item : α → Reader α} {first : Bool} {a a' : α} {fuel : Nat}
    (hmore : moreItems first c = .ok false d)
    (h : listed (foldItems item first a fuel) c = .ok a' e) : a' = a ∧ endList d = .ok () e := by
  obtain ⟨c₁, h, hend⟩ := exists_of_listed_eq_ok h
  cases fuel with
  | zero =>
    cases h
    rw [behindBlanks_of_moreItems hmore, endList_behindBlanks]
    exact ⟨rfl, hend⟩
  | succ fuel =>
    unfold foldItems at h
    rw [bind_eq_of_ok hmore] at h
    cases h
    exact ⟨rfl, hend⟩

/-- The items behind those in `xs` are read into the fields that are left. -/
def Placed (words : String) (index : Nat) (slots : Slots) (gs : List Content.Field)
    (xs : List Content) (slots' : Slots) (xs' : List Content) : Prop :=
  ∃ more, xs' = more.reverse ++ xs ∧
    Content.readPositions words index slots gs (Content.ofValues (Content.toValues more)) =
      .ok (slots', [])

variable {words : String} {index : Nat} {slots slots' : Slots} {xs xs' : List Content}
  {g : Content.Field}

/-- No item is left for the field, so none is left for those behind it. -/
theorem Placed.absent (h : Placed words (index + 1) slots gs xs slots' xs)
    (hrequired : ¬g.required = true) : Placed words index slots (g :: gs) xs slots' xs := by
  obtain ⟨more, hnone, hread⟩ := h
  have hnil : more = [] := by
    have hlength := congrArg List.length hnone
    rw [List.length_append, List.length_reverse] at hlength
    exact List.eq_nil_of_length_eq_zero (by omega)
  subst hnil
  refine ⟨[], rfl, ?_⟩
  show Content.readPositions words index slots (g :: gs) [] = _
  rw [Content.readPositions, if_neg hrequired]
  exact hread

/-- The next item is that of the field. -/
theorem Placed.item {v : Value} {x : Content}
    (h : Placed words (index + 1) (slots.put g.name v) gs (x :: xs) slots' xs')
    (hv : Rereads g.read v x) : Placed words index slots (g :: gs) xs slots' xs' := by
  obtain ⟨more, rfl, hread⟩ := h
  refine ⟨x :: more, by simp, ?_⟩
  unfold Rereads at hv
  rw [Content.toValues, Content.ofValues, Content.readPositions, hv]
  exact hread

theorem lockstep_positionalFields (hfields : List.Forall₂ FieldAccords fs gs) (words : String)
    (index : Nat) (slots : Slots) (xs : List Content) (fuel : Nat) :
    Lockstep (Placed words index slots gs xs)
      (listed (positionalFields words depth index slots fs))
      (listed (foldItems (contentItem depth) (index = 0) xs fuel)) c := by
  induction hfields generalizing index slots xs fuel c with
  | nil =>
    intro slots' d xs' e hr hq
    obtain ⟨c₁, hr, hend⟩ := exists_of_listed_eq_ok hr
    cases hr
    obtain ⟨rfl, hend'⟩ := listed_foldItems_of_moreItems (moreItems_of_endList hend _) hq
    rw [endList_behindBlanks, hend] at hend'
    cases hend'
    exact ⟨rfl, [], rfl, rfl⟩
  | @cons f g fs gs hfg hfields ih =>
    intro slots' d xs' e hr hq
    obtain ⟨d₁, hr, hend⟩ := exists_of_listed_eq_ok hr
    unfold positionalFields at hr
    obtain ⟨more, c₁, hmore, hr⟩ := exists_of_bind_eq_ok hr
    cases more with
    | false =>
      -- the fields that are left are absent, so the list of items ends here too
      obtain ⟨rfl, hend'⟩ := listed_foldItems_of_moreItems hmore hq
      rw [if_neg Bool.false_ne_true] at hr
      split at hr
      · cases hr
      · rename_i hrequired
        have hdone : listed (foldItems (contentItem depth) (index + 1 = 0) xs' 0) c₁ =
            .ok xs' e := listed_eq_ok rfl hend'
        obtain ⟨rfl, hplaced⟩ := ih _ _ _ _ _ _ _ _ (listed_eq_ok hr hend) hdone
        exact ⟨rfl, hplaced.absent (hfg.required ▸ hrequired)⟩
    | true =>
      rw [if_pos rfl] at hr
      obtain ⟨v, c₂, hv, hr⟩ := exists_of_bind_eq_ok hr
      obtain ⟨e₁, hq, hend'⟩ := exists_of_listed_eq_ok hq
      cases fuel with
      | zero =>
        cases hq
        cases hmore.symm.trans (moreItems_of_endList hend' _)
      | succ fuel =>
        unfold foldItems at hq
        rw [bind_eq_of_ok hmore, if_pos rfl] at hq
        obtain ⟨_, c₃, hitem, hq⟩ := exists_of_bind_eq_ok hq
        obtain ⟨x, c₄, hx, hitem⟩ := exists_of_bind_eq_ok hitem
        cases hitem
        obtain ⟨rfl, hreread⟩ := hfg.read depth c₁ v c₂ x c₃ hv hx
        rw [hfg.name] at hr
        obtain ⟨rfl, hplaced⟩ :=
          ih _ _ _ _ _ _ _ _ (listed_eq_ok hr hend) (listed_eq_ok hq hend')
        exact ⟨rfl, hplaced.item hreread⟩

/-- What follows the fields in a list is an error. -/
theorem Placed.rereads {name : String} {slots : Slots} {xs : List Content}
    (h : Placed (Shape.lengthExpectation name gs.length) 0 [] gs [] slots xs)
    {ws : List (String × Value)}
    (hfinish : slots.finish (gs.map fun g => (g.name, false)) = .ok ws) :
    Rereads (Content.readRecord surplus name gs) (.object ws) (.list xs.reverse) := by
  obtain ⟨more, rfl, hread⟩ := h
  unfold Rereads
  rw [List.append_nil, List.reverse_reverse, Content.toValue, Content.ofValue, Content.readRecord]
  simp only [hread, bind, Except.bind, List.isEmpty_nil, if_true, hfinish]
  rfl

theorem lockstep_positional (hfields : List.Forall₂ FieldAccords fs gs) (expected : String) :
    Lockstep (Rereads (Content.readRecord surplus expected gs))
      (listed do
        let slots ← positionalFields (Shape.lengthExpectation expected fs.length) depth 0 [] fs
        .object <$> ofExcept (slots.finish (fs.map fun f => (f.name, false))))
      (listed do return .list (← items (contentItem depth) []).reverse) c := by
  intro v d x e hr hq
  obtain ⟨d₁, hr, hend⟩ := exists_of_listed_eq_ok hr
  obtain ⟨slots, d₂, hslots, hr⟩ := exists_of_bind_eq_ok hr
  obtain ⟨e₁, hq, hend'⟩ := exists_of_listed_eq_ok hq
  obtain ⟨xs, e₂, hxs, hq⟩ := exists_of_bind_eq_ok hq
  cases hq
  have hnames : (fs.map fun f => (f.name, false)) = gs.map fun g => (g.name, false) := by
    simpa [Function.comp_def] using
      congrArg (List.map fun n => (n.1, false)) (names_of_accords hfields)
  rw [hfields.length_eq] at hslots
  rw [hnames] at hr
  cases hfinish : slots.finish (gs.map fun g => (g.name, false)) with
  | error _ =>
    rw [hfinish] at hr
    cases hr
  | ok ws =>
    rw [hfinish] at hr
    cases hr
    obtain ⟨rfl, hplaced⟩ := lockstep_positionalFields hfields _ 0 [] [] _ _ _ _ _
      (listed_eq_ok hslots hend) (listed_eq_ok hxs hend')
    exact ⟨rfl, hplaced.rereads hfinish⟩

theorem accords_record (hfields : List.Forall₂ FieldAccords fs gs) (expected : String) :
    Accords (record expected fs) (Content.readRecord surplus expected gs) := by
  refine accords_of_token fun depth b c => ?_
  dsimp only
  split
  · rename_i hb
    subst hb
    rw [contentAt_object]
    exact lockstep_nested fun d => lockstep_namedFields hfields expected
  · split
    · rename_i hb
      subst hb
      rw [contentAt_list]
      exact lockstep_nested_listed fun d => lockstep_positional hfields expected
    · exact lockstep_mismatch

end Json.Reader

/-! ### Plain shapes -/

mutual

/-- No record takes over fields or tells cases apart. -/
def Shape.isPlain : Shape → Bool
  | .option s | .list s | .map s => s.isPlain
  | .record _ fields => fields.isPlain
  | .merged _ _ _ | .tagged _ _ _ => false
  | _ => true

/-- All fields are plain. -/
def Fields.isPlain : Fields → Bool
  | .nil => true
  | .cons _ _ s rest => s.isPlain && rest.isPlain

end

open Json.Reader

variable {surplus : Content.Surplus}

mutual

/-- What a plain shape reads from a text, it reads from the value of the text. -/
theorem Shape.accords : (s : Shape) → s.isPlain = true → Accords s.ofText (s.read surplus)
  | .any, _ => accords_any
  | .string, _ => accords_text _ _
  | .text _ _, _ => accords_text _ _
  | .bool, _ => accords_bool
  | .int _ _ _, _ => accords_int _ _ _
  | .intOrString, _ => accords_intOrString
  | .unit, _ => accords_unit
  | .option s, h => accords_option (s.accords h)
  | .list s, h => accords_list (s.accords h)
  | .map s, h => accords_map (s.accords h)
  | .record _ fields, h => accords_record (fields.accords h) _

theorem Fields.accords : (fields : Fields) → fields.isPlain = true →
    List.Forall₂ FieldAccords fields.ofText (fields.readers surplus)
  | .nil, _ => .nil
  | .cons _ _ s rest, h =>
    .cons ⟨rfl, rfl, s.accords (Bool.and_eq_true_iff.mp h).1⟩
      (rest.accords (Bool.and_eq_true_iff.mp h).2)

end

end KubeClient
