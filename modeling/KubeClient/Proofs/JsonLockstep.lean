import KubeClient.Document.Json.Reader

/-!
# Two readers over one text

A text may be read in two ways: as the shape that is asked for, or as a tree whose shape is not
known yet. Where both ways come to an end, they come to the same end.

* `Json.Reader.Lockstep` : two readers that succeed have read as much, and what they have made of it
  is related;
* `Json.Reader.Lockstep.bind` and the other rules : two readers are followed step by step;
* `Json.Reader.lockstep_items`, `lockstep_members` : the same for loops, with what the turns keep;
* `Json.Reader.contentAt`, `content_succ` : a tree, by the first byte of its text.
-/

namespace KubeClient.Json.Reader

variable {α β γ δ : Type} {R : α → β → Prop} {S : γ → δ → Prop} {r : Reader α} {q : Reader β}
  {f : α → Reader γ} {g : β → Reader δ} {c : Cursor}

/-- If both readers succeed at `c`, they have read as much, and their answers are related. -/
def Lockstep (R : α → β → Prop) (r : Reader α) (q : Reader β) (c : Cursor) : Prop :=
  ∀ a d b e, r c = .ok a d → q c = .ok b e → d = e ∧ R a b

/-! ### What came before a success -/

theorem exists_of_bind_eq_ok {a : γ} {e : Cursor} (h : (r >>= f) c = .ok a e) :
    ∃ b d, r c = .ok b d ∧ f b d = .ok a e := by
  change EStateM.bind r f c = _ at h
  unfold EStateM.bind at h
  cases hr : r c with
  | error _ _ =>
    rw [hr] at h
    cases h
  | ok b d =>
    rw [hr] at h
    exact ⟨b, d, rfl, h⟩

theorem bind_eq_of_ok {b : α} {d : Cursor} (h : r c = .ok b d) : (r >>= f) c = f b d := by
  show EStateM.bind r f c = _
  rw [EStateM.bind, h]

theorem locate_eq_ok {a : α} {d : Cursor} : locate r c = .ok a d ↔ r c = .ok a d := by
  unfold locate
  cases r c <;> simp

theorem exists_of_closing_eq_ok {close : Reader Unit} {a : α} {e : Cursor}
    (h : closing r close c = .ok a e) : ∃ d, r c = .ok a d ∧ close d = .ok () e := by
  unfold closing at h
  cases hr : r c with
  | error _ d =>
    rw [hr] at h
    dsimp only at h
    cases hclose : close d <;> rw [hclose] at h <;> cases h
  | ok b d =>
    rw [hr] at h
    dsimp only at h
    cases hclose : close d with
    | error _ _ =>
      rw [hclose] at h
      cases h
    | ok _ _ =>
      rw [hclose] at h
      cases h
      exact ⟨d, rfl, hclose⟩

/-- What is read between an opening and a closing byte. -/
theorem exists_of_nested_eq_ok {depth : Nat} {r : Nat → Reader α} {close : Reader Unit} {a : α}
    {e : Cursor} (h : nested depth r close c = .ok a e) :
    ∃ c' d, advance c = .ok () c' ∧ r (depth - 1) c' = .ok a d ∧ close d = .ok () e := by
  unfold nested at h
  split at h
  · cases h
  · obtain ⟨d, h, hclose⟩ := exists_of_closing_eq_ok h
    obtain ⟨_, c', hadvance, hr⟩ := exists_of_bind_eq_ok h
    exact ⟨c', d, hadvance, hr, hclose⟩

/-! ### Rules -/

theorem lockstep_pure {a : α} {b : β} (h : R a b) : Lockstep R (pure a) (pure b) c := by
  intro _ _ _ _ hr hq
  cases hr
  cases hq
  exact ⟨rfl, h⟩

theorem lockstep_of_fails (h : ∀ a d, r c ≠ .ok a d) : Lockstep R r q c :=
  fun a d _ _ hr _ => (h a d hr).elim

theorem lockstep_of_fails_right (h : ∀ b e, q c ≠ .ok b e) : Lockstep R r q c :=
  fun _ _ b e _ hq => (h b e hq).elim

/-- One step of each, and the rest. -/
theorem Lockstep.bind (h : Lockstep R r q c)
    (hf : ∀ a b d, R a b → Lockstep S (f a) (g b) d) : Lockstep S (r >>= f) (q >>= g) c := by
  intro a d b e hr hq
  obtain ⟨a', d', hr, hf'⟩ := exists_of_bind_eq_ok hr
  obtain ⟨b', e', hq, hg'⟩ := exists_of_bind_eq_ok hq
  obtain ⟨rfl, hab⟩ := h a' d' b' e' hr hq
  exact hf a' b' d' hab a d b e hf' hg'

/-- The same step, and the rest. -/
theorem lockstep_step {g : α → Reader δ} (h : ∀ a d, Lockstep S (f a) (g a) d) :
    Lockstep S (r >>= f) (r >>= g) c := by
  intro a d b e hr hq
  obtain ⟨a', d', hr, hf⟩ := exists_of_bind_eq_ok hr
  obtain ⟨b', e', hq, hg⟩ := exists_of_bind_eq_ok hq
  cases hr.symm.trans hq
  exact h a' d' a d b e hf hg

theorem Lockstep.locate (h : Lockstep R r q c) :
    Lockstep R (Reader.locate r) (Reader.locate q) c := by
  intro a d b e hr hq
  exact h a d b e (locate_eq_ok.mp hr) (locate_eq_ok.mp hq)

theorem Lockstep.closing (h : Lockstep R r q c) (close : Reader Unit) :
    Lockstep R (Reader.closing r close) (Reader.closing q close) c := by
  intro a d b e hr hq
  obtain ⟨d', hr, hclose⟩ := exists_of_closing_eq_ok hr
  obtain ⟨e', hq, hclose'⟩ := exists_of_closing_eq_ok hq
  obtain ⟨rfl, hab⟩ := h a d' b e' hr hq
  cases hclose.symm.trans hclose'
  exact ⟨rfl, hab⟩

theorem lockstep_nested {depth : Nat} {r : Nat → Reader α} {q : Nat → Reader β}
    {close : Reader Unit} (h : ∀ d, Lockstep R (r (depth - 1)) (q (depth - 1)) d) :
    Lockstep R (nested depth r close) (nested depth q close) c := by
  unfold nested
  split
  · exact lockstep_of_fails fun _ _ hr => by cases hr
  · exact Lockstep.closing (lockstep_step fun _ d => h d) close

/-! ### Loops -/

theorem lockstep_foldItems {item : α → Reader α} {item' : β → Reader β}
    (h : ∀ a b d, R a b → Lockstep R (item a) (item' b) d) (first : Bool) {a : α} {b : β}
    (hab : R a b) (fuel : Nat) :
    Lockstep R (foldItems item first a fuel) (foldItems item' first b fuel) c := by
  induction fuel generalizing first a b c with
  | zero => exact lockstep_pure hab
  | succ fuel ih =>
    -- both loops ask the text whether an item comes next, so they turn equally often
    unfold foldItems
    refine lockstep_step fun more d => ?_
    cases more with
    | false => exact lockstep_pure hab
    | true => exact (h a b d hab).bind fun a b d hab => ih false hab

/-- What one item keeps, all items keep. -/
theorem lockstep_items {item : α → Reader α} {item' : β → Reader β}
    (h : ∀ a b d, R a b → Lockstep R (item a) (item' b) d) {a : α} {b : β} (hab : R a b) :
    Lockstep R (items item a) (items item' b) c :=
  lockstep_step fun n _ => lockstep_foldItems h true hab (n + 1)

theorem lockstep_foldMembers {member : α → String → Reader α} {member' : β → String → Reader β}
    (h : ∀ a b n d, R a b → Lockstep R (member a n) (member' b n) d) (first : Bool) {a : α} {b : β}
    (hab : R a b) (fuel : Nat) :
    Lockstep R (foldMembers member first a fuel) (foldMembers member' first b fuel) c := by
  induction fuel generalizing first a b c with
  | zero => exact lockstep_pure hab
  | succ fuel ih =>
    unfold foldMembers
    refine lockstep_step fun more d => ?_
    cases more with
    | false => exact lockstep_pure hab
    | true =>
      refine lockstep_step fun n d => ?_
      exact (h a b n d hab).bind fun a b d hab => ih false hab

/-- What one member keeps, all members keep. -/
theorem lockstep_members {member : α → String → Reader α} {member' : β → String → Reader β}
    (h : ∀ a b n d, R a b → Lockstep R (member a n) (member' b n) d) {a : α} {b : β}
    (hab : R a b) : Lockstep R (members member a) (members member' b) c :=
  lockstep_step fun n _ => lockstep_foldMembers h true hab (n + 1)

/-! ### Trees -/

/-- One more item of a list, the last one first. -/
def contentItem (depth : Nat) (cs : List Content) : Reader (List Content) := do
  return (← content depth) :: cs

/-- One more member of an object behind its name, the last one first. -/
def contentMember (depth : Nat) (ms : List (Content × Content)) (n : String) :
    Reader (List (Content × Content)) := do
  colon
  return (.string n, ← content depth) :: ms

/-- A tree whose first byte is `b`. -/
def contentAt (depth : Nat) (b : UInt8) : Reader Content :=
  if b = 0x6E then word [0x75, 0x6C, 0x6C] .null
  else if b = 0x74 then word [0x72, 0x75, 0x65] (.bool true)
  else if b = 0x66 then word [0x61, 0x6C, 0x73, 0x65] (.bool false)
  else if b = 0x2D ∨ isDigit b then do return .number (← number)
  else if b = 0x22 then do return .string (← name)
  else if b = 0x5B then
    nested (depth + 1) (fun _ => do return .list (← items (contentItem depth) []).reverse) endList
  else if b = 0x7B then
    nested (depth + 1) (fun _ => do return .map (← members (contentMember depth) []).reverse)
      endObject
  else failNext .noValue

theorem contentAt_list (depth : Nat) : contentAt depth 0x5B =
    nested (depth + 1) (fun _ => do return .list (← items (contentItem depth) []).reverse)
      endList :=
  rfl

theorem contentAt_object (depth : Nat) : contentAt depth 0x7B =
    nested (depth + 1) (fun _ => do return .map (← members (contentMember depth) []).reverse)
      endObject :=
  rfl

theorem word_bind (rest : Bytes) (a : α) (f : α → Reader γ) :
    (word rest a >>= f) = advance >>= fun _ => ident rest >>= fun _ => f a := by
  simp only [word, bind_assoc, pure_bind]

/-- A tree is read by the first byte of its text. -/
theorem content_succ (depth : Nat) :
    content (depth + 1) = locate (peekToken >>= fun
      | none => failNext .endInValue
      | some b => contentAt depth b) := by
  -- the answer of `scalar`, a tree or the byte that starts none, is looked at in each of its cases
  rw [content, scalar, bind_assoc]
  congr 2
  funext o
  cases o with
  | none => rfl
  | some b =>
    unfold contentAt
    dsimp only
    by_cases hnull : b = 0x6E
    · rw [if_pos hnull, if_pos hnull, word_bind]
      rfl
    rw [if_neg hnull, if_neg hnull]
    by_cases htrue : b = 0x74
    · rw [if_pos htrue, if_pos htrue, word_bind]
      rfl
    rw [if_neg htrue, if_neg htrue]
    by_cases hfalse : b = 0x66
    · rw [if_pos hfalse, if_pos hfalse, word_bind]
      rfl
    rw [if_neg hfalse, if_neg hfalse]
    by_cases hnumber : b = 0x2D ∨ isDigit b = true
    · rw [if_pos hnumber, if_pos hnumber]
      simp only [bind_assoc, pure_bind]
    rw [if_neg hnumber, if_neg hnumber]
    by_cases hstring : b = 0x22
    · rw [if_pos hstring, if_pos hstring]
      simp only [bind_assoc, pure_bind]
    rw [if_neg hstring, if_neg hstring, pure_bind]
    rfl

theorem not_ok_content_zero (c : Cursor) (x : Content) (d : Cursor) : content 0 c ≠ .ok x d := by
  intro h
  cases h

/-- The cursor behind blanks. -/
def behindBlanks (c : Cursor) : Cursor :=
  ⟨c.offset + (c.rest.takeWhile isBlank).length, c.rest.dropWhile isBlank⟩

theorem peekToken_eq (c : Cursor) :
    peekToken c = .ok (behindBlanks c).rest.head? (behindBlanks c) :=
  rfl

/-- A tree has a first byte behind blanks, and is read from there on. -/
theorem exists_of_content_eq_ok {depth : Nat} {x : Content} {d : Cursor}
    (h : content (depth + 1) c = .ok x d) :
    ∃ b, (behindBlanks c).rest.head? = some b ∧ contentAt depth b (behindBlanks c) = .ok x d := by
  rw [content_succ, locate_eq_ok, bind_eq_of_ok (peekToken_eq c)] at h
  cases hhead : (behindBlanks c).rest.head? with
  | none =>
    rw [hhead] at h
    cases h
  | some b =>
    rw [hhead] at h
    exact ⟨b, rfl, h⟩

/-- A reader that looks at the first byte, and a tree. -/
theorem lockstep_token {k : Option UInt8 → Reader α} {S : α → Content → Prop} {depth : Nat}
    (h : ∀ b d, Lockstep S (k (some b)) (contentAt depth b) d) :
    Lockstep S (Reader.locate (peekToken >>= k)) (content (depth + 1)) c := by
  intro a d x e hr hx
  rw [locate_eq_ok, bind_eq_of_ok (peekToken_eq c)] at hr
  obtain ⟨b, hhead, hx⟩ := exists_of_content_eq_ok hx
  rw [hhead] at hr
  exact h b _ a d x e hr hx

end KubeClient.Json.Reader
