import KubeClient.Proofs.JsonNumbers
import KubeClient.Proofs.JsonStrings

/-!
# Printed values are read

* `Json.Readable` : a value whose numbers are legible, and that does not nest too deep;
* `Json.Reader.gives_items`, `Json.Reader.gives_members` : what is printed item by item, or member
  by member, is read that way;
* `Json.Reader.gives_content` : a printed value is read as its tree, whatever follows it.
-/

namespace KubeClient.Json

/-- The numbers are legible, and lists and objects nest less deep than `depth`. -/
inductive Readable : Nat → Value → Prop
  | null {d : Nat} : Readable (d + 1) .null
  | bool {d : Nat} (b : Bool) : Readable (d + 1) (.bool b)
  | number {d : Nat} {n : Number} (h : Legible n) : Readable (d + 1) (.number n)
  | string {d : Nat} (s : String) : Readable (d + 1) (.string s)
  | list {d : Nat} {vs : List Value} (h : ∀ v ∈ vs, Readable (d + 1) v) :
    Readable (d + 2) (.list vs)
  | object {d : Nat} {ms : List (String × Value)} (h : ∀ m ∈ ms, Readable (d + 1) m.2) :
    Readable (d + 2) (.object ms)

theorem Readable.succ {d : Nat} {v : Value} (h : Readable d v) : Readable (d + 1) v := by
  induction h with
  | null => exact .null
  | bool b => exact .bool b
  | number h => exact .number h
  | string s => exact .string s
  | list _ ih => exact .list ih
  | object _ ih => exact .object ih

/-- What is read at some depth is read where more levels are left. -/
theorem Readable.mono {d e : Nat} {v : Value} (h : Readable d v) (hle : d ≤ e) : Readable e v := by
  induction hle with
  | refl => exact h
  | step _ ih => exact ih.succ

/-! ### The bytes of lists and objects -/

/-- The bytes of a list behind its bracket. -/
def listTail : List Value → Bytes
  | [] => [0x5D]
  | v :: vs => print v ++ printItems vs

/-- The bytes of an object behind its brace. -/
def objectTail : List (String × Value) → Bytes
  | [] => [0x7D]
  | m :: ms => printString m.1 ++ 0x3A :: print m.2 ++ printMembers ms

theorem print_list (vs : List Value) : print (.list vs) = 0x5B :: listTail vs := by
  cases vs with
  | nil => rfl
  | cons v vs => rw [print, listTail, List.cons_append]

theorem print_object (ms : List (String × Value)) : print (.object ms) = 0x7B :: objectTail ms := by
  cases ms with
  | nil => rfl
  | cons m ms => rw [print, objectTail, List.cons_append, List.cons_append]

theorem printItems_cons (v : Value) (vs : List Value) (rest : Bytes) :
    printItems (v :: vs) ++ rest = 0x2C :: (print v ++ (printItems vs ++ rest)) := by
  rw [printItems, List.cons_append, List.cons_append, List.append_assoc]

theorem printMembers_cons (m : String × Value) (ms : List (String × Value)) (rest : Bytes) :
    printMembers (m :: ms) ++ rest =
      0x2C :: (printString m.1 ++ 0x3A :: (print m.2 ++ (printMembers ms ++ rest))) := by
  simp only [printMembers, List.cons_append, List.append_assoc]

theorem objectTail_cons (m : String × Value) (ms : List (String × Value)) (rest : Bytes) :
    objectTail (m :: ms) ++ rest =
      printString m.1 ++ 0x3A :: (print m.2 ++ (printMembers ms ++ rest)) := by
  simp only [objectTail, List.cons_append, List.append_assoc]

theorem endsValue_printItems (vs : List Value) (rest : Bytes) :
    EndsValue (printItems vs ++ rest) := by
  cases vs with
  | nil => exact endsValue_cons (.inr (.inl rfl)) rest
  | cons v vs => exact printItems_cons v vs rest ▸ endsValue_cons (.inl rfl) _

theorem endsValue_printMembers (ms : List (String × Value)) (rest : Bytes) :
    EndsValue (printMembers ms ++ rest) := by
  cases ms with
  | nil => exact endsValue_cons (.inr (.inr rfl)) rest
  | cons m ms => exact printMembers_cons m ms rest ▸ endsValue_cons (.inl rfl) _

theorem length_le_printItems (vs : List Value) : vs.length < (printItems vs).length := by
  induction vs with
  | nil => exact Nat.one_pos
  | cons v vs ih =>
    simp only [printItems, List.cons_append, List.length_cons, List.length_append]
    omega

theorem length_le_printMembers (ms : List (String × Value)) :
    ms.length < (printMembers ms).length := by
  induction ms with
  | nil => exact Nat.one_pos
  | cons m ms ih =>
    simp only [printMembers, List.cons_append, List.append_assoc, List.length_cons,
      List.length_append]
    omega

namespace Reader

variable {α : Type} {d : Nat} {v : Value} {b c : UInt8} {rest : Bytes}

/-! ### First bytes -/

/-- A value of this kind can start with the byte. -/
def opens : Value → UInt8 → Bool
  | .null, b => b == 0x6E
  | .bool _, b => b == 0x74 || b == 0x66
  | .number _, b => b == 0x2D || isDigit b
  | .string _, b => b == 0x22
  | .list _, b => b == 0x5B
  | .object _, b => b == 0x7B

theorem ne_of_opens (hb : opens v b = true) (hc : opens v c = false) : b ≠ c := by
  rintro rfl
  rw [hb] at hc
  cases hc

/-- A value starts neither with a comma nor with the end of a list. -/
theorem opens_end (v : Value) : opens v 0x2C = false ∧ opens v 0x5D = false := by
  cases v <;> exact ⟨rfl, rfl⟩

theorem not_isBlank_of_opens (hb : opens v b = true) : isBlank b = false := by
  have hblank : opens v 0x20 = false ∧ opens v 0x09 = false ∧ opens v 0x0A = false ∧
      opens v 0x0D = false := by
    cases v <;> exact ⟨rfl, rfl, rfl, rfl⟩
  refine Bool.eq_false_iff.mpr fun h => ?_
  simp only [isBlank, Bool.or_eq_true, beq_iff_eq] at h
  rcases h with ((h | h) | h) | h
  · exact ne_of_opens hb hblank.1 h
  · exact ne_of_opens hb hblank.2.1 h
  · exact ne_of_opens hb hblank.2.2.1 h
  · exact ne_of_opens hb hblank.2.2.2 h

/-- Only numbers start with a sign or a digit. -/
theorem startsNumber_of_opens (hb : opens v b = true) : StartsNumber b ↔ ∃ n, v = .number n := by
  constructor
  · intro hstart
    refine Classical.byContradiction fun hv => ?_
    have hnone : ∀ c, StartsNumber c → opens v c = false := by
      intro c hc
      refine Bool.eq_false_iff.mpr fun h => ?_
      cases v with
      | number n => exact hv ⟨n, rfl⟩
      | bool _ =>
        rw [opens, Bool.or_eq_true, beq_iff_eq, beq_iff_eq] at h
        exact h.elim (hc.ne (by decide)) (hc.ne (by decide))
      | _ => exact hc.ne (by decide) (beq_iff_eq.mp h)
    exact ne_of_opens hb (hnone b hstart) rfl
  · rintro ⟨n, rfl⟩
    rwa [opens, Bool.or_eq_true, beq_iff_eq] at hb

/-- The first byte tells the kind of a value. -/
theorem exists_head_print (h : Readable d v) : ∃ b tl, print v = b :: tl ∧ opens v b = true := by
  cases h with
  | null => exact ⟨0x6E, _, rfl, rfl⟩
  | bool b =>
    cases b with
    | true => exact ⟨0x74, _, rfl, rfl⟩
    | false => exact ⟨0x66, _, rfl, rfl⟩
  | number h =>
    obtain ⟨b, tl, hprint, hb⟩ := exists_head_printNumber h
    refine ⟨b, tl, hprint, ?_⟩
    rw [opens, Bool.or_eq_true, beq_iff_eq]
    exact hb
  | string s => exact ⟨0x22, _, rfl, rfl⟩
  | list _ => exact ⟨0x5B, _, print_list _, rfl⟩
  | object _ => exact ⟨0x7B, _, print_object _, rfl⟩

theorem gives_peekToken_print (h : Readable d v) (bs : Bytes) :
    ∃ b, opens v b = true ∧ peekToken.Gives (print v ++ bs) (some (some b, print v ++ bs)) := by
  obtain ⟨b, tl, hprint, hb⟩ := exists_head_print h
  refine ⟨b, hb, ?_⟩
  rw [hprint]
  exact gives_token (not_isBlank_of_opens hb) _

/-! ### Scalars -/

/-- Null, a boolean, a number or a string is read as it was printed. -/
theorem gives_scalar (h : Readable d v) (hlist : ∀ vs, v ≠ .list vs)
    (hobject : ∀ ms, v ≠ .object ms) (hrest : EndsValue rest) :
    scalar.Gives (print v ++ rest) (some (.inl (Content.ofValue v), rest)) := by
  cases h with
  | null =>
    refine (gives_token (b := 0x6E) rfl _).bind ?_
    exact gives_word 0x6E [0x75, 0x6C, 0x6C] rest _
  | bool b =>
    cases b with
    | true =>
      refine (gives_token (b := 0x74) rfl _).bind ?_
      exact gives_word 0x74 [0x72, 0x75, 0x65] rest _
    | false =>
      refine (gives_token (b := 0x66) rfl _).bind ?_
      exact gives_word 0x66 [0x61, 0x6C, 0x73, 0x65] rest _
  | number h =>
    obtain ⟨b, hb, htoken⟩ := gives_peekToken_print (Readable.number (d := 0) h) rest
    have hstart : b = 0x2D ∨ isDigit b = true := (startsNumber_of_opens hb).mpr ⟨_, rfl⟩
    refine htoken.bind ?_
    dsimp only
    rw [if_neg (ne_of_opens hb rfl), if_neg (ne_of_opens hb rfl), if_neg (ne_of_opens hb rfl),
      if_pos hstart]
    exact (gives_number h hrest).bind (gives_pure _ rest)
  | string s =>
    refine (gives_token (b := 0x22) rfl _).bind ?_
    exact (gives_name s rest).bind (gives_pure _ rest)
  | list _ => exact (hlist _ rfl).elim
  | object _ => exact (hobject _ rfl).elim

/-- A bracket or a brace is no scalar. -/
theorem gives_scalar_open {b : UInt8} (h : b = 0x5B ∨ b = 0x7B) (bs : Bytes) :
    scalar.Gives (b :: bs) (some (.inr b, b :: bs)) := by
  rcases h with rfl | rfl
  · exact (gives_token (b := 0x5B) rfl bs).bind (gives_pure _ _)
  · exact (gives_token (b := 0x7B) rfl bs).bind (gives_pure _ _)

/-- What is not asked for is refused. -/
theorem gives_mismatch (expected : String) (h : Readable d v) (hrest : EndsValue rest) :
    (mismatch (α := α) expected).Gives (print v ++ rest) none := by
  refine Gives.locate ?_
  cases h with
  | list _ =>
    rw [print_list]
    exact (gives_scalar_open (.inl rfl) _).bind (gives_failShape _ _)
  | object _ =>
    rw [print_object]
    exact (gives_scalar_open (.inr rfl) _).bind (gives_failShape _ _)
  | null => exact (gives_scalar (d := 1) .null nofun nofun hrest).bind (gives_failShape _ _)
  | bool b => exact (gives_scalar (d := 1) (.bool b) nofun nofun hrest).bind (gives_failShape _ _)
  | number h =>
    exact (gives_scalar (d := 1) (.number h) nofun nofun hrest).bind (gives_failShape _ _)
  | string s =>
    exact (gives_scalar (d := 1) (.string s) nofun nofun hrest).bind (gives_failShape _ _)

/-! ### Lists and objects -/

/-- A comma and another item. -/
theorem gives_moreItems_cons (h : Readable d v) (bs : Bytes) :
    (moreItems false).Gives (0x2C :: (print v ++ bs)) (some (true, print v ++ bs)) := by
  obtain ⟨b, hb, htoken⟩ := gives_peekToken_print h bs
  refine (gives_token (b := 0x2C) rfl _).bind ?_
  dsimp only
  rw [if_neg (by decide), if_neg nofun, if_pos rfl]
  refine (gives_advance 0x2C _).bind (htoken.bind ?_)
  dsimp only
  rw [if_neg (ne_of_opens hb (opens_end v).2)]
  exact gives_pure true _

/-- The first item. -/
theorem gives_moreItems_first (h : Readable d v) (bs : Bytes) :
    (moreItems true).Gives (print v ++ bs) (some (true, print v ++ bs)) := by
  obtain ⟨b, hb, htoken⟩ := gives_peekToken_print h bs
  refine htoken.bind ?_
  dsimp only
  rw [if_neg (ne_of_opens hb (opens_end v).2), if_pos rfl]
  exact gives_pure true _

theorem gives_moreItems_nil (first : Bool) (rest : Bytes) :
    (moreItems first).Gives (0x5D :: rest) (some (false, 0x5D :: rest)) :=
  (gives_token (b := 0x5D) rfl rest).bind (gives_pure false _)

theorem gives_endList (rest : Bytes) : endList.Gives (0x5D :: rest) (some ((), rest)) :=
  (gives_token (b := 0x5D) rfl rest).bind (gives_advance 0x5D rest)

/-- A list does not end in front of another item. -/
theorem gives_endList_cons (vs : List Value) (rest : Bytes) (h : Readable d v) :
    endList.Gives (printItems (v :: vs) ++ rest) none := by
  obtain ⟨b, hb, htoken⟩ := gives_peekToken_print h (printItems vs ++ rest)
  rw [printItems_cons]
  refine (gives_token (b := 0x2C) rfl _).bind ?_
  dsimp only
  rw [if_neg (by decide), if_pos rfl]
  refine (gives_advance 0x2C _).bind (htoken.bind ?_)
  rw [if_neg fun hsome => ne_of_opens hb (opens_end v).2 (Option.some.inj hsome)]
  exact gives_failNext _ _

theorem gives_endList_first (h : Readable d v) (bs : Bytes) :
    endList.Gives (print v ++ bs) none := by
  obtain ⟨b, hb, htoken⟩ := gives_peekToken_print h bs
  refine htoken.bind ?_
  dsimp only
  rw [if_neg (ne_of_opens hb (opens_end v).2), if_neg (ne_of_opens hb (opens_end v).1)]
  exact gives_failNext _ _

/-- Items that are read one by one are folded. -/
theorem gives_foldItems (item : α → Reader α) (step : α → Value → Option α) {vs : List Value}
    (hvs : ∀ v ∈ vs, Readable d v)
    (hitem : ∀ v ∈ vs, ∀ a rest, EndsValue rest →
      (item a).Gives (print v ++ rest) ((step a v).map (·, rest)))
    (a : α) {fuel : Nat} (hfuel : vs.length < fuel) (rest : Bytes) :
    (foldItems item false a fuel).Gives (printItems vs ++ rest)
      ((vs.foldlM step a).map (·, 0x5D :: rest)) := by
  induction vs generalizing a fuel with
  | nil =>
    obtain ⟨fuel, rfl⟩ := Nat.exists_eq_add_of_lt hfuel
    refine (gives_moreItems_nil false rest).bind ?_
    exact gives_pure a _
  | cons v vs ih =>
    obtain ⟨fuel, rfl⟩ : ∃ n, fuel = n + 1 := ⟨fuel - 1, by simp at hfuel; omega⟩
    rw [printItems_cons, List.foldlM_cons, Option.bind_eq_bind, Option.map_bind]
    refine (gives_moreItems_cons (hvs v List.mem_cons_self) _).bind ?_
    rw [if_pos rfl]
    refine Gives.andThen (hitem v List.mem_cons_self a _ (endsValue_printItems vs rest))
      fun a' _ => ?_
    exact ih (fun w hw => hvs w (List.mem_cons_of_mem v hw))
      (fun w hw => hitem w (List.mem_cons_of_mem v hw)) a' (Nat.lt_of_succ_lt_succ hfuel)

/-- The items of a list are folded in order. -/
theorem gives_items (item : α → Reader α) (step : α → Value → Option α) {vs : List Value}
    (hvs : ∀ v ∈ vs, Readable d v)
    (hitem : ∀ v ∈ vs, ∀ a rest, EndsValue rest →
      (item a).Gives (print v ++ rest) ((step a v).map (·, rest)))
    (a : α) (rest : Bytes) :
    (items item a).Gives (listTail vs ++ rest) ((vs.foldlM step a).map (·, 0x5D :: rest)) := by
  refine (gives_remaining _).bind ?_
  cases vs with
  | nil =>
    refine (gives_moreItems_nil true rest).bind ?_
    exact gives_pure a _
  | cons v vs =>
    have hfuel : vs.length < (listTail (v :: vs) ++ rest).length := by
      have hlength := length_le_printItems vs
      simp only [listTail, List.length_append]
      omega
    rw [List.foldlM_cons, Option.bind_eq_bind, Option.map_bind]
    rw [listTail, List.append_assoc] at hfuel ⊢
    refine (gives_moreItems_first (hvs v List.mem_cons_self) _).bind ?_
    rw [if_pos rfl]
    refine Gives.andThen (hitem v List.mem_cons_self a _ (endsValue_printItems vs rest))
      fun a' _ => ?_
    exact gives_foldItems item step (fun w hw => hvs w (List.mem_cons_of_mem v hw))
      (fun w hw => hitem w (List.mem_cons_of_mem v hw)) a' hfuel rest

/-- A comma and another member. -/
theorem gives_moreMembers_cons (s : String) (bs : Bytes) :
    (moreMembers false).Gives (0x2C :: (printString s ++ bs))
      (some (true, printString s ++ bs)) := by
  refine (gives_token (b := 0x2C) rfl _).bind ?_
  refine (gives_advance 0x2C _).bind ?_
  refine (gives_token (b := 0x22) rfl _).bind ?_
  exact gives_pure true _

/-- The first member. -/
theorem gives_moreMembers_first (s : String) (bs : Bytes) :
    (moreMembers true).Gives (printString s ++ bs) (some (true, printString s ++ bs)) :=
  (gives_token (b := 0x22) rfl _).bind (gives_pure true _)

theorem gives_moreMembers_nil (first : Bool) (rest : Bytes) :
    (moreMembers first).Gives (0x7D :: rest) (some (false, 0x7D :: rest)) :=
  (gives_token (b := 0x7D) rfl rest).bind (gives_pure false _)

theorem gives_endObject (rest : Bytes) : endObject.Gives (0x7D :: rest) (some ((), rest)) :=
  (gives_token (b := 0x7D) rfl rest).bind (gives_advance 0x7D rest)

theorem gives_colon (rest : Bytes) : colon.Gives (0x3A :: rest) (some ((), rest)) :=
  (gives_token (b := 0x3A) rfl rest).bind (gives_advance 0x3A rest)

/-- Members that are read one by one are folded. -/
theorem gives_foldMembers (member : α → String → Reader α)
    (step : α → String × Value → Option α) {ms : List (String × Value)}
    (hmember : ∀ m ∈ ms, ∀ a rest, EndsValue rest →
      (member a m.1).Gives (0x3A :: (print m.2 ++ rest)) ((step a m).map (·, rest)))
    (a : α) {fuel : Nat} (hfuel : ms.length < fuel) (rest : Bytes) :
    (foldMembers member false a fuel).Gives (printMembers ms ++ rest)
      ((ms.foldlM step a).map (·, 0x7D :: rest)) := by
  induction ms generalizing a fuel with
  | nil =>
    obtain ⟨fuel, rfl⟩ := Nat.exists_eq_add_of_lt hfuel
    refine (gives_moreMembers_nil false rest).bind ?_
    exact gives_pure a _
  | cons m ms ih =>
    obtain ⟨fuel, rfl⟩ : ∃ n, fuel = n + 1 := ⟨fuel - 1, by simp at hfuel; omega⟩
    rw [printMembers_cons, List.foldlM_cons, Option.bind_eq_bind, Option.map_bind]
    refine (gives_moreMembers_cons m.1 _).bind ?_
    rw [if_pos rfl]
    refine (gives_name m.1 _).bind ?_
    refine Gives.andThen (hmember m List.mem_cons_self a _ (endsValue_printMembers ms rest))
      fun a' _ => ?_
    exact ih (fun m' hm' => hmember m' (List.mem_cons_of_mem m hm')) a'
      (Nat.lt_of_succ_lt_succ hfuel)

/-- The members of an object are folded in order. -/
theorem gives_members (member : α → String → Reader α)
    (step : α → String × Value → Option α) (ms : List (String × Value))
    (hmember : ∀ m ∈ ms, ∀ a rest, EndsValue rest →
      (member a m.1).Gives (0x3A :: (print m.2 ++ rest)) ((step a m).map (·, rest)))
    (a : α) (rest : Bytes) :
    (members member a).Gives (objectTail ms ++ rest)
      ((ms.foldlM step a).map (·, 0x7D :: rest)) := by
  refine (gives_remaining _).bind ?_
  cases ms with
  | nil =>
    refine (gives_moreMembers_nil true rest).bind ?_
    exact gives_pure a _
  | cons m ms =>
    have hfuel : ms.length < (objectTail (m :: ms) ++ rest).length := by
      have hlength := length_le_printMembers ms
      simp only [objectTail, List.length_append]
      omega
    rw [List.foldlM_cons, Option.bind_eq_bind, Option.map_bind]
    rw [objectTail_cons] at hfuel ⊢
    refine (gives_moreMembers_first m.1 _).bind ?_
    rw [if_pos rfl]
    refine (gives_name m.1 _).bind ?_
    refine Gives.andThen (hmember m List.mem_cons_self a _ (endsValue_printMembers ms rest))
      fun a' _ => ?_
    exact gives_foldMembers member step (fun m' hm' => hmember m' (List.mem_cons_of_mem m hm'))
      a' hfuel rest

/-! ### One level deeper -/

/-- What a bracket opens is closed behind it. -/
theorem gives_nested {r : Nat → Reader α} {close : Reader Unit} {b c : UInt8} {bs : Bytes}
    {x : Option α} (h : (r (d + 1)).Gives bs (x.map (·, c :: rest)))
    (hclose : close.Gives (c :: rest) (some ((), rest))) :
    (nested (d + 2) r close).Gives (b :: bs) (x.map (·, rest)) := by
  have hopened : (do advance; r (d + 2 - 1)).Gives (b :: bs) (x.map (·, c :: rest)) :=
    (gives_advance b bs).bind h
  rw [nested, if_neg (by omega)]
  cases x with
  | none => exact hopened.closing_none
  | some a => exact hopened.closing hclose

/-- What is not read to its bracket is not closed. -/
theorem gives_nested_fails {r : Nat → Reader α} {close : Reader Unit} {b : UInt8} {bs bs' : Bytes}
    {x : Option α} (h : (r (d + 1)).Gives bs (x.map (·, bs'))) (hclose : close.Gives bs' none) :
    (nested (d + 2) r close).Gives (b :: bs) none := by
  have hopened : (do advance; r (d + 2 - 1)).Gives (b :: bs) (x.map (·, bs')) :=
    (gives_advance b bs).bind h
  rw [nested, if_neg (by omega)]
  cases x with
  | none => exact hopened.closing_none
  | some a => exact hopened.closing_fails hclose

theorem gives_nested_none {r : Nat → Reader α} {close : Reader Unit} {b : UInt8} {bs : Bytes}
    (h : (r (d + 1)).Gives bs none) : (nested (d + 2) r close).Gives (b :: bs) none := by
  have hopened : (do advance; r (d + 2 - 1)).Gives (b :: bs) none :=
    (gives_advance b bs).bind h
  rw [nested, if_neg (by omega)]
  exact hopened.closing_none

/-! ### Values of any shape -/

/-- What is put in front one by one stands in reverse. -/
theorem foldlM_some_cons {β γ : Type} (f : β → γ) (bs : List β) :
    bs.foldlM (fun cs b => some (f b :: cs)) [] = some (bs.map f).reverse := by
  have hpure := List.foldlM_pure (m := Option) (f := fun cs b => f b :: cs) (b := []) (l := bs)
  rw [List.foldl_flip_cons_eq_append, List.append_nil] at hpure
  exact hpure

theorem gives_content_scalar {c : Content} {bs : Bytes}
    (h : scalar.Gives bs (some (.inl c, rest))) : (content (d + 1)).Gives bs (some (c, rest)) :=
  Gives.locate (h.bind (gives_pure c rest))

/-- A printed value is read as its tree. -/
theorem gives_content (h : Readable d v) {rest : Bytes} (hrest : EndsValue rest) :
    (content d).Gives (print v ++ rest) (some (Content.ofValue v, rest)) := by
  induction h generalizing rest with
  | null =>
    exact gives_content_scalar (gives_scalar (d := 1) .null nofun nofun hrest)
  | bool b =>
    exact gives_content_scalar (gives_scalar (d := 1) (.bool b) nofun nofun hrest)
  | number h =>
    exact gives_content_scalar (gives_scalar (d := 1) (.number h) nofun nofun hrest)
  | string s =>
    exact gives_content_scalar (gives_scalar (d := 1) (.string s) nofun nofun hrest)
  | list h ih =>
    rename_i d vs
    rw [print_list, Content.ofValue]
    refine Gives.locate ((gives_scalar_open (.inl rfl) _).bind ?_)
    dsimp only
    rw [if_pos rfl]
    refine gives_nested (x := some (Content.list (Content.ofValues vs))) ?_ (gives_endList rest)
    have hitems := gives_items (fun cs => do return (← content (d + 1)) :: cs)
      (fun cs v => some (Content.ofValue v :: cs)) h
      (fun v hv cs rest hrest => (ih v hv hrest).bind (gives_pure _ rest)) [] rest
    rw [foldlM_some_cons] at hitems
    refine hitems.bind ?_
    rw [List.reverse_reverse, Content.ofValues_eq_map]
    exact gives_pure _ _
  | object h ih =>
    rename_i d ms
    rw [print_object, Content.ofValue]
    refine Gives.locate ((gives_scalar_open (.inr rfl) _).bind ?_)
    dsimp only
    rw [if_neg (by decide), if_pos rfl]
    refine gives_nested (x := some (Content.map (Content.ofMembers ms))) ?_ (gives_endObject rest)
    have hmembers := gives_members
      (fun cs n => do
        colon
        return (Content.string n, ← content (d + 1)) :: cs)
      (fun cs (m : String × Value) => some ((Content.string m.1, Content.ofValue m.2) :: cs)) ms
      (fun m hm cs rest hrest =>
        (gives_colon _).bind ((ih m hm hrest).bind (gives_pure _ rest))) [] rest
    rw [foldlM_some_cons] at hmembers
    refine hmembers.bind ?_
    rw [List.reverse_reverse, Content.ofMembers_eq_map]
    exact gives_pure _ _

end Reader
end KubeClient.Json
