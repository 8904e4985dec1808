import KubeClient.Proofs.JsonText

/-!
# Printed values are stepped over

A skipped value is not read level by level: one loop keeps the brackets that are open. Its fuel is
more than the bytes that are left, since every turn takes one byte at least.

* `Json.Reader.Skips`, `Json.Reader.Closes` : what the loop gives in front of a value and behind it;
* `Json.Reader.gives_skipValue` : a printed value is stepped over.
-/

namespace KubeClient.Json.Reader

variable {d : Nat} {v : Value} {outer : List Frame} {rest : Bytes} {out : Option (Unit × Bytes)}

/-- The loop behind a value, or behind an opening bracket if nothing may close. -/
def skipRest (mayClose : Bool) (open_ : List Frame) (fuel : Nat) : Reader Unit := do
  match ← skipClosers mayClose open_ ((← remaining) + 1) with
  | [] => return ()
  | f :: outer =>
    if f = .object then skipName
    skipOpen (f :: outer) fuel

/-- What the loop gives in front of a value, given enough fuel. -/
def Skips (open_ : List Frame) (bs : Bytes) (out : Option (Unit × Bytes)) : Prop :=
  ∀ fuel, bs.length < fuel → (skipOpen open_ fuel).Gives bs out

/-- What the loop gives behind a value, given enough fuel. -/
def Closes (open_ : List Frame) (bs : Bytes) (out : Option (Unit × Bytes)) : Prop :=
  ∀ fuel, bs.length < fuel → (skipRest true open_ fuel).Gives bs out

/-! ### One turn -/

theorem gives_skipOpen_scalar {open_ : List Frame} {bs : Bytes} {fuel : Nat}
    (h : skipStart.Gives bs (some (none, rest)))
    (hrest : (skipRest true open_ fuel).Gives rest out) :
    (skipOpen open_ (fuel + 1)).Gives bs out :=
  h.bind hrest

theorem gives_skipOpen_open {open_ : List Frame} {bs : Bytes} {fuel : Nat} {f : Frame}
    (h : skipStart.Gives bs (some (some f, rest)))
    (hrest : (skipRest false (f :: open_) fuel).Gives rest out) :
    (skipOpen open_ (fuel + 1)).Gives bs out :=
  h.bind hrest

/-- A bracket closes the innermost frame. -/
theorem gives_skipRest_close {mayClose : Bool} {f : Frame} {fuel : Nat} {b : UInt8}
    (hb : (b = 0x5D ∧ f = .list) ∨ (b = 0x7D ∧ f = .object))
    (h : (skipRest true outer fuel).Gives rest out) :
    (skipRest mayClose (f :: outer) fuel).Gives (b :: rest) out := by
  intro offset
  rw [← h (offset + 1)]
  rcases hb with ⟨rfl, rfl⟩ | ⟨rfl, rfl⟩
  · rfl
  · rfl

/-- Behind a comma comes another item. -/
theorem gives_skipRest_item {fuel : Nat} (h : (skipOpen (.list :: outer) fuel).Gives rest out) :
    (skipRest true (.list :: outer) fuel).Gives (0x2C :: rest) out := by
  intro offset
  rw [← h (offset + 1)]
  rfl

/-- The first item. -/
theorem gives_skipRest_first {fuel : Nat} (hv : Readable d v)
    (h : (skipOpen (.list :: outer) fuel).Gives (print v ++ rest) out) :
    (skipRest false (.list :: outer) fuel).Gives (print v ++ rest) out := by
  obtain ⟨b, hb, htoken⟩ := gives_peekToken_print hv rest
  have hclose := ne_of_opens hb (opens_end v).2
  refine (gives_remaining _).bind ?_
  refine Gives.bind (a := Frame.list :: outer) (htoken.bind ?_) h
  dsimp only
  have hnone : ¬ ((b = 0x5D ∧ Frame.list = .list) ∨ (b = 0x7D ∧ Frame.list = .object)) := by
    rintro (⟨hb, -⟩ | ⟨-, hf⟩)
    · exact hclose hb
    · cases hf
  rw [if_neg (by simp), if_neg hnone, if_neg (by simp)]
  exact gives_pure _ _

/-- A name and its colon. -/
theorem gives_skipName (s : String) (rest : Bytes) :
    skipName.Gives (printString s ++ 0x3A :: rest) (some ((), rest)) := by
  rw [printString_append]
  refine (gives_token (b := 0x22) rfl _).bind ?_
  dsimp only
  rw [if_pos rfl]
  refine (gives_advance 0x22 _).bind ((gives_remaining _).bind ?_)
  refine (gives_skipString_string s _).bind ?_
  exact (gives_token (b := 0x3A) rfl rest).bind (gives_advance 0x3A rest)

/-- Behind a comma comes another member. -/
theorem gives_skipRest_member {fuel : Nat} {s : String}
    (h : (skipOpen (.object :: outer) fuel).Gives rest out) :
    (skipRest true (.object :: outer) fuel).Gives
      (0x2C :: (printString s ++ 0x3A :: rest)) out := by
  have hname :=
    Gives.bind (k := fun _ => skipOpen (.object :: outer) fuel) (gives_skipName s rest) h
  intro offset
  rw [← hname (offset + 1)]
  rfl

/-- The first member. -/
theorem gives_skipRest_firstMember {fuel : Nat} {s : String}
    (h : (skipOpen (.object :: outer) fuel).Gives rest out) :
    (skipRest false (.object :: outer) fuel).Gives (printString s ++ 0x3A :: rest) out := by
  have hname :=
    Gives.bind (k := fun _ => skipOpen (.object :: outer) fuel) (gives_skipName s rest) h
  intro offset
  rw [← hname offset]
  rfl

/-! ### Whole values -/

/-- A word is stepped over. -/
theorem gives_skipStart_word (b : UInt8) (word : Bytes)
    (h : (b, word) ∈ [((0x6E : UInt8), ([0x75, 0x6C, 0x6C] : Bytes)), (0x74, [0x72, 0x75, 0x65]),
      (0x66, [0x61, 0x6C, 0x73, 0x65])]) (rest : Bytes) :
    skipStart.Gives (b :: word ++ rest) (some (none, rest)) := by
  have hident : Gives (do advance; ident word; return (none : Option Frame)) (b :: word ++ rest)
      (some (none, rest)) :=
    (gives_advance b (word ++ rest)).bind ((gives_ident word rest).bind (gives_pure none rest))
  simp only [List.mem_cons, Prod.mk.injEq, List.not_mem_nil, or_false] at h
  rcases h with ⟨rfl, rfl⟩ | ⟨rfl, rfl⟩ | ⟨rfl, rfl⟩
  · exact (gives_token (b := 0x6E) rfl _).bind hident
  · exact (gives_token (b := 0x74) rfl _).bind hident
  · exact (gives_token (b := 0x66) rfl _).bind hident

/-- A string is stepped over. -/
theorem gives_skipStart_string (s : String) (rest : Bytes) :
    skipStart.Gives (printString s ++ rest) (some (none, rest)) := by
  rw [printString_append]
  refine (gives_token (b := 0x22) rfl _).bind ?_
  refine (gives_advance 0x22 _).bind ((gives_remaining _).bind ?_)
  exact (gives_skipString_string s rest).bind (gives_pure none rest)

theorem gives_skipStart_list (bs : Bytes) : skipStart.Gives (0x5B :: bs) (some (some .list, bs)) :=
  (gives_token (b := 0x5B) rfl bs).bind ((gives_advance 0x5B bs).bind (gives_pure _ bs))

theorem gives_skipStart_object (bs : Bytes) :
    skipStart.Gives (0x7B :: bs) (some (some .object, bs)) :=
  (gives_token (b := 0x7B) rfl bs).bind ((gives_advance 0x7B bs).bind (gives_pure _ bs))

/-- Behind a scalar the loop goes on with one unit of fuel less. -/
theorem skips_scalar {b : UInt8} {tl : Bytes}
    (h : skipStart.Gives (b :: tl ++ rest) (some (none, rest))) (hclosed : Closes outer rest out) :
    Skips outer (b :: tl ++ rest) out := by
  intro fuel hfuel
  simp only [List.cons_append, List.length_cons, List.length_append] at hfuel
  obtain ⟨fuel, rfl⟩ : ∃ n, fuel = n + 1 := ⟨fuel - 1, by omega⟩
  exact gives_skipOpen_scalar h (hclosed fuel (by omega))

/-- Nothing is open any more. -/
theorem closes_nil (rest : Bytes) : Closes [] rest (some ((), rest)) :=
  fun _ _ _ => rfl

/-- The items behind the first one, and the bracket. -/
theorem closes_printItems {vs : List Value}
    (hvs : ∀ v ∈ vs, ∀ rest, EndsValue rest → Closes (.list :: outer) rest out →
      Skips (.list :: outer) (print v ++ rest) out)
    (hrest : Closes outer rest out) : Closes (.list :: outer) (printItems vs ++ rest) out := by
  induction vs with
  | nil =>
    intro fuel hfuel
    exact gives_skipRest_close (.inl ⟨rfl, rfl⟩) (hrest fuel (Nat.lt_of_succ_lt hfuel))
  | cons v vs ih =>
    intro fuel hfuel
    rw [printItems_cons] at hfuel ⊢
    have hclosed := ih fun w hw => hvs w (List.mem_cons_of_mem v hw)
    exact gives_skipRest_item (hvs v List.mem_cons_self _ (endsValue_printItems vs rest) hclosed
      fuel (Nat.lt_of_succ_lt hfuel))

/-- The members behind the first one, and the brace. -/
theorem closes_printMembers {ms : List (String × Value)}
    (hms : ∀ m ∈ ms, ∀ rest, EndsValue rest → Closes (.object :: outer) rest out →
      Skips (.object :: outer) (print m.2 ++ rest) out)
    (hrest : Closes outer rest out) : Closes (.object :: outer) (printMembers ms ++ rest) out := by
  induction ms with
  | nil =>
    intro fuel hfuel
    exact gives_skipRest_close (.inr ⟨rfl, rfl⟩) (hrest fuel (Nat.lt_of_succ_lt hfuel))
  | cons m ms ih =>
    intro fuel hfuel
    rw [printMembers_cons] at hfuel ⊢
    have hclosed := ih fun m' hm' => hms m' (List.mem_cons_of_mem m hm')
    refine gives_skipRest_member
      (hms m List.mem_cons_self _ (endsValue_printMembers ms rest) hclosed fuel ?_)
    simp only [List.length_cons, List.length_append] at hfuel ⊢
    omega

/-- A printed value is stepped over, whatever is open around it. -/
theorem skips_print (h : Readable d v) (hrest : EndsValue rest) (hclosed : Closes outer rest out) :
    Skips outer (print v ++ rest) out := by
  induction h generalizing outer rest with
  | null => exact skips_scalar (gives_skipStart_word 0x6E _ (by simp) rest) hclosed
  | bool b =>
    cases b with
    | true => exact skips_scalar (gives_skipStart_word 0x74 _ (by simp) rest) hclosed
    | false => exact skips_scalar (gives_skipStart_word 0x66 _ (by simp) rest) hclosed
  | number h =>
    obtain ⟨b, tl, hprint, -⟩ := exists_head_printNumber h
    have hskip := gives_skipStart_number h hrest
    rw [print]
    rw [hprint] at hskip ⊢
    exact skips_scalar hskip hclosed
  | string s => exact skips_scalar (gives_skipStart_string s rest) hclosed
  | @list d vs h ih =>
    intro fuel hfuel
    rw [print_list] at hfuel ⊢
    obtain ⟨fuel, rfl⟩ : ∃ n, fuel = n + 1 := ⟨fuel - 1, by simp at hfuel; omega⟩
    replace hfuel := Nat.lt_of_succ_lt_succ hfuel
    refine gives_skipOpen_open (gives_skipStart_list _) ?_
    cases vs with
    | nil => exact gives_skipRest_close (.inl ⟨rfl, rfl⟩) (hclosed fuel (Nat.lt_of_succ_lt hfuel))
    | cons v vs =>
      rw [List.append_eq, listTail, List.append_assoc] at hfuel ⊢
      have hitems := closes_printItems (fun w hw _ => ih w (List.mem_cons_of_mem v hw)) hclosed
      exact gives_skipRest_first (h v List.mem_cons_self)
        (ih v List.mem_cons_self (endsValue_printItems vs rest) hitems fuel hfuel)
  | @object d ms h ih =>
    intro fuel hfuel
    rw [print_object] at hfuel ⊢
    obtain ⟨fuel, rfl⟩ : ∃ n, fuel = n + 1 := ⟨fuel - 1, by simp at hfuel; omega⟩
    replace hfuel := Nat.lt_of_succ_lt_succ hfuel
    refine gives_skipOpen_open (gives_skipStart_object _) ?_
    cases ms with
    | nil => exact gives_skipRest_close (.inr ⟨rfl, rfl⟩) (hclosed fuel (Nat.lt_of_succ_lt hfuel))
    | cons m ms =>
      rw [List.append_eq, objectTail_cons] at hfuel ⊢
      have hmembers := closes_printMembers (fun m' hm' _ => ih m' (List.mem_cons_of_mem m hm'))
        hclosed
      refine gives_skipRest_firstMember
        (ih m List.mem_cons_self (endsValue_printMembers ms rest) hmembers fuel ?_)
      simp only [List.length_cons, List.length_append] at hfuel ⊢
      omega

/-- A printed value is stepped over. -/
theorem gives_skipValue (h : Readable d v) (hrest : EndsValue rest) :
    skipValue.Gives (print v ++ rest) (some ((), rest)) :=
  (gives_remaining _).bind (skips_print h hrest (closes_nil rest) _ (Nat.lt_succ_self _))

end KubeClient.Json.Reader
