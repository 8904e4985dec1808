import KubeClient.Proofs.JsonSkipping

/-!
# Shapes of printed values

A shape is read from text in one pass, and from a tree by recursion on the tree.

* `Json.Reader.Agrees` : on printed values, a reader of text gives what a reader of trees gives;
* `Json.Reader.Agrees.list` and the like : this is so for scalars, lists and maps.
-/

namespace KubeClient

open Json

namespace Json.Reader

variable {α β : Type} {d : Nat} {v : Value} {rest : Bytes}

/-- On printed values that are readable, a reader of text gives what a reader of trees gives. -/
def Agrees (r : Nat → Reader Value) (t : Content.Reader) : Prop :=
  ∀ d v rest, Readable d v → EndsValue rest →
    (r d).Gives (print v ++ rest) ((t (Content.ofValue v)).toOption.map (·, rest))

/-! ### Scalars -/

/-- A value of a kind that is not asked for. -/
theorem gives_refused {p : UInt8 → Prop} [DecidablePred p] {k : UInt8 → Reader α}
    (expected : String) (h : Readable d v) (hrest : EndsValue rest)
    (hp : ∀ b, opens v b = true → ¬ p b) :
    (locate do
      match ← peekToken with
      | none => failNext .endInValue
      | some b => if p b then k b else mismatch expected).Gives (print v ++ rest) none := by
  obtain ⟨b, hb, htoken⟩ := gives_peekToken_print h rest
  refine Gives.locate (htoken.bind ?_)
  dsimp only
  rw [if_neg (hp b hb)]
  exact gives_mismatch expected h hrest

theorem agrees_any : Agrees (fun d => Content.toValue <$> content d) fun c => .ok c.toValue := by
  intro d v rest h hrest
  exact (gives_content h hrest).map Content.toValue

theorem agrees_checkedString (expected : String) (check : String → Except String Unit) :
    Agrees (fun _ => checkedString expected check) (Content.readText expected check) := by
  intro d v rest h hrest
  cases v with
  | string s =>
    refine Gives.locate ((gives_token (b := 0x22) rfl _).bind ((gives_name s rest).bind ?_))
    rw [Content.ofValue, Content.readText]
    cases check s with
    | ok _ => exact gives_pure _ rest
    | error reason => exact gives_failShape _ rest
  | _ => exact gives_refused expected h hrest fun b hb => ne_of_opens hb rfl

theorem agrees_boundedInt (expected : String) (low high : Int) :
    Agrees (fun _ => boundedInt expected low high) (Content.readInt expected low high) := by
  intro d v rest h hrest
  cases v with
  | number n =>
    obtain ⟨b, hb, htoken⟩ := gives_peekToken_print h rest
    have hstart : b = 0x2D ∨ isDigit b = true := (startsNumber_of_opens hb).mpr ⟨_, rfl⟩
    have hn : Legible n := by
      cases h with
      | number hn => exact hn
    refine Gives.locate (htoken.bind ?_)
    dsimp only
    rw [if_pos hstart]
    exact (gives_number hn hrest).bind (gives_ofExcept _ rest)
  | _ => exact gives_refused expected h hrest fun b hb hstart =>
      nomatch (startsNumber_of_opens hb).mp hstart

theorem agrees_bool (surplus : Content.Surplus) :
    Agrees Shape.bool.ofText (Shape.bool.read surplus) := by
  intro d v rest h hrest
  rw [Shape.ofText, Shape.read]
  cases v with
  | bool b =>
    cases b with
    | true =>
      refine Gives.locate ((gives_token (b := 0x74) rfl _).bind ?_)
      exact gives_word 0x74 [0x72, 0x75, 0x65] rest _
    | false =>
      refine Gives.locate ((gives_token (b := 0x66) rfl _).bind ?_)
      exact gives_word 0x66 [0x61, 0x6C, 0x73, 0x65] rest _
  | _ =>
    obtain ⟨b, hb, htoken⟩ := gives_peekToken_print h rest
    refine Gives.locate (htoken.bind ?_)
    dsimp only
    rw [if_neg (ne_of_opens hb rfl), if_neg (ne_of_opens hb rfl)]
    exact gives_mismatch _ h hrest

theorem agrees_unit (surplus : Content.Surplus) :
    Agrees Shape.unit.ofText (Shape.unit.read surplus) := by
  intro d v rest h hrest
  rw [Shape.ofText, Shape.read]
  cases v with
  | null =>
    refine Gives.locate ((gives_token (b := 0x6E) rfl _).bind ?_)
    exact gives_word 0x6E [0x75, 0x6C, 0x6C] rest _
  | _ => exact gives_refused _ h hrest fun b hb => ne_of_opens hb rfl

/-- A bracket where a scalar could stand. -/
theorem gives_containerMismatch (expected : String) {b : UInt8} (hb : b = 0x5B ∨ b = 0x7B)
    (bs : Bytes) : (containerMismatch (α := α) (d + 2) expected b).Gives (b :: bs) none := by
  rcases hb with rfl | rfl
  · exact gives_nested_none (d := d) (r := fun _ => failShape _) (gives_failShape _ _)
  · exact gives_nested_none (d := d) (r := fun _ => failShape _) (gives_failShape _ _)

theorem agrees_intOrString : Agrees intOrString Content.readIntOrString := by
  intro d v rest h hrest
  cases v with
  | list vs =>
    rw [print_list]
    refine Gives.locate ((gives_scalar_open (.inl rfl) _).bind ?_)
    cases h with
    | list _ => exact gives_containerMismatch _ (.inl rfl) _
  | object ms =>
    rw [print_object]
    refine Gives.locate ((gives_scalar_open (.inr rfl) _).bind ?_)
    cases h with
    | object _ => exact gives_containerMismatch _ (.inr rfl) _
  | _ =>
    refine Gives.locate ((gives_scalar h nofun nofun hrest).bind ?_)
    exact gives_ofExcept _ rest

/-- Null, or what another reader gives. -/
theorem Agrees.optional {s : Shape} {surplus : Content.Surplus}
    (hs : Agrees s.ofText (s.read surplus)) :
    Agrees (Shape.option s).ofText ((Shape.option s).read surplus) := by
  intro d v rest h hrest
  rw [Shape.ofText, Shape.read]
  cases v with
  | null =>
    refine (gives_token (b := 0x6E) rfl _).bind ?_
    exact gives_word 0x6E [0x75, 0x6C, 0x6C] rest _
  | _ =>
    obtain ⟨b, hb, htoken⟩ := gives_peekToken_print h rest
    refine htoken.bind ?_
    rw [if_neg fun hsome => ne_of_opens hb rfl (Option.some.inj hsome)]
    exact hs d _ rest h hrest

/-! ### Lists and maps -/

theorem toOption_map {ε : Type} (f : α → β) (x : Except ε α) :
    (f <$> x).toOption = x.toOption.map f := by
  cases x <;> rfl

theorem toOption_bind {ε : Type} (x : Except ε α) (f : α → Except ε β) :
    (x >>= f).toOption = x.toOption.bind fun a => (f a).toOption := by
  cases x <;> rfl

theorem toOption_readItems (read : Content.Reader) (vs : List Value) :
    (Content.readItems read (Content.ofValues vs)).toOption =
      vs.mapM fun v => (read (Content.ofValue v)).toOption := by
  induction vs with
  | nil => rfl
  | cons v vs ih =>
    rw [Content.ofValues, Content.readItems, toOption_bind, List.mapM_cons]
    congr 1
    funext w
    rw [toOption_bind, ih]
    rfl

/-- All items have one shape. -/
theorem Agrees.list {s : Shape} {surplus : Content.Surplus}
    (hs : Agrees s.ofText (s.read surplus)) :
    Agrees (Shape.list s).ofText ((Shape.list s).read surplus) := by
  intro d v rest h hrest
  rw [Shape.ofText, Shape.read]
  cases v with
  | list vs =>
    rw [print_list, Content.ofValue]
    cases h with
    | @list d _ h =>
      refine Gives.locate ((gives_token (b := 0x5B) rfl _).bind ?_)
      dsimp only
      rw [if_pos rfl, toOption_map, toOption_readItems, List.mapM_eq_reverse_foldlM_cons]
      refine gives_nested ?_ (gives_endList rest)
      have hitems := gives_items (fun ws => do return (← s.ofText (d + 1)) :: ws)
        (fun ws v => (· :: ws) <$> (s.read surplus (Content.ofValue v)).toOption) h
        (fun v hv ws rest hrest => (hs (d + 1) v rest (h v hv) hrest).andPure (· :: ws)) [] rest
      have hreversed := hitems.andPure fun ws => Value.list ws.reverse
      rw [Option.map_eq_map, Option.map_map Value.list]
      exact hreversed
  | _ => exact gives_refused _ h hrest fun b hb => ne_of_opens hb rfl

theorem toOption_readMap (read : Content.Reader) (ms : List (String × Value)) :
    (Content.readMap read (Content.ofMembers ms)).toOption =
      ms.mapM fun m => (read (Content.ofValue m.2)).toOption.map (m.1, ·) := by
  induction ms with
  | nil => rfl
  | cons m ms ih =>
    rw [Content.ofMembers, Content.readMap, toOption_bind, List.mapM_cons]
    cases (read (Content.ofValue m.2)).toOption with
    | none => rfl
    | some w =>
      rw [Option.bind_some, toOption_bind, ih]
      rfl

/-- What is read one by one can be folded at once or in the end. -/
theorem foldlM_map {γ δ : Type} (f : α → Option γ) (g : δ → γ → δ) (as : List α) (acc : δ) :
    as.foldlM (fun acc a => (f a).map (g acc)) acc =
      (as.mapM f).map fun cs => cs.foldl g acc := by
  induction as generalizing acc with
  | nil => rfl
  | cons a as ih =>
    rw [List.foldlM_cons, List.mapM_cons]
    cases f a with
    | none => rfl
    | some c =>
      show as.foldlM _ (g acc c) = _
      rw [ih]
      cases as.mapM f <;> rfl

/-- All members have one shape. -/
theorem Agrees.map {s : Shape} {surplus : Content.Surplus}
    (hs : Agrees s.ofText (s.read surplus)) :
    Agrees (Shape.map s).ofText ((Shape.map s).read surplus) := by
  intro d v rest h hrest
  rw [Shape.ofText, Shape.read]
  cases v with
  | object ms =>
    rw [print_object, Content.ofValue]
    cases h with
    | @object d _ h =>
      refine Gives.locate ((gives_token (b := 0x7B) rfl _).bind ?_)
      dsimp only
      rw [if_pos rfl, toOption_map, toOption_readMap]
      refine gives_nested ?_ (gives_endObject rest)
      have hmembers := gives_members
        (fun ws n => do
          colon
          return Members.insert n (← s.ofText (d + 1)) ws)
        (fun ws (m : String × Value) =>
          ((s.read surplus (Content.ofValue m.2)).toOption.map (m.1, ·)).map
            fun w => Members.insert w.1 w.2 ws) ms
        (fun m hm ws rest hrest => (gives_colon _).bind ?_) [] rest
      · rw [foldlM_map] at hmembers
        have hobject := hmembers.andPure Value.object
        rw [Option.map_map Value.object] at hobject
        exact hobject
      · rw [Option.map_map fun w : String × Value => Members.insert w.1 w.2 ws]
        exact (hs (d + 1) m.2 rest (h m hm) hrest).andPure fun w => Members.insert m.1 w ws
  | _ => exact gives_refused _ h hrest fun b hb => ne_of_opens hb rfl

end Json.Reader
end KubeClient
