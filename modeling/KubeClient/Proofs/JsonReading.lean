import KubeClient.Document.Json.Reader

/-!
# What readers of JSON text get out of bytes

* `Json.Reader.Gives` : what a reader answers and leaves, wherever the bytes stand;
* `Json.Reader.Gives.bind` and the other rules : a reader is followed from one step to the next.
-/

namespace KubeClient.Json.Reader

variable {α β : Type} {r : Reader α} {bs bs' : Bytes}

/-- What a reader gets out of `bs`: its answer and the bytes that are left, none if it fails. Where
the bytes stand in a text makes no difference. -/
def Gives (r : Reader α) (bs : Bytes) (out : Option (α × Bytes)) : Prop :=
  ∀ offset, (match r ⟨offset, bs⟩ with
    | .ok a c => some (a, c.rest)
    | .error _ _ => none) = out

/-! ### Rules -/

theorem gives_pure (a : α) (bs : Bytes) : Gives (pure a) bs (some (a, bs)) :=
  fun _ => rfl

theorem gives_failHere (f : SyntaxFault) (bs : Bytes) : Gives (failHere (α := α) f) bs none :=
  fun _ => rfl

theorem gives_failNext (f : SyntaxFault) (bs : Bytes) : Gives (failNext (α := α) f) bs none :=
  fun _ => rfl

theorem gives_failShape (cause : Cause) (bs : Bytes) : Gives (failShape (α := α) cause) bs none :=
  fun _ => rfl

/-- One step, and the rest. -/
theorem Gives.bind {k : α → Reader β} {a : α} {out : Option (β × Bytes)}
    (h : r.Gives bs (some (a, bs'))) (hk : (k a).Gives bs' out) : (r >>= k).Gives bs out := by
  intro offset
  have hr := h offset
  show (match EStateM.bind r k ⟨offset, bs⟩ with
    | .ok a c => some (a, c.rest)
    | .error _ _ => none) = out
  unfold EStateM.bind
  cases hrun : r ⟨offset, bs⟩ with
  | ok a' c =>
    rw [hrun] at hr
    obtain ⟨rfl, rfl⟩ := Prod.mk.inj (Option.some.inj hr)
    exact hk c.offset
  | error e c =>
    rw [hrun] at hr
    cases hr

/-- Nothing follows a failure. -/
theorem Gives.bind_none {k : α → Reader β} (h : r.Gives bs none) : (r >>= k).Gives bs none := by
  intro offset
  have hr := h offset
  show (match EStateM.bind r k ⟨offset, bs⟩ with
    | .ok a c => some (a, c.rest)
    | .error _ _ => none) = none
  unfold EStateM.bind
  cases hrun : r ⟨offset, bs⟩ with
  | ok a' c =>
    rw [hrun] at hr
    cases hr
  | error e c => rfl

/-- One step that may fail, and the rest. -/
theorem Gives.andThen {k : α → Reader β} {x : Option α} {f : α → Option (β × Bytes)}
    (h : r.Gives bs (x.map (·, bs'))) (hk : ∀ a, x = some a → (k a).Gives bs' (f a)) :
    (r >>= k).Gives bs (x.bind f) := by
  cases x with
  | none => exact h.bind_none
  | some a => exact h.bind (hk a rfl)

/-- One step that may fail, and an answer. -/
theorem Gives.andPure {x : Option α} (h : r.Gives bs (x.map (·, bs'))) (f : α → β) :
    (r >>= fun a => pure (f a)).Gives bs ((x.map f).map (·, bs')) := by
  cases x with
  | none => exact h.bind_none
  | some a => exact h.bind (gives_pure _ _)

theorem Gives.map {out : Option (α × Bytes)} (f : α → β) (h : r.Gives bs out) :
    (f <$> r).Gives bs (out.map fun p => (f p.1, p.2)) := by
  have hmap : f <$> r = r >>= fun a => pure (f a) := rfl
  rw [hmap]
  cases out with
  | none => exact h.bind_none
  | some p => exact h.bind (gives_pure _ _)

theorem Gives.locate {out : Option (α × Bytes)} (h : r.Gives bs out) :
    (Reader.locate r).Gives bs out := by
  intro offset
  rw [← h offset, Reader.locate]
  cases r ⟨offset, bs⟩ <;> rfl

/-- What closes a reader comes after it. -/
theorem Gives.closing {close : Reader Unit} {a : α} (h : r.Gives bs (some (a, bs')))
    {rest : Bytes} (hclose : close.Gives bs' (some ((), rest))) :
    (Reader.closing r close).Gives bs (some (a, rest)) := by
  intro offset
  have hr := h offset
  rw [Reader.closing]
  cases hrun : r ⟨offset, bs⟩ with
  | ok a' c =>
    rw [hrun] at hr
    obtain ⟨rfl, rfl⟩ := Prod.mk.inj (Option.some.inj hr)
    have hc := hclose c.offset
    dsimp only
    cases hrun' : close c with
    | ok u c' =>
      rw [hrun'] at hc
      exact congrArg (Option.map fun p => (a', p.2)) hc
    | error e c' =>
      rw [hrun'] at hc
      cases hc
  | error e c =>
    rw [hrun] at hr
    cases hr

theorem Gives.closing_none {close : Reader Unit} (h : r.Gives bs none) :
    (Reader.closing r close).Gives bs none := by
  intro offset
  have hr := h offset
  rw [Reader.closing]
  cases hrun : r ⟨offset, bs⟩ with
  | ok a' c =>
    rw [hrun] at hr
    cases hr
  | error e c =>
    dsimp only
    cases close c <;> rfl

/-- What does not close fails. -/
theorem Gives.closing_fails {close : Reader Unit} {a : α} (h : r.Gives bs (some (a, bs')))
    (hclose : close.Gives bs' none) : (Reader.closing r close).Gives bs none := by
  intro offset
  have hr := h offset
  rw [Reader.closing]
  cases hrun : r ⟨offset, bs⟩ with
  | ok a' c =>
    rw [hrun] at hr
    obtain ⟨rfl, rfl⟩ := Prod.mk.inj (Option.some.inj hr)
    have hc := hclose c.offset
    dsimp only
    cases hrun' : close c with
    | ok u c' =>
      rw [hrun'] at hc
      cases hc
    | error e c' => rfl
  | error e c =>
    rw [hrun] at hr
    cases hr

/-! ### Single bytes -/

theorem gives_peek (bs : Bytes) : Gives peek bs (some (bs.head?, bs)) :=
  fun _ => rfl

theorem gives_advance (b : UInt8) (bs : Bytes) : Gives advance (b :: bs) (some ((), bs)) :=
  fun _ => rfl

theorem gives_next (b : UInt8) (bs : Bytes) : Gives next (b :: bs) (some (some b, bs)) :=
  fun _ => rfl

theorem gives_remaining (bs : Bytes) : Gives remaining bs (some (bs.length, bs)) :=
  fun _ => rfl

theorem gives_atDigit (bs : Bytes) : Gives atDigit bs (some (bs.head?.any isDigit, bs)) :=
  fun _ => rfl

theorem gives_skipWhile (p : UInt8 → Bool) (bs : Bytes) :
    Gives (skipWhile p) bs (some ((), bs.dropWhile p)) :=
  fun _ => rfl

/-- No blanks come next. -/
theorem gives_peekToken {bs : Bytes} (h : bs.head?.any isBlank = false) :
    Gives peekToken bs (some (bs.head?, bs)) := by
  have hskip : bs.dropWhile isBlank = bs := by
    cases bs with
    | nil => rfl
    | cons b bs => exact List.dropWhile_cons_of_neg (Bool.eq_false_iff.mp h)
  refine (gives_skipWhile isBlank bs).bind ?_
  rw [hskip]
  exact gives_peek bs

/-- A byte that is no blank comes next. -/
theorem gives_token {b : UInt8} (h : isBlank b = false) (bs : Bytes) :
    Gives peekToken (b :: bs) (some (some b, b :: bs)) :=
  gives_peekToken h

theorem gives_ident (word rest : Bytes) : Gives (ident word) (word ++ rest) (some ((), rest)) := by
  induction word with
  | nil => exact gives_pure () rest
  | cons b word ih =>
    refine (gives_next b _).bind ?_
    dsimp only
    rw [if_pos rfl]
    exact ih

theorem gives_word (b : UInt8) (word' rest : Bytes) (a : α) :
    Gives (word word' a) (b :: word' ++ rest) (some (a, rest)) :=
  (gives_advance b _).bind ((gives_ident word' rest).bind (gives_pure a rest))

/-- The outcome of a check. -/
theorem gives_ofExcept (x : Except Cause α) (bs : Bytes) :
    Gives (ofExcept x) bs (x.toOption.map (·, bs)) := by
  cases x with
  | ok a => exact gives_pure a bs
  | error cause => exact gives_failShape cause bs

end KubeClient.Json.Reader
