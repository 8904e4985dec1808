import KubeClient.Client.Connect

/-!
# How calls go on

* `Call.await_ends`, `Call.await_fires` : what one question to the outside comes to;
* `Call.Avoids` : a failure that a call never ends with;
* `Call.IsIdle` : a call that asks for nothing once the caller has called off;
* `Call.await_of_quiet`, `Call.quiet_of_bind` : calls during which nobody called off, step by step.
-/

namespace KubeClient

namespace Call

variable {σ α β ε : Type}

theorem bind_ok {x : Call σ α} {p q : Progress σ} {a : α} (h : x p = (.ok a, q))
    (f : α → Call σ β) : (x >>= f) p = f a q := by
  simp only [bind, h]

theorem bind_error {x : Call σ α} {p q : Progress σ} {e : ClientError} (h : x p = (.error e, q))
    (f : α → Call σ β) : (x >>= f) p = (.error e, q) := by
  simp only [bind, h]

theorem bind_ofExcept (x : Call σ α) (g : α → Except ClientError β) (p : Progress σ) :
    (x >>= fun a => ofExcept (g a)) p = ((x p).1.bind g, (x p).2) := by
  cases hr : x p with
  | mk outcome q =>
    cases outcome with
    | error e => exact bind_error hr _
    | ok a => exact bind_ok hr _

theorem bind_pure (x : Call σ α) (g : α → β) (p : Progress σ) :
    (x >>= fun a => pure (g a)) p = ((x p).1.map g, (x p).2) := by
  cases hr : x p with
  | mk outcome q =>
    cases outcome with
    | error e => exact bind_error hr _
    | ok a => exact bind_ok hr _

theorem bind_pure_self (x : Call σ α) : x >>= pure = x := by
  funext p
  cases hr : x p with
  | mk outcome q =>
    cases outcome with
    | error e => exact bind_error hr _
    | ok a => exact bind_ok hr _

theorem bind_assoc {γ : Type} (x : Call σ α) (f : α → Call σ β) (g : β → Call σ γ) :
    x >>= f >>= g = x >>= fun a => f a >>= g := by
  funext p
  cases hr : x p with
  | mk outcome q =>
    cases outcome with
    | error e => rw [bind_error hr, bind_error (bind_error hr f)]
    | ok a =>
      rw [bind_ok hr]
      simp only [bind, hr]

/-! ### One question to the outside -/

theorem await_of_fired (step : Step) (ask : σ → Wait ε α × σ) (wrap : ε → ClientError)
    {p : Progress σ} (h : p.fired = true) : await step ask wrap p = (.error .cancelled, p) := by
  simp only [await, h, if_true]

theorem await_ends (step : Step) {ask : σ → Wait ε α × σ} (wrap : ε → ClientError)
    {p : Progress σ} {outcome : Except ε α} {fired : Bool} {world : σ} (h : p.fired = false)
    (hask : ask p.world = (.ends outcome fired, world)) :
    await step ask wrap p = (outcome.mapError wrap, ⟨world, fired, p.trace ++ [step]⟩) := by
  simp only [await, h, hask, Bool.false_eq_true, if_false]

theorem await_fires (step : Step) {ask : σ → Wait ε α × σ} (wrap : ε → ClientError)
    {p : Progress σ} {world : σ} (h : p.fired = false) (hask : ask p.world = (.fires, world)) :
    await step ask wrap p = (.error .cancelled, ⟨world, true, p.trace ++ [step]⟩) := by
  simp only [await, h, hask, Bool.false_eq_true, if_false]

/-! ### Failures that do not come up -/

/-- However far a call has come, it does not fail with `e`. -/
def Avoids (e : ClientError) (x : Call σ α) : Prop :=
  ∀ p, (x p).1 ≠ .error e

theorem avoids_await {e : ClientError} (step : Step) (ask : σ → Wait ε α × σ)
    {wrap : ε → ClientError} (hcancelled : e ≠ .cancelled) (hwrap : ∀ reason, wrap reason ≠ e) :
    Avoids e (await step ask wrap) := by
  intro p
  cases hp : p.fired with
  | true =>
    rw [await_of_fired step ask wrap hp]
    rintro ⟨⟩
    exact hcancelled rfl
  | false =>
    cases hask : ask p.world with
    | mk wait world =>
      cases wait with
      | fires =>
        rw [await_fires step wrap hp hask]
        rintro ⟨⟩
        exact hcancelled rfl
      | ends outcome fired =>
        rw [await_ends step wrap hp hask]
        cases outcome with
        | error reason =>
          rintro ⟨⟩
          exact hwrap reason rfl
        | ok a => nofun

theorem avoids_bind {e : ClientError} {x : Call σ α} {f : α → Call σ β} (hx : Avoids e x)
    (hf : ∀ a, Avoids e (f a)) : Avoids e (x >>= f) := by
  intro p
  cases hr : x p with
  | mk outcome q =>
    cases outcome with
    | error reason =>
      rw [bind_error hr]
      rintro ⟨⟩
      exact hx p (congrArg Prod.fst hr)
    | ok a => rw [bind_ok hr]; exact hf a q

/-! ### Calls that stop when the caller calls off -/

/-- Once the caller has called off, nothing is asked for any more. -/
def IsIdle (x : Call σ α) : Prop :=
  ∀ p, p.fired = true → (x p).2 = p

theorem isIdle_pure (a : α) : IsIdle (pure a : Call σ α) := fun _ _ => rfl

theorem isIdle_await (step : Step) (ask : σ → Wait ε α × σ) (wrap : ε → ClientError) :
    IsIdle (await step ask wrap) := by
  intro p hp
  rw [await_of_fired step ask wrap hp]

theorem isIdle_bind {x : Call σ α} {f : α → Call σ β} (hx : IsIdle x) (hf : ∀ a, IsIdle (f a)) :
    IsIdle (x >>= f) := by
  intro p hp
  have h := hx p hp
  cases hr : x p with
  | mk outcome q =>
    rw [hr] at h
    subst h
    cases outcome with
    | error e => rw [bind_error hr]
    | ok a => rw [bind_ok hr, hf a q hp]

/-- An answer is asked for at most once. -/
theorem await_trace (step : Step) (ask : σ → Wait ε α × σ) (wrap : ε → ClientError)
    (p : Progress σ) :
    ∃ n ≤ 1, (await step ask wrap p).2.trace = p.trace ++ List.replicate n step := by
  cases hp : p.fired with
  | true =>
    refine ⟨0, Nat.zero_le 1, ?_⟩
    rw [isIdle_await step ask wrap p hp, List.replicate_zero, List.append_nil]
  | false =>
    refine ⟨1, Nat.le_refl 1, ?_⟩
    simp only [await, hp, Bool.false_eq_true, if_false]
    cases (ask p.world).1 <;> rfl

theorem await_trace_of_unfired (step : Step) (ask : σ → Wait ε α × σ) (wrap : ε → ClientError)
    {p : Progress σ} (h : p.fired = false) :
    (await step ask wrap p).2.trace = p.trace ++ [step] := by
  simp only [await, h, Bool.false_eq_true, if_false]
  cases (ask p.world).1 <;> rfl

/-! ### Calls during which nobody called off -/

/-- A step during which nobody called off ends with an answer of the outside. -/
theorem await_of_quiet {step : Step} {ask : σ → Wait ε α × σ} {wrap : ε → ClientError}
    {p : Progress σ} (h : (await step ask wrap p).2.fired = false) :
    ∃ outcome world, ask p.world = (.ends outcome false, world) ∧
      await step ask wrap p = (outcome.mapError wrap, ⟨world, false, p.trace ++ [step]⟩) := by
  cases hp : p.fired with
  | true =>
    rw [isIdle_await step ask wrap p hp, hp] at h
    cases h
  | false =>
    simp only [await, hp, Bool.false_eq_true, if_false] at h ⊢
    cases hw : ask p.world with
    | mk wait world =>
      rw [hw] at h
      cases wait with
      | fires => cases h
      | ends outcome fired =>
        obtain rfl : fired = false := h
        exact ⟨outcome, world, rfl, rfl⟩

/-- If nobody called off during two calls in a row, then nobody did during the first one. -/
theorem quiet_of_bind {x : Call σ α} {f : α → Call σ β} (hf : ∀ a, IsIdle (f a))
    {p : Progress σ} (h : ((x >>= f) p).2.fired = false) : (x p).2.fired = false := by
  cases hr : x p with
  | mk outcome q =>
    cases outcome with
    | error e => rwa [bind_error hr] at h
    | ok a =>
      rw [bind_ok hr] at h
      cases hq : q.fired with
      | false => rfl
      | true => rw [hf a q hq, hq] at h; cases h

end Call
end KubeClient
