/-!
# Computations that can fail

* `exists_of_bind_ok`, `exists_of_map_ok` : what came before a success.
-/

namespace KubeClient

variable {ε α β : Type} {x : Except ε α} {b : β}

/-- A step that was taken, and what followed it. -/
theorem exists_of_bind_ok {f : α → Except ε β} (h : x >>= f = .ok b) :
    ∃ a, x = .ok a ∧ f a = .ok b := by
  cases x with
  | error _ => cases h
  | ok a => exact ⟨a, rfl, h⟩

/-- A result, and what was made of it. -/
theorem exists_of_map_ok {f : α → β} (h : x.map f = .ok b) : ∃ a, x = .ok a ∧ f a = b := by
  cases x with
  | error _ => cases h
  | ok a => exact ⟨a, rfl, Except.ok.inj h⟩

end KubeClient
