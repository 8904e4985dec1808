import KubeClient.Auth.Refresh

/-!
# The steps of callers who ask for a credential

* `Stage.Leads` : the stages that a caller may come to;
* `Refresh.Steps` : what one event does;
* `Refresh.Orderly`, `Refresh.orderly_run` : what holds after every series of events: who is not
  done stands in line, and nobody but the first in line asks the source.
-/

namespace KubeClient

namespace Stage

/-- The caller has got an outcome or has gone. -/
def isOver : Stage → Prop
  | .waiting _ => False
  | .running => False
  | .done _ => True
  | .dropped => True

/-- What a stage may lead to. -/
inductive Leads : Stage → Stage → Prop
  | refl (stage : Stage) : Leads stage stage
  | waiting {seen : Nat} {stage : Stage} : (∀ n, stage ≠ .waiting n) → Leads (.waiting seen) stage
  | running {stage : Stage} : stage.isOver → Leads .running stage

theorem Leads.trans {a b c : Stage} (hab : Leads a b) (hbc : Leads b c) : Leads a c := by
  cases hab with
  | refl => exact hbc
  | waiting hb =>
    cases hbc with
    | refl => exact .waiting hb
    | waiting => exact absurd rfl (hb _)
    | running hc =>
      refine .waiting ?_
      rintro n rfl
      exact hc
  | running hb =>
    cases hbc with
    | refl => exact .running hb
    | waiting => exact absurd hb id
    | running => exact absurd hb id

/-- A caller that waits has waited all the time. -/
theorem Leads.of_waiting {a : Stage} {seen : Nat} (h : Leads a (.waiting seen)) :
    a = .waiting seen := by
  cases h with
  | refl => rfl
  | waiting h => exact absurd rfl (h _)
  | running h => exact absurd h id

/-- A caller that asks the source asks it without a pause. -/
theorem Leads.of_running {a : Stage} (h₁ : Leads .running a) (h₂ : Leads a .running) :
    a = .running := by
  cases h₁ with
  | refl => rfl
  | running hover =>
    cases h₂ with
    | refl => rfl
    | waiting => exact absurd hover id
    | running => rfl

theorem Leads.of_over {a b : Stage} (h : Leads a b) (ha : a.isOver) : b = a := by
  cases h with
  | refl => rfl
  | waiting => exact absurd ha id
  | running => exact absurd ha id

end Stage

namespace Refresh

variable {policy : Policy} {s t : Refresh} {e : Event}

/-! ### One event -/

/-- What an event does. -/
inductive Steps (policy : Policy) (s : Refresh) : Event → Refresh → Prop
  | served {now : Clock} {issued : Issued} : s.vault.fresh? policy now = some issued →
      Steps policy s (.arrive now false)
        { s with callers := s.callers ++ [⟨false, .done (.ok issued)⟩] }
  | queued {now : Clock} {force : Bool} :
      (force = false → s.vault.fresh? policy now = none) →
      Steps policy s (.arrive now force)
        { s with
          callers := s.callers ++ [⟨force, .waiting s.vault.runs⟩]
          line := s.line ++ [s.callers.length] }
  | shared {now : Clock} {i seen : Nat} {rest : List Nat} {force : Bool} {issued : Issued} :
      s.line = i :: rest → s.callers[i]? = some ⟨force, .waiting seen⟩ →
      (force = true → s.vault.runs ≠ seen) → s.vault.fresh? policy now = some issued →
      Steps policy s (.enter now) { s.move i (.done (.ok issued)) with line := rest }
  | passed {now : Clock} {i seen : Nat} {rest : List Nat} {force : Bool} :
      s.line = i :: rest → s.callers[i]? = some ⟨force, .waiting seen⟩ →
      (force = true ∧ s.vault.runs = seen ∨ s.vault.fresh? policy now = none) →
      Steps policy s (.enter now) (s.move i .running)
  | brought {now : Clock} {i : Nat} {rest : List Nat} {force : Bool} {c : Credential} :
      s.line = i :: rest → s.callers[i]? = some ⟨force, .running⟩ →
      Steps policy s (.settle now (.ok c))
        { s.move i (.done (.ok (s.vault.issue c now))) with
          vault := s.vault.store c now
          line := rest }
  | failed {now : Clock} {i : Nat} {rest : List Nat} {force : Bool} {error : AuthError} :
      s.line = i :: rest → s.callers[i]? = some ⟨force, .running⟩ →
      Steps policy s (.settle now (.error error))
        { s.move i (.done (.error error)) with line := rest }
  | left {i : Nat} {force : Bool} {stage : Stage} :
      s.callers[i]? = some ⟨force, stage⟩ → ¬ stage.isOver →
      Steps policy s (.leave i) { s.move i .dropped with line := s.line.filter (· ≠ i) }
  | idle {e : Event} : Steps policy s e s

theorem steps_arrive (policy : Policy) (s : Refresh) (now : Clock) (force : Bool) :
    Steps policy s (.arrive now force) (s.arrive policy now force) := by
  rw [arrive]
  cases force with
  | true => exact .queued fun h => by cases h
  | false =>
    cases hfresh : s.vault.fresh? policy now with
    | none => exact .queued fun _ => hfresh
    | some issued => exact .served hfresh

theorem steps_enter (policy : Policy) (s : Refresh) (now : Clock) :
    Steps policy s (.enter now) (s.enter policy now) := by
  rw [enter]
  split
  · exact .idle
  · rename_i i rest hline
    split
    · rename_i force seen hi
      split
      · rename_i issued hissued
        split at hissued
        · rename_i hshare
          refine .shared hline hi (fun hforce => ?_) hissued
          simpa [hforce] using hshare
        · cases hissued
      · rename_i hnone
        refine .passed hline hi ?_
        split at hnone
        · exact .inr hnone
        · rename_i hshare
          refine .inl ?_
          simpa using hshare
    · exact .idle

theorem steps_settle (policy : Policy) (s : Refresh) (now : Clock)
    (outcome : Except AuthError Credential) :
    Steps policy s (.settle now outcome) (s.settle now outcome) := by
  rw [settle]
  split
  · exact .idle
  · rename_i i rest hline
    split
    · rename_i force hi
      cases outcome with
      | ok c => exact .brought hline hi
      | error e => exact .failed hline hi
    · exact .idle

theorem steps_leave (policy : Policy) (s : Refresh) (i : Nat) :
    Steps policy s (.leave i) (s.leave i) := by
  rw [leave]
  split
  · rename_i hi
    exact .left hi id
  · rename_i hi
    exact .left hi id
  · exact .idle

theorem steps_step (policy : Policy) (s : Refresh) (e : Event) :
    Steps policy s e (step policy s e) := by
  cases e with
  | arrive now force => exact steps_arrive policy s now force
  | enter now => exact steps_enter policy s now
  | settle now outcome => exact steps_settle policy s now outcome
  | leave i => exact steps_leave policy s i

/-! ### One caller -/

theorem getElem?_move (s : Refresh) (i j : Nat) (stage : Stage) :
    (s.move i stage).callers[j]? =
      s.callers[j]?.map fun c => if i = j then { c with stage } else c := by
  rw [move, List.getElem?_modify]
  split <;> rfl

theorem getElem?_move_self {i : Nat} {c : Caller} (hi : s.callers[i]? = some c) (stage : Stage) :
    (s.move i stage).callers[i]? = some { c with stage } := by
  rw [getElem?_move, hi, Option.map_some, if_pos rfl]

theorem getElem?_move_of_ne {i j : Nat} (hne : i ≠ j) (stage : Stage) :
    (s.move i stage).callers[j]? = s.callers[j]? := by
  rw [getElem?_move]
  simp only [if_neg hne, Option.map_id']

theorem leads_move {i j : Nat} {c d : Caller} {stage : Stage} (hi : s.callers[i]? = some c)
    (hj : s.callers[j]? = some d) (hlead : c.stage.Leads stage) :
    ∃ d', (s.move i stage).callers[j]? = some d' ∧ d'.force = d.force ∧ d.stage.Leads d'.stage := by
  by_cases hij : i = j
  · subst hij
    obtain rfl : c = d := Option.some.inj (hi.symm.trans hj)
    exact ⟨_, getElem?_move_self hi stage, rfl, hlead⟩
  · exact ⟨d, (getElem?_move_of_ne hij stage).trans hj, rfl, .refl _⟩

theorem not_isOver_leads {stage stage' : Stage} (h : ¬ stage.isOver) (h' : stage'.isOver) :
    stage.Leads stage' := by
  cases stage with
  | waiting seen =>
    refine .waiting ?_
    rintro n rfl
    exact h'
  | running => exact .running h'
  | done outcome => exact absurd trivial h
  | dropped => exact absurd trivial h

/-- A caller stays the same caller, and its stages follow each other. -/
theorem Steps.leads (h : Steps policy s e t) {j : Nat} {d : Caller}
    (hj : s.callers[j]? = some d) :
    ∃ d', t.callers[j]? = some d' ∧ d'.force = d.force ∧ d.stage.Leads d'.stage := by
  have happend (c : Caller) : (s.callers ++ [c])[j]? = some d :=
    (List.getElem?_append_left (List.getElem?_eq_some_iff.mp hj).1).trans hj
  cases h with
  | served => exact ⟨d, happend _, rfl, .refl _⟩
  | queued => exact ⟨d, happend _, rfl, .refl _⟩
  | shared _ hi => exact leads_move hi hj (not_isOver_leads id trivial)
  | passed _ hi =>
    refine leads_move hi hj (.waiting ?_)
    intro n h
    cases h
  | brought _ hi => exact leads_move hi hj (not_isOver_leads id trivial)
  | failed _ hi => exact leads_move hi hj (not_isOver_leads id trivial)
  | left hi hover => exact leads_move hi hj (not_isOver_leads hover trivial)
  | idle => exact ⟨d, hj, rfl, .refl _⟩

theorem leads_run (policy : Policy) {j : Nat} {d : Caller} (hj : s.callers[j]? = some d)
    (events : List Event) :
    ∃ d', (run policy s events).callers[j]? = some d' ∧ d'.force = d.force ∧
      d.stage.Leads d'.stage := by
  induction events generalizing s d with
  | nil => exact ⟨d, hj, rfl, .refl _⟩
  | cons e events ih =>
    obtain ⟨d₁, hj₁, hforce₁, hlead₁⟩ := (steps_step policy s e).leads hj
    obtain ⟨d₂, hj₂, hforce₂, hlead₂⟩ := ih hj₁
    exact ⟨d₂, hj₂, hforce₂.trans hforce₁, hlead₁.trans hlead₂⟩

/-! ### Order -/

/-- A caller is neither done nor gone. -/
def Active (s : Refresh) (i : Nat) : Prop :=
  ∃ c, s.callers[i]? = some c ∧ ¬ c.stage.isOver

theorem eq_or_of_move {i j : Nat} {stage : Stage} {c : Caller}
    (hj : (s.move i stage).callers[j]? = some c) :
    (i = j ∧ c.stage = stage) ∨ (i ≠ j ∧ s.callers[j]? = some c) := by
  by_cases hij : i = j
  · refine .inl ⟨hij, ?_⟩
    rw [getElem?_move] at hj
    obtain ⟨d, -, rfl⟩ := Option.map_eq_some_iff.mp hj
    rw [if_pos hij]
  · exact .inr ⟨hij, (getElem?_move_of_ne hij stage).symm.trans hj⟩

theorem active_move_of_ne {i j : Nat} (hne : i ≠ j) (stage : Stage) :
    (s.move i stage).Active j ↔ s.Active j := by
  simp only [Active, getElem?_move_of_ne hne]

theorem not_active_move {i : Nat} {stage : Stage} (hover : stage.isOver) :
    ¬ (s.move i stage).Active i := by
  rintro ⟨c, hc, hactive⟩
  rcases eq_or_of_move hc with ⟨-, rfl⟩ | ⟨hne, -⟩
  · exact hactive hover
  · exact hne rfl

theorem active_running {i : Nat} (h : s.Active i) : (s.move i .running).Active i := by
  obtain ⟨c, hc, -⟩ := h
  exact ⟨_, getElem?_move_self hc .running, id⟩

/-- What holds after every series of events. -/
structure Orderly (s : Refresh) : Prop where
  latest : ∀ x, s.vault.latest = some x → x.number = s.vault.runs
  nodup : s.line.Nodup
  /-- Those in line are those that are not done. -/
  mem_line : ∀ i : Nat, i ∈ s.line ↔ s.Active i
  /-- Nobody but the first in line asks the source. -/
  first : ∀ (i : Nat) (force : Bool), s.callers[i]? = some ⟨force, .running⟩ →
    s.line.head? = some i
  seen : ∀ (i : Nat) (force : Bool) (n : Nat), s.callers[i]? = some ⟨force, .waiting n⟩ →
    n ≤ s.vault.runs

theorem orderly_start : Orderly (start .empty) where
  latest := by
    intro x h
    cases h
  nodup := .nil
  mem_line := by simp [start, Active]
  first := by
    intro i force h
    simp [start] at h
  seen := by
    intro i force n h
    simp [start] at h

theorem getElem?_callers_append (s : Refresh) (c : Caller) (j : Nat) :
    (s.callers ++ [c])[j]? = if j = s.callers.length then some c else s.callers[j]? := by
  by_cases hj : j = s.callers.length
  · rw [if_pos hj, hj, List.getElem?_concat_length]
  · rw [if_neg hj]
    rcases Nat.lt_or_ge j s.callers.length with hlt | hge
    · exact List.getElem?_append_left hlt
    · rw [List.getElem?_eq_none hge]
      exact List.getElem?_eq_none (by simp; omega)

theorem Orderly.lt (h : s.Orderly) {i : Nat} (hi : i ∈ s.line) : i < s.callers.length := by
  obtain ⟨c, hc, -⟩ := (h.mem_line i).mp hi
  exact (List.getElem?_eq_some_iff.mp hc).1

theorem Orderly.served (h : s.Orderly) (force : Bool) (outcome : Except AuthError Issued) :
    Orderly { s with callers := s.callers ++ [⟨force, .done outcome⟩] } where
  latest := h.latest
  nodup := h.nodup
  mem_line := by
    intro j
    rw [h.mem_line j]
    simp only [Active, getElem?_callers_append]
    split
    · rename_i hj
      simp [hj, Stage.isOver]
    · rfl
  first := by
    intro j forced hj
    rw [getElem?_callers_append] at hj
    split at hj
    · cases hj
    · exact h.first j forced hj
  seen := by
    intro j forced n hj
    rw [getElem?_callers_append] at hj
    split at hj
    · cases hj
    · exact h.seen j forced n hj

theorem Orderly.queued (h : s.Orderly) (force : Bool) :
    Orderly { s with
      callers := s.callers ++ [⟨force, .waiting s.vault.runs⟩]
      line := s.line ++ [s.callers.length] } where
  latest := h.latest
  nodup := by
    refine List.nodup_append.mpr ⟨h.nodup, by simp, ?_⟩
    intro a ha b hb
    have hlt := h.lt ha
    have hb : b = s.callers.length := List.mem_singleton.mp hb
    omega
  mem_line := by
    intro j
    rw [List.mem_append, h.mem_line j, List.mem_singleton]
    simp only [Active, getElem?_callers_append]
    by_cases hj : j = s.callers.length
    · simp [hj, Stage.isOver]
    · simp [hj]
  first := by
    intro j forced hj
    rw [getElem?_callers_append] at hj
    split at hj
    · cases hj
    · rw [List.head?_append, h.first j forced hj]
      rfl
  seen := by
    intro j forced n hj
    rw [getElem?_callers_append] at hj
    split at hj
    · cases hj
      exact Nat.le_refl _
    · exact h.seen j forced n hj

/-- The first in line is done. -/
theorem Orderly.pop (h : s.Orderly) {i : Nat} {rest : List Nat} (hline : s.line = i :: rest)
    (stage : Stage) (hover : stage.isOver) {vault : Vault}
    (hlatest : ∀ x, vault.latest = some x → x.number = vault.runs)
    (hruns : s.vault.runs ≤ vault.runs) :
    Orderly { s.move i stage with vault, line := rest } where
  latest := hlatest
  nodup := by
    have hnodup := h.nodup
    rw [hline] at hnodup
    exact (List.nodup_cons.mp hnodup).2
  mem_line := by
    intro j
    -- the line has no caller twice, so the first one is not among the rest
    have hmem := h.mem_line j
    have hnodup := h.nodup
    rw [hline] at hmem hnodup
    by_cases hij : i = j
    · subst hij
      exact iff_of_false (List.nodup_cons.mp hnodup).1 (not_active_move hover)
    · have hrest : j ∈ rest ↔ s.Active j := by
        rw [← hmem, List.mem_cons]
        exact ⟨.inr, fun hj => hj.resolve_left (Ne.symm hij)⟩
      exact hrest.trans (active_move_of_ne hij stage).symm
  first := by
    intro j forced hj
    rcases eq_or_of_move hj with ⟨-, hstage⟩ | ⟨hne, hj⟩
    · exact absurd hover (hstage ▸ id)
    · have hfirst := h.first j forced hj
      rw [hline] at hfirst
      exact absurd (Option.some.inj hfirst) hne
  seen := by
    intro j forced n hj
    rcases eq_or_of_move hj with ⟨-, hstage⟩ | ⟨-, hj⟩
    · exact absurd hover (hstage ▸ id)
    · exact Nat.le_trans (h.seen j forced n hj) hruns

theorem Orderly.passed (h : s.Orderly) {i : Nat} {rest : List Nat} (hline : s.line = i :: rest) :
    (s.move i .running).Orderly where
  latest := h.latest
  nodup := h.nodup
  mem_line := by
    intro j
    refine (h.mem_line j).trans ?_
    by_cases hij : i = j
    · subst hij
      have hactive : s.Active i := (h.mem_line i).mp (hline ▸ List.mem_cons_self)
      exact iff_of_true hactive (active_running hactive)
    · exact (active_move_of_ne hij .running).symm
  first := by
    intro j forced hj
    rcases eq_or_of_move hj with ⟨hij, -⟩ | ⟨-, hj⟩
    · exact hij ▸ congrArg List.head? hline
    · exact h.first j forced hj
  seen := by
    intro j forced n hj
    rcases eq_or_of_move hj with ⟨-, hstage⟩ | ⟨-, hj⟩
    · cases hstage
    · exact h.seen j forced n hj

theorem Orderly.left (h : s.Orderly) (i : Nat) :
    Orderly { s.move i .dropped with line := s.line.filter (· ≠ i) } where
  latest := h.latest
  nodup := h.nodup.filter _
  mem_line := by
    intro j
    rw [List.mem_filter, h.mem_line j, decide_eq_true_iff]
    by_cases hij : i = j
    · subst hij
      exact iff_of_false (fun hj => hj.2 rfl) (not_active_move trivial)
    · exact (and_iff_left (Ne.symm hij)).trans (active_move_of_ne hij .dropped).symm
  first := by
    intro j forced hj
    rcases eq_or_of_move hj with ⟨-, hstage⟩ | ⟨hne, hj⟩
    · cases hstage
    · have hfirst := h.first j forced hj
      obtain ⟨rest, hline⟩ := List.head?_eq_some_iff.mp hfirst
      show (s.line.filter (· ≠ i)).head? = some j
      rw [hline]
      simp [Ne.symm hne]
  seen := by
    intro j forced n hj
    rcases eq_or_of_move hj with ⟨-, hstage⟩ | ⟨-, hj⟩
    · cases hstage
    · exact h.seen j forced n hj

theorem Orderly.step (h : s.Orderly) (hstep : Steps policy s e t) : t.Orderly := by
  cases hstep with
  | served hfresh => exact h.served _ _
  | queued hfresh => exact h.queued _
  | @shared _ _ _ _ _ issued hline =>
    exact h.pop hline (.done (.ok issued)) trivial h.latest (Nat.le_refl _)
  | passed hline => exact h.passed hline
  | @brought now _ _ _ c hline =>
    refine h.pop hline (.done (.ok (s.vault.issue c now))) trivial ?_ (Nat.le_succ _)
    rintro x ⟨⟩
    rfl
  | @failed _ _ _ _ error hline =>
    exact h.pop hline (.done (.error error)) trivial h.latest (Nat.le_refl _)
  | left => exact h.left _
  | idle => exact h

theorem orderly_run (h : s.Orderly) (events : List Event) : (run policy s events).Orderly := by
  induction events generalizing s with
  | nil => exact h
  | cons e events ih => exact ih (h.step (steps_step policy s e))

end Refresh
end KubeClient
