import KubeClient.Auth.TokenFile
import KubeClient.Proofs.RefreshSteps

/-!
# Refreshes that callers share

* `Refresh.Running`, `Refresh.Waiting` : who asks the source, and who is in line;
* `Refresh.Newer` : a forced call on its way to something that was not there when it came;
* `Refresh.Steps.keeps_running`, `Refresh.keeps_running_run` : nothing changes while the source is
  asked;
* `Refresh.Shares` : those in line up to a caller need not ask the source any more;
* `Refresh.Coordinated` : what callers may rely on.
-/

namespace KubeClient

theorem Vault.fresh?_eq_some {v : Vault} {policy : Policy} {now : Clock} {x : Issued}
    (h : v.fresh? policy now = some x) : v.latest = some x := by
  unfold fresh? at h
  exact (Option.filter_eq_some_iff.mp h).1

theorem Vault.fresh?_of_latest {v : Vault} {policy : Policy} {now : Clock} {x : Issued}
    (h : v.latest = some x) (hvalid : policy x now = true) : v.fresh? policy now = some x := by
  unfold fresh?
  exact Option.filter_eq_some_iff.mpr ⟨h, hvalid⟩

/-- What a forced call comes to that has seen `n` refreshes when it came. -/
def Stage.isNewer (n : Nat) : Stage → Prop
  | .waiting seen => seen = n
  | .done (.ok issued) => n < issued.number
  | _ => True

namespace Refresh

variable {policy : Policy} {s t : Refresh} {e : Event} {i j : Nat}

/-! ### One refresh at a time -/

/-- A caller asks the source. -/
def Running (s : Refresh) (i : Nat) : Prop :=
  ∃ force, s.callers[i]? = some ⟨force, .running⟩

/-- A caller is in line and has not come to the gate. -/
def Waiting (s : Refresh) (i : Nat) : Prop :=
  ∃ force seen, s.callers[i]? = some ⟨force, .waiting seen⟩

theorem Orderly.running_unique (h : s.Orderly) (hi : s.Running i) (hj : s.Running j) : i = j := by
  obtain ⟨_, hi⟩ := hi
  obtain ⟨_, hj⟩ := hj
  exact Option.some.inj ((h.first i _ hi).symm.trans (h.first j _ hj))

/-- A caller that asks the source before and after some events asks it all the time. -/
theorem running_between {events : List Event} (hs : s.Running j) (hstep : Steps policy s e t)
    (hend : (run policy t events).Running j) : t.Running j := by
  obtain ⟨force, hj⟩ := hs
  obtain ⟨d, hd, hforce, hlead⟩ := hstep.leads hj
  obtain ⟨d', hd', -, hlead'⟩ := leads_run policy hd events
  obtain ⟨force', hj'⟩ := hend
  obtain rfl : d' = ⟨force', .running⟩ := Option.some.inj (hd'.symm.trans hj')
  have hstage := hlead.of_running hlead'
  obtain ⟨forced, stage⟩ := d
  exact ⟨forced, hd.trans (by rw [show stage = Stage.running from hstage])⟩

/-! ### A forced call -/

/-- A forced call that has seen `n` refreshes when it came does not get one of these. -/
def Newer (n i : Nat) (s : Refresh) : Prop :=
  n ≤ s.vault.runs ∧ ∃ stage, s.callers[i]? = some ⟨true, stage⟩ ∧ stage.isNewer n

theorem Newer.step {n : Nat} (h : s.Newer n i) (horder : s.Orderly)
    (hstep : Steps policy s e t) : t.Newer n i := by
  obtain ⟨hruns, stage, hi, hnewer⟩ := h
  have hlt := (List.getElem?_eq_some_iff.mp hi).1
  have move {k : Nat} {c : Caller} {next : Stage} (hk : s.callers[k]? = some c)
      (hnext : i = k → next.isNewer n) :
      ∃ stage, (s.move k next).callers[i]? = some ⟨true, stage⟩ ∧ stage.isNewer n := by
    by_cases hki : k = i
    · subst hki
      exact ⟨next, getElem?_move_self hi next, hnext rfl⟩
    · exact ⟨stage, (getElem?_move_of_ne hki next).trans hi, hnewer⟩
  cases hstep with
  | served =>
    exact ⟨hruns, stage, (List.getElem?_append_left hlt).trans hi, hnewer⟩
  | queued =>
    exact ⟨hruns, stage, (List.getElem?_append_left hlt).trans hi, hnewer⟩
  | @shared _ k seen _ force issued hline hk hshare hfresh =>
    refine ⟨hruns, move hk ?_⟩
    rintro rfl
    obtain ⟨rfl, rfl⟩ : true = force ∧ stage = .waiting seen := by
      have := hi.symm.trans hk
      simpa using this
    -- the gate has let it share, so a refresh was finished since it came
    have hseen : seen = n := hnewer
    have hnumber := horder.latest issued (Vault.fresh?_eq_some hfresh)
    have hne := hshare rfl
    show n < issued.number
    omega
  | passed _ hk => exact ⟨hruns, move hk fun _ => trivial⟩
  | @brought now k _ force c _ hk =>
    exact ⟨Nat.le_succ_of_le hruns, move hk fun _ => Nat.lt_succ_of_le hruns⟩
  | failed _ hk => exact ⟨hruns, move hk fun _ => trivial⟩
  | left hk => exact ⟨hruns, move hk fun _ => trivial⟩
  | idle => exact ⟨hruns, stage, hi, hnewer⟩

theorem newer_run {n : Nat} (h : s.Newer n i) (horder : s.Orderly) (events : List Event) :
    (run policy s events).Newer n i := by
  induction events generalizing s with
  | nil => exact h
  | cons e events ih =>
    have hstep := steps_step policy s e
    exact ih (h.step horder hstep) (horder.step hstep)

/-- A caller that comes gets in line, unless it is served at once. -/
theorem getElem?_arrive (policy : Policy) (s : Refresh) (now : Clock) (force : Bool) :
    ∃ stage, (s.arrive policy now force).callers[s.callers.length]? = some ⟨force, stage⟩ ∧
      (stage = .waiting s.vault.runs ∨ force = false ∧ stage.isOver) := by
  rw [arrive]
  cases force with
  | true => exact ⟨_, List.getElem?_concat_length, .inl rfl⟩
  | false =>
    split
    · exact ⟨_, List.getElem?_concat_length, .inr ⟨rfl, trivial⟩⟩
    · exact ⟨_, List.getElem?_concat_length, .inl rfl⟩

theorem Newer.lt {n : Nat} (h : s.Newer n i) {issued : Issued}
    (hi : s.outcome? i = some (.ok issued)) : n < issued.number := by
  obtain ⟨-, stage, hc, hnewer⟩ := h
  rw [outcome?, hc] at hi
  cases stage with
  | done outcome =>
    obtain rfl : outcome = .ok issued := Option.some.inj hi
    exact hnewer
  | _ => cases hi

/-! ### While the source is asked -/

theorem Orderly.eq_of_running (h : s.Orderly) (hj : s.Running j) {k : Nat} {rest : List Nat}
    (hline : s.line = k :: rest) : k = j := by
  obtain ⟨force, hj⟩ := hj
  have hfirst := h.first j force hj
  rw [hline] at hfirst
  exact Option.some.inj hfirst

theorem not_running_move (stage : Stage) (hover : stage.isOver) :
    ¬ (s.move j stage).Running j := by
  rintro ⟨force, hj⟩
  rcases eq_or_of_move hj with ⟨-, rfl⟩ | ⟨hne, -⟩
  · exact hover
  · exact hne rfl

/-- While somebody asks the source, the latest credential stays, and the others wait or go. -/
theorem Steps.keeps_running (hstep : Steps policy s e t) (horder : s.Orderly)
    (hs : s.Running j) (ht : t.Running j) :
    t.vault = s.vault ∧ ∀ i c, s.callers[i]? = some c → i ≠ j →
      t.callers[i]? = some c ∨ t.callers[i]? = some { c with stage := .dropped } := by
  have hwaiting {k : Nat} {rest : List Nat} {force : Bool} {seen : Nat}
      (hline : s.line = k :: rest) (hk : s.callers[k]? = some ⟨force, .waiting seen⟩) : False := by
    obtain rfl := horder.eq_of_running hs hline
    obtain ⟨force', hk'⟩ := hs
    cases hk.symm.trans hk'
  cases hstep with
  | served =>
    exact ⟨rfl, fun i c hi _ =>
      .inl ((List.getElem?_append_left (List.getElem?_eq_some_iff.mp hi).1).trans hi)⟩
  | queued =>
    exact ⟨rfl, fun i c hi _ =>
      .inl ((List.getElem?_append_left (List.getElem?_eq_some_iff.mp hi).1).trans hi)⟩
  | shared hline hk => exact (hwaiting hline hk).elim
  | passed hline hk => exact (hwaiting hline hk).elim
  | @brought now _ _ _ c hline =>
    obtain rfl := horder.eq_of_running hs hline
    exact absurd ht (not_running_move (.done (.ok (s.vault.issue c now))) trivial)
  | @failed _ _ _ _ error hline =>
    obtain rfl := horder.eq_of_running hs hline
    exact absurd ht (not_running_move (.done (.error error)) trivial)
  | @left k _ _ hk =>
    refine ⟨rfl, fun i c hi _ => ?_⟩
    by_cases hki : k = i
    · subst hki
      exact .inr (getElem?_move_self hi .dropped)
    · exact .inl ((getElem?_move_of_ne hki .dropped).trans hi)
  | idle => exact ⟨rfl, fun _ _ hi _ => .inl hi⟩

theorem keeps_running_run {events : List Event} (horder : s.Orderly) (hs : s.Running j)
    (hend : (run policy s events).Running j) :
    (run policy s events).vault = s.vault ∧ ∀ i c, s.callers[i]? = some c → i ≠ j →
      (run policy s events).callers[i]? = some c ∨
        (run policy s events).callers[i]? = some { c with stage := .dropped } := by
  induction events generalizing s with
  | nil => exact ⟨rfl, fun _ _ hi _ => .inl hi⟩
  | cons e events ih =>
    have hstep := steps_step policy s e
    have hbetween : (step policy s e).Running j := running_between hs hstep hend
    obtain ⟨hvault, hcallers⟩ := hstep.keeps_running horder hs hbetween
    obtain ⟨hvault', hcallers'⟩ := ih (horder.step hstep) hbetween hend
    refine ⟨hvault'.trans hvault, fun i c hi hne => ?_⟩
    rcases hcallers i c hi hne with hsame | hdropped
    · exact hcallers' i c hsame hne
    · rcases hcallers' i _ hdropped hne with hd | hd
      · exact .inr hd
      · exact .inr hd

/-! ### Those in line when a credential comes -/

/-- The latest credential came while a caller and those in front of it were in line. -/
structure Shares (x : Issued) (i : Nat) (s : Refresh) : Prop where
  latest : s.vault.latest = some x
  ahead : ∃ front back, s.line = front ++ i :: back ∧ ∀ k ∈ front ++ [i], ∃ force seen,
    s.callers[k]? = some ⟨force, .waiting seen⟩ ∧ seen < s.vault.runs

/-- A caller has got a credential, or has gone. -/
def Ends (x : Issued) (i : Nat) (s : Refresh) : Prop :=
  ∃ force stage, s.callers[i]? = some ⟨force, stage⟩ ∧ (stage = .done (.ok x) ∨ stage = .dropped)

/-- Whoever is done stays as it is. -/
theorem over_run {c : Caller} (hi : s.callers[i]? = some c) (hover : c.stage.isOver)
    (events : List Event) : (run policy s events).callers[i]? = some c := by
  obtain ⟨⟨force, stage⟩, hi', hforce, hlead⟩ := leads_run policy hi events
  obtain rfl : stage = c.stage := hlead.of_over hover
  obtain rfl : force = c.force := hforce
  exact hi'

theorem isOver_of_ends {x : Issued} {stage : Stage}
    (h : stage = .done (.ok x) ∨ stage = .dropped) : stage.isOver := by
  rcases h with rfl | rfl <;> trivial

theorem ends_run {x : Issued} (h : s.Ends x i) (events : List Event) :
    (run policy s events).Ends x i := by
  obtain ⟨force, stage, hi, hstage⟩ := h
  exact ⟨force, stage, over_run hi (isOver_of_ends hstage) events, hstage⟩

theorem Orderly.line_of_running (h : s.Orderly) (hj : s.Running j) :
    ∃ rest, s.line = j :: rest ∧ j ∉ rest := by
  obtain ⟨force, hcaller⟩ := hj
  obtain ⟨rest, hline⟩ := List.head?_eq_some_iff.mp (h.first j force hcaller)
  have hnodup := h.nodup
  rw [hline] at hnodup
  exact ⟨rest, hline, (List.nodup_cons.mp hnodup).1⟩

/-- Everybody behind a caller that asks the source waits. -/
theorem Orderly.waiting_of_mem (h : s.Orderly) (hj : s.Running j) {rest : List Nat}
    (hline : s.line = j :: rest) (hrest : j ∉ rest) {k : Nat} (hk : k ∈ rest) :
    ∃ force seen, s.callers[k]? = some ⟨force, .waiting seen⟩ ∧ seen ≤ s.vault.runs := by
  obtain ⟨⟨force, stage⟩, hcaller, hactive⟩ :=
    (h.mem_line k).mp (hline ▸ List.mem_cons_of_mem j hk)
  cases stage with
  | waiting seen => exact ⟨force, seen, hcaller, h.seen k force seen hcaller⟩
  | running =>
    obtain rfl := h.running_unique ⟨force, hcaller⟩ hj
    exact absurd hk hrest
  | done => exact absurd trivial hactive
  | dropped => exact absurd trivial hactive

theorem Waiting.mem_line (hi : s.Waiting i) (h : s.Orderly) : i ∈ s.line := by
  obtain ⟨force, seen, hi⟩ := hi
  exact (h.mem_line i).mpr ⟨_, hi, id⟩

theorem settle_of_running {force : Bool} {rest : List Nat} (hline : s.line = j :: rest)
    (hj : s.callers[j]? = some ⟨force, .running⟩) (now : Clock) (c : Credential) :
    s.settle now (.ok c) =
      { s.move j (.done (.ok (s.vault.issue c now))) with
        vault := s.vault.store c now
        line := rest } := by
  rw [settle, hline]
  simp only [hj]

/-- When the source has answered, all those behind may share. -/
theorem shares_brought (horder : s.Orderly) (hj : s.Running j) (hi : s.Waiting i)
    (now : Clock) (c : Credential) : (s.settle now (.ok c)).Shares (s.vault.issue c now) i := by
  obtain ⟨rest, hline, hrest⟩ := horder.line_of_running hj
  have hmem : i ∈ rest := by
    have hmem := hi.mem_line horder
    rw [hline] at hmem
    refine (List.mem_cons.mp hmem).resolve_left ?_
    rintro rfl
    obtain ⟨_, hrunning⟩ := hj
    obtain ⟨_, _, hwaiting⟩ := hi
    cases hrunning.symm.trans hwaiting
  obtain ⟨front, back, rfl⟩ := List.append_of_mem hmem
  obtain ⟨force, hcaller⟩ := id hj
  rw [settle_of_running hline hcaller]
  refine ⟨rfl, front, back, rfl, fun k hk => ?_⟩
  have hk' : k ∈ front ++ i :: back := by
    rw [List.append_cons]
    exact List.mem_append_left back hk
  obtain ⟨force', seen, hwaiting, hseen⟩ := horder.waiting_of_mem hj hline hrest hk'
  have hne : j ≠ k := by
    rintro rfl
    exact hrest hk'
  exact ⟨force', seen, (getElem?_move_of_ne hne _).trans hwaiting, Nat.lt_succ_of_le hseen⟩

theorem Shares.waiting {x : Issued} (h : s.Shares x i) : s.Waiting i := by
  obtain ⟨-, front, -, -, hahead⟩ := h
  obtain ⟨force, seen, hi, -⟩ := hahead i (List.mem_append_right front List.mem_cons_self)
  exact ⟨force, seen, hi⟩

/-- Whoever comes first among those who share waits for the gate. -/
theorem Shares.first {x : Issued} (h : s.Shares x i) {k : Nat} {rest : List Nat}
    (hline : s.line = k :: rest) :
    ∃ force seen, s.callers[k]? = some ⟨force, .waiting seen⟩ ∧ seen < s.vault.runs := by
  obtain ⟨-, front, back, hsplit, hahead⟩ := h
  refine hahead k ?_
  cases front with
  | nil =>
    rw [hline, List.nil_append] at hsplit
    rw [(List.cons.inj hsplit).1]
    exact List.mem_cons_self
  | cons k' front =>
    rw [hline, List.cons_append] at hsplit
    rw [(List.cons.inj hsplit).1]
    exact List.mem_cons_self

/-- Somebody who shares comes to the gate. -/
theorem Shares.pop {x : Issued} (h : s.Shares x i) (horder : s.Orderly) {k : Nat}
    {rest : List Nat} (hline : s.line = k :: rest) :
    Shares x i { s.move k (.done (.ok x)) with line := rest } ∨
      ∃ force, (s.move k (.done (.ok x))).callers[i]? = some ⟨force, .done (.ok x)⟩ := by
  obtain ⟨force, seen, hk, -⟩ := h.first hline
  obtain ⟨hlatest, front, back, hsplit, hahead⟩ := h
  have hnodup := horder.nodup
  rw [hline] at hnodup hsplit
  cases front with
  | nil =>
    obtain ⟨rfl, -⟩ := List.cons.inj hsplit
    exact .inr ⟨force, getElem?_move_self hk _⟩
  | cons k' front =>
    obtain ⟨rfl, rfl⟩ := List.cons.inj hsplit
    refine .inl ⟨hlatest, front, back, rfl, fun m hm => ?_⟩
    have hrest : m ∈ front ++ i :: back := by
      rw [List.append_cons]
      exact List.mem_append_left back hm
    obtain ⟨force', seen', hm', hseen'⟩ := hahead m (List.mem_cons_of_mem k hm)
    have hne : k ≠ m := by
      rintro rfl
      exact (List.nodup_cons.mp hnodup).1 hrest
    exact ⟨force', seen', (getElem?_move_of_ne hne _).trans hm', hseen'⟩

theorem Shares.append {x : Issued} (h : s.Shares x i) (c : Caller) (more : List Nat) :
    Shares x i { s with callers := s.callers ++ [c], line := s.line ++ more } := by
  obtain ⟨hlatest, front, back, hsplit, hahead⟩ := h
  refine ⟨hlatest, front, back ++ more, ?_, fun k hk => ?_⟩
  · show s.line ++ more = front ++ i :: (back ++ more)
    rw [hsplit, List.append_assoc, List.cons_append]
  · obtain ⟨force, seen, hk, hseen⟩ := hahead k hk
    exact ⟨force, seen,
      (List.getElem?_append_left (List.getElem?_eq_some_iff.mp hk).1).trans hk, hseen⟩

theorem Shares.left {x : Issued} (h : s.Shares x i) {k : Nat} (hne : k ≠ i) :
    Shares x i { s.move k .dropped with line := s.line.filter (· ≠ k) } := by
  obtain ⟨hlatest, front, back, hsplit, hahead⟩ := h
  refine ⟨hlatest, front.filter (· ≠ k), back.filter (· ≠ k), ?_, fun m hm => ?_⟩
  · show s.line.filter (· ≠ k) = _
    rw [hsplit]
    simp [hne.symm]
  · have hm' : m ∈ front ++ [i] ∧ k ≠ m := by
      rcases List.mem_append.mp hm with hm | hm
      · rw [List.mem_filter, decide_eq_true_iff] at hm
        exact ⟨List.mem_append_left _ hm.1, hm.2.symm⟩
      · refine ⟨List.mem_append_right _ hm, ?_⟩
        rw [List.mem_singleton.mp hm]
        exact hne
    obtain ⟨force, seen, hcaller, hseen⟩ := hahead m hm'.1
    exact ⟨force, seen, (getElem?_move_of_ne hm'.2 _).trans hcaller, hseen⟩

theorem Shares.step {x : Issued} (h : s.Shares x i) (horder : s.Orderly)
    (hstep : Steps policy s e t) (hvalid : ∀ now, e = .enter now → policy x now = true) :
    t.Shares x i ∨ t.Ends x i := by
  cases hstep with
  | served => exact .inl (by simpa using h.append ⟨false, .done (.ok _)⟩ [])
  | queued => exact .inl (h.append _ _)
  | @shared now k seen rest force issued hline hk hshare hfresh =>
    obtain rfl : issued = x :=
      Option.some.inj ((Vault.fresh?_eq_some hfresh).symm.trans h.latest)
    exact (h.pop horder hline).imp_right fun ⟨force, hi⟩ => ⟨force, _, hi, .inl rfl⟩
  | @passed now k seen rest force hline hk hneeds =>
    -- the credential is valid, and has come since the first in line came
    exfalso
    obtain ⟨force', seen', hk', hseen⟩ := h.first hline
    obtain ⟨rfl, rfl⟩ : force = force' ∧ seen = seen' := by
      have := hk.symm.trans hk'
      simpa using this
    rcases hneeds with ⟨-, hruns⟩ | hnone
    · omega
    · rw [Vault.fresh?_of_latest h.latest (hvalid now rfl)] at hnone
      cases hnone
  | brought hline hk =>
    obtain ⟨_, _, hk', -⟩ := h.first hline
    cases hk.symm.trans hk'
  | failed hline hk =>
    obtain ⟨_, _, hk', -⟩ := h.first hline
    cases hk.symm.trans hk'
  | @left k force stage hk =>
    by_cases hne : k = i
    · subst hne
      exact .inr ⟨force, .dropped, getElem?_move_self hk .dropped, .inr rfl⟩
    · exact .inl (h.left hne)
  | idle => exact .inl h

/-- While the credential is valid whenever somebody comes to the gate, a caller that waits shares
it. -/
theorem shares_run {x : Issued} {events : List Event} (h : s.Shares x i) (horder : s.Orderly)
    (hvalid : ∀ before now after, events = before ++ .enter now :: after →
      (run policy s before).Waiting i → policy x now = true) :
    (run policy s events).Shares x i ∨ (run policy s events).Ends x i := by
  induction events generalizing s with
  | nil => exact .inl h
  | cons e events ih =>
    have hstep := steps_step policy s e
    have hwaits : s.Waiting i := h.waiting
    have hnow : ∀ now, e = .enter now → policy x now = true := by
      rintro now rfl
      exact hvalid [] now events rfl hwaits
    rcases h.step horder hstep hnow with hshares | hends
    · refine ih hshares (horder.step hstep) fun before now after heq hbefore => ?_
      exact hvalid (e :: before) now after (by rw [heq, List.cons_append]) hbefore
    · exact .inr (ends_run hends events)

/-- The first of those who share gets the credential if it is valid. -/
theorem Shares.enter {x : Issued} {now : Clock} (h : s.Shares x i)
    (hvalid : policy x now = true) {k : Nat} {rest : List Nat} (hline : s.line = k :: rest) :
    s.enter policy now = { s.move k (.done (.ok x)) with line := rest } := by
  obtain ⟨force, seen, hk, hseen⟩ := h.first hline
  have hne : s.vault.runs ≠ seen := by omega
  rw [Refresh.enter, hline]
  simp [hk, hne, Vault.fresh?_of_latest h.latest hvalid]

/-- A caller that shares gets the credential once those in front of it have passed the gate. -/
theorem Shares.exists_outcome {x : Issued} {now : Clock} (h : s.Shares x i) (horder : s.Orderly)
    (hvalid : policy x now = true) :
    ∃ n, (run policy s (List.replicate n (.enter now))).outcome? i = some (.ok x) := by
  -- whoever comes to the gate leaves the line, so the caller's turn comes
  induction hn : s.line.length using Nat.strongRecOn generalizing s with
  | ind n ih =>
    cases hline : s.line with
    | nil =>
      obtain ⟨-, front, back, hsplit, -⟩ := h
      rw [hline] at hsplit
      simp at hsplit
    | cons k rest =>
      have henter := h.enter hvalid hline
      have hnext : Orderly { s.move k (.done (.ok x)) with line := rest } :=
        henter ▸ horder.step (steps_enter policy s now)
      rcases h.pop horder hline with hshares | ⟨force, hi⟩
      · have hlt : rest.length < n := by
          rw [← hn, hline]
          exact Nat.lt_succ_self _
        obtain ⟨m, hm⟩ := ih rest.length hlt hshares hnext rfl
        refine ⟨m + 1, ?_⟩
        show (run policy (s.enter policy now) (List.replicate m (.enter now))).outcome? i = _
        rw [henter]
        exact hm
      · refine ⟨1, ?_⟩
        show (s.enter policy now).outcome? i = _
        rw [henter, outcome?]
        simp only [hi]

/-! ### Failure -/

/-- The first in line passes the gate if it must not share or there is nothing to share. -/
theorem enter_running {force : Bool} {seen : Nat} {now : Clock}
    (hfirst : s.line.head? = some i) (hi : s.callers[i]? = some ⟨force, .waiting seen⟩)
    (hneeds : force = true ∧ s.vault.runs = seen ∨ s.vault.fresh? policy now = none) :
    (s.enter policy now).Running i := by
  obtain ⟨rest, hline⟩ := List.head?_eq_some_iff.mp hfirst
  have henter : s.enter policy now = s.move i .running := by
    rw [enter, hline]
    rcases hneeds with ⟨rfl, hruns⟩ | hnone
    · simp [hi, hruns]
    · simp [hi, hnone]
  rw [henter]
  exact ⟨force, getElem?_move_self hi .running⟩

/-- Whoever waits has seen what there was when it came. -/
theorem waiting_run {now : Clock} {force : Bool} {events : List Event}
    (hi : (run policy (s.arrive policy now force) events).Waiting s.callers.length) :
    (run policy (s.arrive policy now force) events).callers[s.callers.length]? =
      some ⟨force, .waiting s.vault.runs⟩ := by
  obtain ⟨force', seen, hi⟩ := hi
  obtain ⟨stage, hcame, hstage⟩ := getElem?_arrive policy s now force
  obtain ⟨d, hd, hforce, hlead⟩ := leads_run policy hcame events
  obtain rfl : d = ⟨force', .waiting seen⟩ := Option.some.inj (hd.symm.trans hi)
  obtain rfl : stage = .waiting seen := hlead.of_waiting
  obtain rfl : force' = force := hforce
  rcases hstage with hseen | ⟨-, hover⟩
  · rw [hi, hseen]
  · exact absurd hover id

theorem settle_error (horder : s.Orderly) (hj : s.Running j) (now : Clock) (error : AuthError) :
    (s.settle now (.error error)).vault = s.vault ∧
      (s.settle now (.error error)).line = s.line.tail := by
  obtain ⟨rest, hline, -⟩ := horder.line_of_running hj
  obtain ⟨force, hj⟩ := hj
  rw [settle, hline]
  simp only [hj]
  exact ⟨rfl, rfl⟩

theorem leave_running (horder : s.Orderly) (hj : s.Running j) :
    (s.leave j).vault = s.vault ∧ (s.leave j).line = s.line.tail := by
  obtain ⟨rest, hline, hrest⟩ := horder.line_of_running hj
  obtain ⟨force, hj⟩ := hj
  rw [leave]
  simp only [hj]
  refine ⟨rfl, ?_⟩
  show s.line.filter (· ≠ j) = s.line.tail
  rw [hline]
  have hall : ∀ k ∈ rest, decide (k ≠ j) = true := by
    intro k hk
    rw [decide_eq_true_iff]
    rintro rfl
    exact hrest hk
  simpa using hall

/-! ### What callers may rely on -/

/-- What a caller that came while the source was asked has come to. -/
structure Shared (policy : Policy) (force : Bool) (x : Issued) (i : Nat) (s : Refresh) : Prop where
  idle : ¬ s.Running i
  outcome : force = true → ∀ outcome, s.outcome? i = some outcome → outcome = .ok x
  served : s.Waiting i → ∀ now, policy x now = true →
    ∃ n, (run policy s (List.replicate n (.enter now))).outcome? i = some (.ok x)

/-- What callers may rely on who come to `s` or later, whatever the policy is: the callers of a
token in a file as well as those of a helper. -/
structure Coordinated (policy : Policy) (s : Refresh) : Prop where
  /-- A forced call does not get what was the latest credential when it came. -/
  forced : ∀ now more issued old,
    (run policy (s.arrive policy now true) more).outcome? s.callers.length = some (.ok issued) →
    s.vault.latest = some old → issued.number ≠ old.number
  /-- The source is asked by one caller at a time. -/
  single : ∀ i j, s.Running i → s.Running j → i = j
  /-- A call that comes while the source is asked does not ask it itself if that brings a credential
  which is valid whenever somebody comes to the gate; a forced call gets this very credential, once
  those in front of it have passed the gate. -/
  shared : ∀ j now force during time c more, s.Running j →
    let u := run policy (s.arrive policy now force) during
    let x := u.vault.issue c time
    let v := u.settle time (.ok c)
    let z := run policy v more
    u.Running j →
    (∀ before now after, more = before ++ .enter now :: after →
      (run policy v before).Waiting s.callers.length → policy x now = true) →
    z.Shared policy force x s.callers.length
  /-- As long as the source is asked, and also if that fails or is given up, the latest credential
  and the count of refreshes stay; then it is the turn of the next in line. -/
  failed : ∀ j during, s.Running j →
    let t := run policy s during
    t.Running j → t.vault = s.vault ∧
    (∀ now error, (t.settle now (.error error)).vault = s.vault ∧
      (t.settle now (.error error)).line = t.line.tail) ∧
    (t.leave j).vault = s.vault ∧ (t.leave j).line = t.line.tail
  /-- A caller whose turn it is asks the source itself if there is nothing valid, and also if it is
  forced and no refresh has brought anything since it came. -/
  attempts : ∀ now force more,
    let z := run policy (s.arrive policy now force) more
    z.line.head? = some s.callers.length → z.Waiting s.callers.length → ∀ time,
    (force = true ∧ z.vault = s.vault ∨ z.vault.fresh? policy time = none) →
    (z.enter policy time).Running s.callers.length

theorem Orderly.forced (h : s.Orderly) (now : Clock) (more : List Event) {issued old : Issued}
    (hissued : (run policy (s.arrive policy now true) more).outcome? s.callers.length =
      some (.ok issued))
    (hold : s.vault.latest = some old) : issued.number ≠ old.number := by
  obtain ⟨stage, hcame, hstage⟩ := getElem?_arrive policy s now true
  have hnewer : (s.arrive policy now true).Newer s.vault.runs s.callers.length := by
    rcases hstage with rfl | ⟨hforce, -⟩
    · exact ⟨Nat.le_refl _, _, hcame, rfl⟩
    · cases hforce
  have hlt := (newer_run hnewer (h.step (steps_arrive policy s now true)) more).lt hissued
  have hnumber := h.latest old hold
  omega

theorem shared_of_over {force forced : Bool} {x : Issued} {stage : Stage}
    (hi : s.callers[i]? = some ⟨forced, stage⟩) (hover : stage.isOver)
    (hforce : force = true → stage = .done (.ok x) ∨ stage = .dropped) :
    s.Shared policy force x i where
  idle := by
    rintro ⟨_, hrunning⟩
    cases hi.symm.trans hrunning
    exact hover
  outcome := by
    intro hforced outcome houtcome
    rw [outcome?, hi] at houtcome
    rcases hforce hforced with rfl | rfl
    · exact (Option.some.inj houtcome).symm
    · cases houtcome
  served := by
    rintro ⟨_, _, hwaiting⟩
    cases hi.symm.trans hwaiting
    exact absurd hover id

theorem Shares.shared {force : Bool} {x : Issued} (h : s.Shares x i) (horder : s.Orderly) :
    s.Shared policy force x i := by
  obtain ⟨forced, seen, hi⟩ := h.waiting
  refine ⟨?_, fun _ outcome houtcome => ?_, fun _ now hvalid => h.exists_outcome horder hvalid⟩
  · rintro ⟨_, hrunning⟩
    cases hi.symm.trans hrunning
  · rw [outcome?, hi] at houtcome
    cases houtcome

/-- Whoever comes while the source is asked shares what that brings. -/
theorem Orderly.shared (h : s.Orderly) (hj : s.Running j) {now : Clock} {force : Bool}
    {during : List Event} (hend : (run policy (s.arrive policy now force) during).Running j)
    {u : Refresh} (hu : u = run policy (s.arrive policy now force) during)
    (time : Clock) (c : Credential) {more : List Event}
    (hvalid : ∀ before now after, more = before ++ .enter now :: after →
      (run policy (u.settle time (.ok c)) before).Waiting s.callers.length →
      policy (u.vault.issue c time) now = true) :
    (run policy (u.settle time (.ok c)) more).Shared policy force (u.vault.issue c time)
      s.callers.length := by
  obtain ⟨stage, hcame, hstage⟩ := getElem?_arrive policy s now force
  have hstep := steps_arrive policy s now force
  have hne : s.callers.length ≠ j := by
    rintro rfl
    obtain ⟨_, hj⟩ := hj
    exact Nat.lt_irrefl _ (List.getElem?_eq_some_iff.mp hj).1
  have hkept := (keeps_running_run (h.step hstep) (running_between hj hstep hend) hend).2
    _ _ hcame hne
  have horder : u.Orderly := hu ▸ orderly_run (h.step hstep) during
  rw [← hu] at hkept hend
  have hsettled : (u.settle time (.ok c)).Orderly :=
    horder.step (steps_settle policy u time (.ok c))
  have hover {d : Caller} (hd : u.callers[s.callers.length]? = some d) (hover : d.stage.isOver) :
      (run policy (u.settle time (.ok c)) more).callers[s.callers.length]? = some d :=
    over_run hd hover (.settle time (.ok c) :: more)
  rcases hkept with hsame | hdropped
  · rcases hstage with rfl | ⟨hforce, hdone⟩
    · have hshares := shares_brought horder hend ⟨force, _, hsame⟩ time c
      rcases shares_run hshares hsettled hvalid with hshares | ⟨forced, stage, hi, hends⟩
      · exact hshares.shared (orderly_run hsettled more)
      · exact shared_of_over hi (isOver_of_ends hends) fun _ => hends
    · refine shared_of_over (hover hsame hdone) hdone fun hforced => ?_
      cases hforce.symm.trans hforced
  · exact shared_of_over (hover hdropped trivial) trivial fun _ => .inr rfl

theorem coordinated_run (policy : Policy) (events : List Event) :
    Coordinated policy (run policy (start .empty) events) where
  forced := fun now more _ _ => (orderly_run orderly_start events).forced now more
  single := fun _ _ => (orderly_run orderly_start events).running_unique
  shared := by
    intro j now force during time c more hj u x v z hend hvalid
    exact (orderly_run orderly_start events).shared hj hend rfl time c hvalid
  failed := by
    intro j during hj t ht
    have horder : t.Orderly := orderly_run (orderly_run orderly_start events) during
    have hvault : t.vault = _ :=
      (keeps_running_run (orderly_run orderly_start events) hj ht).1
    refine ⟨hvault, fun now error => ?_, ?_⟩
    · obtain ⟨hsame, hline⟩ := settle_error horder ht now error
      exact ⟨hsame.trans hvault, hline⟩
    · obtain ⟨hsame, hline⟩ := leave_running horder ht
      exact ⟨hsame.trans hvault, hline⟩
  attempts := by
    intro now force more z hfirst hwaiting time hneeds
    have hi := waiting_run hwaiting
    refine enter_running hfirst hi ?_
    rcases hneeds with ⟨hforce, hvault⟩ | hnone
    · exact .inl ⟨hforce, congrArg Vault.runs hvault⟩
    · exact .inr hnone

/-- A forced call has passed the gate of a token file that was never read. -/
def reading (f : TokenFile) : Refresh :=
  run f.policy (start .empty) [.arrive default true, .enter default]

theorem coordinated_run_reading :
    let f : TokenFile := ⟨"/token", TokenFile.defaultLifetime⟩
    let v := ((reading f).arrive f.policy default true).settle default (.ok default)
    (reading f).Running 0 ∧ ¬ v.Running 1 ∧
      ∃ n, (run f.policy v (List.replicate n (.enter default))).outcome? 1 =
        some (.ok ⟨1, default, 0⟩) := by
  intro f v
  have hrunning : (reading f).Running 0 := ⟨true, rfl⟩
  have hshared : v.Shared f.policy true ⟨1, default, 0⟩ 1 :=
    (coordinated_run f.policy [.arrive default true, .enter default]).shared 0 default true []
      default default [] hrunning ⟨true, rfl⟩ (by simp)
  exact ⟨hrunning, hshared.idle, hshared.served ⟨true, 0, rfl⟩ default (by decide)⟩

end Refresh
end KubeClient
