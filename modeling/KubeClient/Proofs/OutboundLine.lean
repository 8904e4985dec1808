import KubeClient.Exec.Outbound

/-!
# The line of those who use a connection

* `Sink.GoesOn` : what is done with a connection by somebody who goes on;
* `Outbound.Moves` : what one move of the line does to the connection, to those who use it and to
  the line;
* `Outbound.Lined` : everybody who is not done stands in line;
* `Outbound.Lasts` : what lasts whatever happens, to a connection of any kind.
-/

namespace KubeClient

variable {κ δ : Type} [Connection κ δ]

/-- What somebody who goes on makes of a sink: nothing, or a frame is sent, or the connection is
closed. The frame `frame` comes, and `left` of it stays behind. -/
inductive Sink.GoesOn (s : Sink κ) :
    Wire.Progress → Sink κ → Option Bytes → Option Bytes → Prop
  | rests (outcome : Except TransportError Unit) : s.GoesOn (some outcome) s none none
  | sends (frame : Option Bytes) :
      s.GoesOn (s.send frame).1 (s.send frame).2.1 frame (s.send frame).2.2
  | closes : s.GoesOn s.close.1 s.close.2 none none

/-- The frames that somebody still has to hand over. -/
def Turn.owed : Turn → Nat
  | .waiting => 1
  | .holding frame => frame.toList.length
  | .done _ => 0
  | .left => 0

/-- Somebody has gone, with an outcome or without one. -/
def Turn.isOver : Turn → Prop
  | .waiting => False
  | .holding _ => False
  | .done _ => True
  | .left => True

namespace Outbound

/-! ### One move -/

/-- What a move of the line does. -/
inductive Moves (o : Outbound κ) : Outbound κ → Prop
  | idle : o.line = [] → o.Moves o
  | passed {i : Nat} {rest : List Nat} : o.line = i :: rest →
      (∀ u, o.users[i]? = some u → u.turn.isOver) → o.Moves { o with line := rest }
  | finished {i : Nat} {rest : List Nat} {u : User} {sink : Sink κ} {closed : Bool}
      {outcome : Except ClientError Unit} {progress : Wire.Progress} {frame left : Option Bytes} :
      o.line = i :: rest → o.users[i]? = some u →
      o.sink.GoesOn progress sink frame left → frame.toList.length ≤ u.turn.owed →
      o.Moves ({ o with sink, closed }.finish i outcome)
  | held {i : Nat} {rest : List Nat} {u : User} {sink : Sink κ} {closed : Bool}
      {frame left : Option Bytes} :
      o.line = i :: rest → o.users[i]? = some u →
      o.sink.GoesOn none sink frame left → frame.toList.length ≤ u.turn.owed →
      o.Moves ({ o with sink, closed }.move i (.holding left))

variable {o o' : Outbound κ}

theorem moves_proceed {i : Nat} {rest : List Nat} {u : User} (hline : o.line = i :: rest)
    (hu : o.users[i]? = some u) (closed : Bool) (use : Use) (frame : Option Bytes)
    (howed : frame.toList.length ≤ u.turn.owed) :
    o.Moves ({ o with closed }.proceed i use frame) := by
  cases use with
  | write channel payload =>
    rw [proceed]
    split
    · exact .finished hline hu (.rests (.ok ())) (Nat.zero_le _)
    · have hsend := Sink.GoesOn.sends (s := o.sink) frame
      split
      · rename_i sink left heq
        rw [heq] at hsend
        exact .held hline hu hsend howed
      · rename_i outcome sink left heq
        rw [heq] at hsend
        exact .finished hline hu hsend howed
  | close =>
    have hclose := Sink.GoesOn.closes (s := o.sink)
    rw [proceed]
    split
    · rename_i sink heq
      rw [heq] at hclose
      exact .held hline hu hclose (Nat.zero_le _)
    · rename_i outcome sink heq
      rw [heq] at hclose
      exact .finished hline hu hclose (Nat.zero_le _)

theorem moves_advance (o : Outbound κ) : o.Moves o.advance := by
  rw [advance]
  split
  · rename_i hline
    exact .idle hline
  · rename_i i rest hline
    split
    · rename_i use hu
      cases use with
      | write channel payload =>
        rw [acquire]
        split
        · exact .finished hline hu (.rests (.ok ())) (Nat.zero_le _)
        · exact moves_proceed hline hu o.closed _ _ (Nat.le_refl 1)
      | close =>
        rw [acquire]
        split
        · exact .finished hline hu (.rests (.ok ())) (Nat.zero_le _)
        · exact moves_proceed hline hu true _ _ (Nat.zero_le 1)
    · rename_i use frame hu
      exact moves_proceed hline hu o.closed _ _ (Nat.le_refl _)
    · rename_i hwaiting hholding
      rw [hline]
      refine .passed hline fun u hu => ?_
      obtain ⟨use, turn⟩ := u
      cases turn with
      | waiting => exact absurd hu (hwaiting use)
      | holding frame => exact absurd hu (hholding use frame)
      | done outcome => trivial
      | left => trivial

/-! ### Settling -/

/-- What every move of the line keeps, settling keeps. -/
theorem settle_induction {P : Outbound κ → Prop} (step : ∀ o, P o → P o.advance) (h : P o) :
    P o.settle := by
  have hdrain (fuel : Nat) : ∀ o, P o → P (drain fuel o) := by
    induction fuel with
    | zero => exact fun o h => h
    | succ fuel ih =>
      intro o h
      have hadvance := step o h
      rw [drain]
      split
      · exact ih _ hadvance
      · exact hadvance
  exact hdrain _ o h

/-! ### Everybody stands in line -/

/-- Everybody who is not done stands in line. -/
def Lined (o : Outbound κ) : Prop :=
  ∀ i u, o.users[i]? = some u → ¬ u.turn.isOver → i ∈ o.line

theorem getElem?_move (o : Outbound κ) (i j : Nat) (turn : Turn) :
    (o.move i turn).users[j]? =
      o.users[j]?.map fun u => if i = j then { u with turn } else u := by
  rw [move, List.getElem?_modify]
  split <;> rfl

theorem mem_rest_of_ne {i j : Nat} {rest : List Nat} (hline : o.line = i :: rest)
    (hj : j ∈ o.line) (hne : i ≠ j) : j ∈ rest := by
  rw [hline] at hj
  exact (List.mem_cons.mp hj).resolve_left hne.symm

/-- The first in line goes. -/
theorem Lined.passed {i : Nat} {rest : List Nat} (h : o.Lined) (hline : o.line = i :: rest)
    (hover : ∀ u, o.users[i]? = some u → u.turn.isOver) :
    ({ o with line := rest } : Outbound κ).Lined := by
  intro j v hv hturn
  refine mem_rest_of_ne hline (h j v hv hturn) ?_
  rintro rfl
  exact hturn (hover v hv)

theorem Lined.of_moves (h : o.Moves o') (hlined : o.Lined) : o'.Lined := by
  cases h with
  | idle => exact hlined
  | passed hline hover => exact hlined.passed hline hover
  | @finished i rest u sink closed outcome progress frame left hline hu hsink howed =>
    intro j v hv hturn
    have hj : ({ o with sink, closed }.move i (.done outcome)).users[j]? = some v := hv
    rw [getElem?_move] at hj
    obtain ⟨w, hw, rfl⟩ := Option.map_eq_some_iff.mp hj
    split at hturn
    · exact absurd trivial hturn
    · rename_i hne
      show j ∈ o.line.tail
      rw [hline]
      exact mem_rest_of_ne hline (hlined j w hw hturn) hne
  | @held i rest u sink closed frame left hline hu hsink howed =>
    intro j v hv hturn
    rw [getElem?_move] at hv
    obtain ⟨w, hw, rfl⟩ := Option.map_eq_some_iff.mp hv
    split at hturn
    · rename_i hij
      show j ∈ o.line
      rw [hline, hij]
      exact List.mem_cons_self
    · exact hlined j w hw hturn

theorem Lined.join (h : o.Lined) (use : Use) : (o.join use).Lined := by
  intro j v hv hturn
  have hv : (o.users ++ [(⟨use, .waiting⟩ : User)])[j]? = some v := hv
  show j ∈ o.line ++ [o.users.length]
  rw [List.getElem?_append] at hv
  split at hv
  · exact List.mem_append_left _ (h j v hv hturn)
  · rename_i hj
    obtain ⟨hlt, -⟩ := List.getElem?_eq_some_iff.mp hv
    have hlast : j = o.users.length := by
      rw [List.length_singleton] at hlt
      omega
    rw [hlast]
    exact List.mem_append_right _ List.mem_cons_self

theorem Lined.leave (h : o.Lined) (i : Nat) : (o.leave i).Lined := by
  intro j v hv hturn
  have hv : (o.move i .left).users[j]? = some v := hv
  rw [getElem?_move] at hv
  obtain ⟨w, hw, rfl⟩ := Option.map_eq_some_iff.mp hv
  split at hturn
  · exact absurd trivial hturn
  · rename_i hne
    exact List.mem_filter.mpr ⟨h j w hw hturn, decide_eq_true (Ne.symm hne)⟩

/-- Whoever goes on has come from wherever it was. -/
theorem proceed_move (o : Outbound κ) (i : Nat) (turn : Turn) (use : Use) (frame : Option Bytes) :
    (o.move i turn).proceed i use frame = o.proceed i use frame := by
  have hfailure : (o.move i turn).failure = o.failure := rfl
  unfold proceed finish
  rw [hfailure]
  simp only [move, List.modify_modify_eq, Function.comp_def]

/-! ### Who uses the connection -/

/-- What somebody uses the connection for. -/
def Uses (o : Outbound κ) (i : Nat) (use : Use) : Prop :=
  ∃ turn, o.users[i]? = some ⟨use, turn⟩

/-- Somebody closes the connection and does not go before that is done. -/
def Closes (o : Outbound κ) (i : Nat) : Prop :=
  ∃ turn, o.users[i]? = some ⟨.close, turn⟩ ∧ turn ≠ .left

theorem closes_join (o : Outbound κ) : (o.join .close).Closes o.users.length :=
  ⟨.waiting, List.getElem?_concat_length, fun h => by cases h⟩

theorem getElem?_join {j : Nat} {u : User} (hu : o.users[j]? = some u) (use : Use) :
    (o.join use).users[j]? = some u :=
  (List.getElem?_append_left (List.getElem?_eq_some_iff.mp hu).1).trans hu

theorem Uses.move {i j : Nat} {use : Use} (h : o.Uses j use) (turn : Turn) :
    (o.move i turn).Uses j use := by
  obtain ⟨before, hu⟩ := h
  refine ⟨if i = j then turn else before, ?_⟩
  rw [getElem?_move, hu, Option.map_some]
  split <;> rfl

theorem Closes.move {i j : Nat} {turn : Turn} (h : o.Closes j) (hturn : i = j → turn ≠ .left) :
    (o.move i turn).Closes j := by
  obtain ⟨before, hu, hstays⟩ := h
  refine ⟨if i = j then turn else before, ?_, ?_⟩
  · rw [getElem?_move, hu, Option.map_some]
    split <;> rfl
  · split
    · rename_i hij
      exact hturn hij
    · exact hstays

/-- Whoever writes and whoever closes are two. -/
theorem Uses.ne {i j : Nat} {channel : Channel} {payload : Bytes}
    (h : o.Uses i (.write channel payload)) (hj : o.Closes j) : i ≠ j := by
  rintro rfl
  obtain ⟨_, hwrite⟩ := h
  obtain ⟨_, hclose, -⟩ := hj
  rw [hwrite] at hclose
  cases hclose

/-- Whoever closes the connection has an outcome once the line is empty. -/
theorem Closes.outcome {j : Nat} (h : o.Closes j) (hlined : o.Lined) (hline : o.line = []) :
    ∃ outcome, o.outcome? j = some outcome := by
  obtain ⟨turn, hu, hstays⟩ := h
  have hover (hover : ¬ turn.isOver) : False := by
    have hj := hlined j _ hu hover
    rw [hline] at hj
    exact List.not_mem_nil hj
  cases turn with
  | waiting => exact (hover id).elim
  | holding frame => exact (hover id).elim
  | done outcome => exact ⟨outcome, by rw [outcome?, hu]⟩
  | left => exact absurd rfl hstays

/-! ### What whatever happens keeps -/

/-- A property that lasts, whatever happens to those who use the connection, and whatever the
outside does to it. Only those who write go without an outcome. -/
structure Lasts (P : Outbound κ → Prop) : Prop where
  advance : ∀ {o : Outbound κ}, P o → P o.advance
  join : ∀ {o} (use : Use), P o → P (o.join use)
  leave : ∀ {o : Outbound κ} {i : Nat} {channel : Channel} {payload : Bytes},
    o.Uses i (.write channel payload) → o.outcome? i = none → P o → P (o.leave i)
  happen : ∀ {o} (deed : δ), P o → P (o.happen deed)

theorem Closes.of_moves {j : Nat} (h : o.Moves o') (hcloses : o.Closes j) : o'.Closes j := by
  cases h with
  | idle => exact hcloses
  | passed => exact hcloses
  | finished =>
    exact Closes.move (o := { o with sink := _, closed := _ }) hcloses fun _ h => by cases h
  | held =>
    exact Closes.move (o := { o with sink := _, closed := _ }) hcloses fun _ h => by cases h

theorem Moves.path_eq (h : o.Moves o') : o'.path = o.path := by
  cases h <;> rfl

theorem Moves.fired_eq (h : o.Moves o') : o'.fired = o.fired := by
  cases h <;> rfl

theorem lasts_lined : Lasts (Lined (κ := κ)) where
  advance := fun h => h.of_moves (moves_advance _)
  join := fun use h => h.join use
  leave := fun _ _ h => h.leave _
  happen := fun _ h => h

theorem lasts_closes (j : Nat) : Lasts (Closes (κ := κ) · j) where
  advance := fun h => h.of_moves (moves_advance _)
  join := fun use h => h.imp fun _ hu => ⟨getElem?_join hu.1 use, hu.2⟩
  leave := fun hwrites _ h => h.move fun hij => absurd hij (hwrites.ne h)
  happen := fun _ h => h

theorem lasts_path (path : String) : Lasts fun o : Outbound κ => o.path = path where
  advance := fun {o} h => o.moves_advance.path_eq.trans h
  join := fun _ h => h
  leave := fun _ _ h => h
  happen := fun _ h => h

theorem lasts_fired (fired : Bool) : Lasts fun o : Outbound κ => o.fired = fired where
  advance := fun {o} h => o.moves_advance.fired_eq.trans h
  join := fun _ h => h
  leave := fun _ _ h => h
  happen := fun _ h => h

theorem Lasts.settle {P : Outbound κ → Prop} (hP : Lasts P) (h : P o) : P o.settle :=
  settle_induction (fun _ => hP.advance) h

end Outbound
end KubeClient
