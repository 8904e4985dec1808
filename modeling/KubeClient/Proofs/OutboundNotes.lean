import KubeClient.Proofs.OutboundLine
import Mathlib.Data.List.TakeWhile

/-!
# Notes about a connection

* `Outbound.Occurrence` : what is noted: who gets the connection, its end, and that the caller calls
  off;
* `Outbound.admitted`, `Outbound.late`, `Outbound.closers` : who gets the connection in time, who
  too late, and who closes it;
* `Outbound.Steps` : the steps of a connection, with what is noted of them;
* `Outbound.Queued` : the first in line may hold the connection, and all others wait;
* `Outbound.Noted` : what the notes say of those who use the connection.
-/

namespace KubeClient

variable {κ δ : Type} [Connection κ δ]

namespace Outbound

/-! ### What is noted -/

/-- What is noted of a connection. -/
inductive Occurrence
  /-- Somebody gets the connection. -/
  | acquired (user : Nat) (use : Use)
  /-- The caller calls off. -/
  | calledOff
  /-- The connection is closed. -/
  | closed (user : Nat)
  deriving DecidableEq

/-- What somebody has got the connection to write. -/
structure Writing where
  user : Nat
  channel : Channel
  payload : Bytes
  deriving DecidableEq

/-- The frame that is to be handed over. -/
def Writing.frame (w : Writing) : Bytes :=
  w.channel.frame w.payload

namespace Occurrence

/-- Nobody writes any more who gets the connection after this. -/
def stops : Occurrence → Bool
  | acquired _ .close => true
  | calledOff => true
  | _ => false

/-- Who gets the connection. -/
def acquirer? : Occurrence → Option Nat
  | acquired i _ => some i
  | _ => none

/-- Who gets the connection to write. -/
def writing? : Occurrence → Option Writing
  | acquired i (.write channel payload) => some ⟨i, channel, payload⟩
  | _ => none

/-- Who gets the connection to close it. -/
def closer? : Occurrence → Option Nat
  | acquired i .close => some i
  | _ => none

/-- Who has closed the connection. -/
def closing? : Occurrence → Option Nat
  | closed i => some i
  | _ => none

end Occurrence

/-- Those who get the connection, in order. -/
def acquirers (log : List Occurrence) : List Nat :=
  log.filterMap Occurrence.acquirer?

/-- What those write who get the connection before the first close and before the caller calls off,
in order. -/
def admitted (log : List Occurrence) : List Writing :=
  (log.takeWhile (!·.stops)).filterMap Occurrence.writing?

/-- What those would write who get the connection only after that. -/
def late (log : List Occurrence) : List Writing :=
  (log.dropWhile (!·.stops)).filterMap Occurrence.writing?

/-- Those who get the connection to close it. -/
def closers (log : List Occurrence) : List Nat :=
  log.filterMap Occurrence.closer?

/-- Those who have closed the connection. -/
def closings (log : List Occurrence) : List Nat :=
  log.filterMap Occurrence.closing?

/-- The closing of a connection is noted when it has come to the end. -/
def closing (o : Outbound κ) (i : Nat) : List Occurrence :=
  match o.sink.close.1 with
  | some (.ok ()) => [.closed i]
  | _ => []

/-- What is noted when the first in line goes on. -/
def occurring (o : Outbound κ) : List Occurrence :=
  match o.line with
  | [] => []
  | i :: _ =>
    match o.users[i]? with
    | some ⟨.write channel payload, .waiting⟩ => [.acquired i (.write channel payload)]
    | some ⟨.close, .waiting⟩ => .acquired i .close :: if o.closed then [] else o.closing i
    | some ⟨.close, .holding _⟩ => o.closing i
    | _ => []

/-- The steps of a connection, with what is noted of them. -/
inductive Steps (o : Outbound κ) : List Occurrence → Outbound κ → Prop
  | refl : o.Steps [] o
  | advance {log o'} : o.Steps log o' → o.Steps (log ++ o'.occurring) o'.advance
  | join {log o'} (use : Use) : o.Steps log o' → o.Steps log (o'.join use)
  /-- Somebody gives up. -/
  | leave {log o'} {i : Nat} : o'.outcome? i = none → o.Steps log o' → o.Steps log (o'.leave i)
  /-- The outside does something to the connection. -/
  | happen {log o'} (deed : δ) : o.Steps log o' → o.Steps log (o'.happen deed)
  | callOff {log o'} : o.Steps log o' → o.Steps (log ++ [.calledOff]) { o' with fired := true }

theorem lasts_steps (o : Outbound κ) : Lasts fun o' => ∃ log, o.Steps log o' where
  advance := fun ⟨_, h⟩ => ⟨_, h.advance⟩
  join := fun use ⟨_, h⟩ => ⟨_, h.join use⟩
  leave := fun _ houtcome ⟨_, h⟩ => ⟨_, h.leave houtcome⟩
  happen := fun deed ⟨_, h⟩ => ⟨_, h.happen deed⟩

/-! ### The notes of several steps -/

/-- Nobody who gets the connection now writes any more. -/
def Stopped (log : List Occurrence) : Prop :=
  ∃ x ∈ log, x.stops = true

variable {log more : List Occurrence} {o o' : Outbound κ} {i : Nat}

theorem forall_not_stops (h : ¬ Stopped log) : ∀ x ∈ log, (!x.stops) = true := by
  intro x hx
  cases hstops : x.stops with
  | false => rfl
  | true => exact absurd ⟨x, hx, hstops⟩ h

theorem admitted_append (log more : List Occurrence) :
    admitted log <+: admitted (log ++ more) := by
  refine List.IsPrefix.filterMap _ ?_
  rw [List.takeWhile_append]
  split
  · exact (List.takeWhile_prefix _).trans (List.prefix_append _ _)
  · exact List.prefix_refl _

theorem admitted_append_of_not_stopped (h : ¬ Stopped log) (more : List Occurrence) :
    admitted (log ++ more) = admitted log ++ admitted more := by
  have hall := forall_not_stops h
  rw [admitted, admitted, List.takeWhile_append_of_pos hall, List.takeWhile_eq_self_iff.mpr hall,
    List.filterMap_append]
  rfl

theorem late_append_of_not_stopped (h : ¬ Stopped log) (more : List Occurrence) :
    late (log ++ more) = late more := by
  rw [late, List.dropWhile_append_of_pos (forall_not_stops h), late]

theorem late_append_of_stopped (h : Stopped log) (more : List Occurrence) :
    late (log ++ more) = late log ++ more.filterMap Occurrence.writing? := by
  obtain ⟨x, hx, hstops⟩ := h
  rw [late, List.dropWhile_append, if_neg, List.filterMap_append]
  · rfl
  · intro hnil
    have hgoes := List.dropWhile_eq_nil_iff.mp (List.isEmpty_iff.mp hnil) x hx
    rw [hstops] at hgoes
    cases hgoes

theorem closings_append (log more : List Occurrence) :
    closings (log ++ more) = closings log ++ closings more :=
  List.filterMap_append

/-! ### The line -/

/-- The first in line may hold the connection; all others in line wait, in the order in which they
came. -/
structure Queued (o : Outbound κ) : Prop where
  lined : o.Lined
  sorted : o.line.Pairwise (· < ·)
  inside : ∀ i ∈ o.line, i < o.users.length
  behind : ∀ i ∈ o.line.tail, ∃ use, o.users[i]? = some ⟨use, .waiting⟩

theorem users_move_of_ne {j : Nat} (o : Outbound κ) (h : i ≠ j) (turn : Turn) :
    (o.move i turn).users[j]? = o.users[j]? := by
  rw [getElem?_move]
  simp only [if_neg h, Option.map_id']

theorem users_move_self {u : User} (hu : o.users[i]? = some u) (turn : Turn) :
    (o.move i turn).users[i]? = some { u with turn } := by
  rw [getElem?_move, hu, Option.map_some, if_pos rfl]

theorem length_move (o : Outbound κ) (i : Nat) (turn : Turn) :
    (o.move i turn).users.length = o.users.length :=
  List.length_modify _ _ _

/-- Whoever holds the connection is the first in line. -/
theorem Queued.eq_of_holding {j : Nat} {use : Use} {frame : Option Bytes} {rest : List Nat}
    (h : o.Queued) (hline : o.line = i :: rest) (hu : o.users[j]? = some ⟨use, .holding frame⟩) :
    j = i := by
  have hj := h.lined j _ hu id
  rw [hline] at hj
  refine (List.mem_cons.mp hj).resolve_right fun hrest => ?_
  obtain ⟨_, hwaits⟩ := h.behind j (by rw [hline]; exact hrest)
  cases hu.symm.trans hwaits

/-- The order concerns the line and those who use the connection only. -/
theorem Queued.congr (h : o.Queued) (husers : o'.users = o.users) (hline : o'.line = o.line) :
    o'.Queued := by
  have hlined : o'.Lined := by
    unfold Lined
    rw [husers, hline]
    exact h.lined
  exact ⟨hlined, hline ▸ h.sorted, hline ▸ husers ▸ h.inside, hline ▸ husers ▸ h.behind⟩

/-- The first in line goes on. -/
theorem Queued.turned {rest : List Nat} (h : o.Queued) (hline : o.line = i :: rest)
    (turn : Turn) : (o.move i turn).Queued where
  lined := by
    intro j v hv hturn
    rw [getElem?_move] at hv
    obtain ⟨w, hw, rfl⟩ := Option.map_eq_some_iff.mp hv
    show j ∈ o.line
    split at hturn
    · rename_i hij
      rw [hline, hij]
      exact List.mem_cons_self
    · exact h.lined j w hw hturn
  sorted := h.sorted
  inside := fun j hj => (length_move o i turn).symm ▸ h.inside j hj
  behind := by
    intro j hj
    have hj : j ∈ o.line.tail := hj
    have hsorted := h.sorted
    rw [hline] at hj hsorted
    rw [users_move_of_ne o (Nat.ne_of_lt ((List.pairwise_cons.mp hsorted).1 j hj))]
    exact h.behind j (by rw [hline]; exact hj)

/-- The first in line goes. -/
theorem Queued.passed {rest : List Nat} (h : o.Queued) (hline : o.line = i :: rest)
    (hover : ∀ u, o.users[i]? = some u → u.turn.isOver) :
    ({ o with line := rest } : Outbound κ).Queued where
  lined := h.lined.passed hline hover
  sorted := by
    have hsorted := h.sorted
    rw [hline] at hsorted
    exact hsorted.tail
  inside := fun j hj => h.inside j (by rw [hline]; exact .tail _ hj)
  behind := fun j hj => h.behind j (by rw [hline]; exact List.mem_of_mem_tail hj)

theorem Queued.join (h : o.Queued) (use : Use) : (o.join use).Queued where
  lined := h.lined.join use
  sorted := by
    refine List.pairwise_append.mpr ⟨h.sorted, List.pairwise_singleton _ _, fun i hi j hj => ?_⟩
    rw [List.mem_singleton.mp hj]
    exact h.inside i hi
  inside := by
    intro i hi
    show i < (o.users ++ _).length
    rw [List.length_append]
    rcases List.mem_append.mp hi with hi | hi
    · exact Nat.lt_add_right _ (h.inside i hi)
    · rw [List.mem_singleton.mp hi]
      exact Nat.lt_add_one _
  behind := by
    intro i hi
    have hi : i ∈ (o.line ++ [o.users.length]).tail := hi
    cases hline : o.line with
    | nil =>
      rw [hline] at hi
      cases hi
    | cons j rest =>
      rw [hline] at hi
      rcases List.mem_append.mp hi with hi | hi
      · obtain ⟨other, hu⟩ := h.behind i (by rw [hline]; exact hi)
        exact ⟨other, getElem?_join hu use⟩
      · rw [List.mem_singleton.mp hi]
        exact ⟨use, List.getElem?_concat_length⟩

theorem Queued.leave (h : o.Queued) (i : Nat) : (o.leave i).Queued where
  lined := h.lined.leave i
  sorted := h.sorted.filter _
  inside := fun j hj => (length_move o i .left).symm ▸ h.inside j (List.filter_sublist.subset hj)
  behind := by
    intro j hj
    have hj : j ∈ (o.line.filter (· ≠ i)).tail := hj
    have hne : j ≠ i := by simpa using (List.mem_filter.mp (List.mem_of_mem_tail hj)).2
    show ∃ use, (o.move i .left).users[j]? = some ⟨use, .waiting⟩
    rw [users_move_of_ne o hne.symm]
    exact h.behind j (List.filter_sublist.tail.subset hj)

/-! ### What the notes say of the users -/

theorem outcome?_eq_some {outcome : Except ClientError Unit} :
    o.outcome? i = some outcome ↔ ∃ use, o.users[i]? = some ⟨use, .done outcome⟩ := by
  constructor
  · intro h
    unfold outcome? at h
    split at h
    · cases h
      exact ⟨_, ‹_›⟩
    · cases h
  · rintro ⟨use, hu⟩
    rw [outcome?, hu]

/-- Whoever has an outcome keeps it when somebody else goes on. -/
theorem outcome?_move {j : Nat} {outcome : Except ClientError Unit} (hnone : o.outcome? i = none)
    (h : o.outcome? j = some outcome) (turn : Turn) :
    (o.move i turn).outcome? j = some outcome := by
  have hne : i ≠ j := by
    rintro rfl
    cases hnone.symm.trans h
  obtain ⟨use, hu⟩ := outcome?_eq_some.mp h
  exact outcome?_eq_some.mpr ⟨use, (users_move_of_ne o hne turn).trans hu⟩

theorem outcome?_of_waiting {use : Use} (hu : o.users[i]? = some ⟨use, .waiting⟩) :
    o.outcome? i = none := by
  rw [outcome?, hu]

theorem outcome?_of_holding {use : Use} {frame : Option Bytes}
    (hu : o.users[i]? = some ⟨use, .holding frame⟩) : o.outcome? i = none := by
  rw [outcome?, hu]

/-- Who somebody is after somebody has gone on. -/
theorem users_move_cases {j : Nat} {turn after : Turn} {use : Use}
    (h : (o.move i turn).users[j]? = some ⟨use, after⟩) :
    i = j ∧ after = turn ∧ o.Uses i use ∨ i ≠ j ∧ o.users[j]? = some ⟨use, after⟩ := by
  by_cases hij : i = j
  · subst hij
    rw [getElem?_move] at h
    obtain ⟨u, hu, hself⟩ := Option.map_eq_some_iff.mp h
    rw [if_pos rfl] at hself
    cases hself
    exact .inl ⟨rfl, rfl, u.turn, hu⟩
  · rw [users_move_of_ne o hij] at h
    exact .inr ⟨hij, h⟩

/-- What the notes say of those who use the connection. -/
structure Noted (log : List Occurrence) (o : Outbound κ) : Prop where
  uses : ∀ i use, Occurrence.acquired i use ∈ log → o.Uses i use
  /-- Nobody holds the connection who never got it. -/
  held : ∀ i use frame, o.users[i]? = some ⟨use, .holding frame⟩ →
    Occurrence.acquired i use ∈ log
  /-- Nobody has an outcome who never got the connection. -/
  ended : ∀ i use outcome, o.users[i]? = some ⟨use, .done outcome⟩ →
    Occurrence.acquired i use ∈ log
  ordered : (acquirers log).Pairwise (· < ·)
  behind : ∀ j use, o.users[j]? = some ⟨use, .waiting⟩ → ∀ i ∈ acquirers log, i < j
  fired : o.fired = true ↔ Occurrence.calledOff ∈ log
  closed : o.closed = true ↔ closers log ≠ []
  refused : ∀ w ∈ late log, o.outcome? w.user = some (.error (o.failure .closed))
  repeated : ∀ i ∈ (closers log).tail, o.outcome? i = some (.ok ())

theorem noted_start (path : String) (state : κ) : Noted [] (start path state) where
  uses := fun _ _ h => absurd h List.not_mem_nil
  held := fun _ _ _ hu => by cases hu
  ended := fun _ _ _ hu => by cases hu
  ordered := .nil
  behind := fun _ _ _ _ h => absurd h List.not_mem_nil
  fired := ⟨nofun, fun h => absurd h List.not_mem_nil⟩
  closed := ⟨nofun, fun h => absurd rfl h⟩
  refused := fun _ h => absurd h List.not_mem_nil
  repeated := fun _ h => absurd h List.not_mem_nil

/-- The notes say nothing about the sink and the line. -/
theorem Noted.congr (h : Noted log o) (husers : o'.users = o.users) (hpath : o'.path = o.path)
    (hfired : o'.fired = o.fired) (hclosed : o'.closed = o.closed) : Noted log o' := by
  obtain ⟨path, sink, closed, fired, users, line⟩ := o
  obtain ⟨path', sink', closed', fired', users', line'⟩ := o'
  dsimp only at husers hpath hfired hclosed
  subst husers hpath hfired hclosed
  exact ⟨h.uses, h.held, h.ended, h.ordered, h.behind, h.fired, h.closed, h.refused, h.repeated⟩

theorem closers_ne_nil_iff : closers log ≠ [] ↔ ∃ i, Occurrence.acquired i .close ∈ log := by
  constructor
  · intro h
    obtain ⟨i, hi⟩ := List.exists_mem_of_ne_nil _ h
    obtain ⟨x, hx, hcloser⟩ := List.mem_filterMap.mp hi
    unfold Occurrence.closer? at hcloser
    split at hcloser
    · exact ⟨_, hx⟩
    · cases hcloser
  · rintro ⟨i, hi⟩
    exact List.ne_nil_of_mem (List.mem_filterMap.mpr ⟨_, hi, rfl⟩)

theorem Noted.stopped_iff (h : Noted log o) : Stopped log ↔ o.closed = true ∨ o.fired = true := by
  rw [h.closed, h.fired, closers_ne_nil_iff]
  constructor
  · rintro ⟨x, hx, hstops⟩
    unfold Occurrence.stops at hstops
    split at hstops
    · exact .inl ⟨_, hx⟩
    · exact .inr hx
    · cases hstops
  · rintro (⟨i, hi⟩ | hoff)
    · exact ⟨_, hi, rfl⟩
    · exact ⟨_, hoff, rfl⟩

/-- Somebody goes on who is not done. -/
theorem Noted.turned (h : Noted log o) (turn : Turn) (hnone : o.outcome? i = none)
    (hturn : turn ≠ .waiting)
    (hnoted : turn = .left ∨ ∀ use, o.Uses i use → Occurrence.acquired i use ∈ log) :
    Noted log (o.move i turn) where
  uses := fun j use hj => (h.uses j use hj).move turn
  held := by
    intro j use frame hu
    rcases users_move_cases hu with ⟨rfl, rfl, huses⟩ | ⟨-, hu⟩
    · exact hnoted.elim nofun fun hall => hall use huses
    · exact h.held j use frame hu
  ended := by
    intro j use outcome hu
    rcases users_move_cases hu with ⟨rfl, rfl, huses⟩ | ⟨-, hu⟩
    · exact hnoted.elim nofun fun hall => hall use huses
    · exact h.ended j use outcome hu
  ordered := h.ordered
  behind := by
    intro j use hu
    rcases users_move_cases hu with ⟨rfl, rfl, -⟩ | ⟨-, hu⟩
    · exact absurd rfl hturn
    · exact h.behind j use hu
  fired := h.fired
  closed := h.closed
  refused := fun w hw => outcome?_move hnone (h.refused w hw) turn
  repeated := fun j hj => outcome?_move hnone (h.repeated j hj) turn

/-- Whoever is there after somebody has come was there before, or has just come. -/
theorem users_join_cases {j : Nat} {v : User} {use : Use} (h : (o.join use).users[j]? = some v) :
    o.users[j]? = some v ∨ o.users.length = j ∧ v = ⟨use, .waiting⟩ := by
  have h : (o.users ++ [(⟨use, .waiting⟩ : User)])[j]? = some v := h
  rw [List.getElem?_append] at h
  split at h
  · exact .inl h
  · obtain ⟨hlt, rfl⟩ := List.getElem?_eq_some_iff.mp h
    rw [List.length_singleton] at hlt
    exact .inr ⟨by omega, List.getElem_singleton _⟩

/-- Whoever does not wait was there before. -/
theorem users_of_join {j : Nat} {v : User} {use : Use} (h : (o.join use).users[j]? = some v)
    (hturn : v.turn ≠ .waiting) : o.users[j]? = some v := by
  refine (users_join_cases h).resolve_right ?_
  rintro ⟨-, rfl⟩
  exact hturn rfl

theorem Noted.join (h : Noted log o) (use : Use) : Noted log (o.join use) := by
  have keeps {j : Nat} {outcome : Except ClientError Unit} (hj : o.outcome? j = some outcome) :
      (o.join use).outcome? j = some outcome := by
    obtain ⟨other, hu⟩ := outcome?_eq_some.mp hj
    exact outcome?_eq_some.mpr ⟨other, getElem?_join hu use⟩
  constructor
  · exact fun j other hj => (h.uses j other hj).imp fun _ hu => getElem?_join hu use
  · exact fun j other frame hu => h.held j other frame (users_of_join hu nofun)
  · exact fun j other outcome hu => h.ended j other outcome (users_of_join hu nofun)
  · exact h.ordered
  · intro j other hu i hi
    rcases users_join_cases hu with hu | ⟨rfl, -⟩
    · exact h.behind j other hu i hi
    · obtain ⟨x, hx, hacquirer⟩ := List.mem_filterMap.mp hi
      unfold Occurrence.acquirer? at hacquirer
      split at hacquirer
      · cases hacquirer
        obtain ⟨turn, hu⟩ := h.uses _ _ hx
        exact (List.getElem?_eq_some_iff.mp hu).1
      · cases hacquirer
  · exact h.fired
  · exact h.closed
  · exact fun w hw => keeps (h.refused w hw)
  · exact fun j hj => keeps (h.repeated j hj)

/-- Something is noted that nobody gets the connection by. -/
theorem Noted.note {x : Occurrence} {fired : Bool} (h : Noted log o)
    (hnobody : x.acquirer? = none) (hfired : fired = true ↔ .calledOff ∈ log ++ [x]) :
    Noted (log ++ [x]) { o with fired } := by
  have hwriting : x.writing? = none := by
    cases x with
    | acquired => cases hnobody
    | calledOff => rfl
    | closed => rfl
  have hcloser : x.closer? = none := by
    cases x with
    | acquired => cases hnobody
    | calledOff => rfl
    | closed => rfl
  have hacquired {j : Nat} {use : Use} (hj : Occurrence.acquired j use ∈ log ++ [x]) :
      Occurrence.acquired j use ∈ log := by
    refine (List.mem_append.mp hj).resolve_right fun hj => ?_
    rw [← List.mem_singleton.mp hj] at hnobody
    cases hnobody
  have hacquirers : acquirers (log ++ [x]) = acquirers log := by
    rw [acquirers, List.filterMap_append, List.filterMap_cons_none hnobody]
    exact List.append_nil _
  have hclosers : closers (log ++ [x]) = closers log := by
    rw [closers, List.filterMap_append, List.filterMap_cons_none hcloser]
    exact List.append_nil _
  have hlate : ∀ w ∈ late (log ++ [x]), w ∈ late log := by
    intro w hw
    by_cases hstopped : Stopped log
    · rw [late_append_of_stopped hstopped, List.filterMap_cons_none hwriting] at hw
      rwa [List.filterMap_nil, List.append_nil] at hw
    · rw [late_append_of_not_stopped hstopped] at hw
      have hnone := (List.dropWhile_sublist _).filterMap Occurrence.writing? |>.subset hw
      rw [List.filterMap_cons_none hwriting] at hnone
      cases hnone
  constructor
  · exact fun j use hj => h.uses j use (hacquired hj)
  · exact fun j use frame hu => List.mem_append_left _ (h.held j use frame hu)
  · exact fun j use outcome hu => List.mem_append_left _ (h.ended j use outcome hu)
  · exact hacquirers.symm ▸ h.ordered
  · exact fun j use hu => hacquirers.symm ▸ h.behind j use hu
  · exact hfired
  · exact hclosers.symm ▸ h.closed
  · exact fun w hw => h.refused w (hlate w hw)
  · exact hclosers.symm ▸ h.repeated

theorem Noted.callOff (h : Noted log o) : Noted (log ++ [.calledOff]) { o with fired := true } :=
  h.note rfl ⟨fun _ => List.mem_append_right _ List.mem_cons_self, fun _ => rfl⟩

theorem Noted.close (h : Noted log o) (i : Nat) : Noted (log ++ [.closed i]) o := by
  refine h.note rfl (h.fired.trans ⟨List.mem_append_left _, fun hoff => ?_⟩)
  exact (List.mem_append.mp hoff).resolve_right fun hi => by cases List.mem_singleton.mp hi

/-- Who gets the connection is the last to have got it. -/
theorem acquirers_append_acquired (log : List Occurrence) (i : Nat) (use : Use) :
    acquirers (log ++ [.acquired i use]) = acquirers log ++ [i] := by
  rw [acquirers, List.filterMap_append]
  rfl

/-- Who gets the connection is too late only to write, and only if it has been closed before. -/
theorem mem_late_acquired {use : Use} {w : Writing} (hw : w ∈ late (log ++ [.acquired i use])) :
    w ∈ late log ∨ w.user = i ∧ use ≠ .close ∧ Stopped log := by
  by_cases hstopped : Stopped log
  · rw [late_append_of_stopped hstopped] at hw
    refine (List.mem_append.mp hw).imp id fun hw => ?_
    cases use with
    | write channel payload =>
      rw [List.mem_singleton.mp hw]
      exact ⟨rfl, nofun, hstopped⟩
    | close => cases hw
  · rw [late_append_of_not_stopped hstopped] at hw
    cases use <;> cases hw

/-- Who gets the connection closes it again only if somebody got it to close it before. -/
theorem mem_closers_acquired {use : Use} {j : Nat}
    (hj : j ∈ (closers (log ++ [.acquired i use])).tail) :
    j ∈ (closers log).tail ∨ j = i ∧ use = .close ∧ closers log ≠ [] := by
  rw [closers, List.filterMap_append] at hj
  cases use with
  | write channel payload =>
    refine .inl ?_
    rwa [List.filterMap_cons_none rfl, List.filterMap_nil, List.append_nil] at hj
  | close =>
    by_cases hnil : closers log = []
    · rw [← closers, hnil] at hj
      cases hj
    · rw [← closers, List.tail_append_of_ne_nil hnil] at hj
      exact (List.mem_append.mp hj).imp id fun hj => ⟨List.mem_singleton.mp hj, rfl, hnil⟩

theorem closers_acquired_ne_nil_iff {use : Use} :
    closers (log ++ [.acquired i use]) ≠ [] ↔ closers log ≠ [] ∨ use = .close := by
  rw [closers_ne_nil_iff, closers_ne_nil_iff]
  constructor
  · rintro ⟨j, hj⟩
    rcases List.mem_append.mp hj with hj | hj
    · exact .inl ⟨j, hj⟩
    · cases List.mem_singleton.mp hj
      exact .inr rfl
  · rintro (⟨j, hj⟩ | rfl)
    · exact ⟨j, List.mem_append_left _ hj⟩
    · exact ⟨i, List.mem_append_right _ List.mem_cons_self⟩

/-- Somebody gets the connection: too late to write, to close it again, or to do something with
it. -/
theorem Noted.acquire {use : Use} {turn : Turn} {closed : Bool} {rest : List Nat}
    (h : Noted log o) (hq : o.Queued) (hline : o.line = i :: rest)
    (hu : o.users[i]? = some ⟨use, .waiting⟩) (hturn : turn ≠ .waiting)
    (hclosed : closed = true ↔ o.closed = true ∨ use = .close)
    (hrefused : o.closed = true ∨ o.fired = true → use ≠ .close →
      turn = .done (.error (o.failure .closed)))
    (hrepeated : o.closed = true → use = .close → turn = .done (.ok ())) :
    Noted (log ++ [.acquired i use]) ({ o with closed }.move i turn) := by
  have hnone := outcome?_of_waiting hu
  have hself : (o.move i turn).users[i]? = some ⟨use, turn⟩ := users_move_self hu turn
  have hmem : Occurrence.acquired i use ∈ log ++ [.acquired i use] :=
    List.mem_append_right _ List.mem_cons_self
  have huse {other : Use} (hother : o.Uses i other) : other = use := by
    obtain ⟨turn, hother⟩ := hother
    cases hu.symm.trans hother
    rfl
  exact {
    uses := by
      intro j other hj
      rcases List.mem_append.mp hj with hj | hj
      · exact (h.uses j other hj).move turn
      · cases List.mem_singleton.mp hj
        exact ⟨turn, hself⟩
    held := by
      intro j other frame hother
      rcases users_move_cases (o := o) hother with ⟨rfl, -, huses⟩ | ⟨-, hother⟩
      · rw [huse huses]
        exact hmem
      · exact List.mem_append_left _ (h.held j other frame hother)
    ended := by
      intro j other outcome hother
      rcases users_move_cases (o := o) hother with ⟨rfl, -, huses⟩ | ⟨-, hother⟩
      · rw [huse huses]
        exact hmem
      · exact List.mem_append_left _ (h.ended j other outcome hother)
    ordered := by
      rw [acquirers_append_acquired]
      refine List.pairwise_append.mpr
        ⟨h.ordered, List.pairwise_singleton _ _, fun j hj k hk => ?_⟩
      rw [List.mem_singleton.mp hk]
      exact h.behind i use hu j hj
    behind := by
      intro j other hother k hk
      rw [acquirers_append_acquired] at hk
      rcases users_move_cases (o := o) hother with ⟨-, rfl, -⟩ | ⟨hne, hother⟩
      · exact absurd rfl hturn
      · rcases List.mem_append.mp hk with hk | hk
        · exact h.behind j other hother k hk
        · -- who comes after the first in line waits in line
          rw [List.mem_singleton.mp hk]
          have hsorted := hq.sorted
          rw [hline, List.pairwise_cons] at hsorted
          exact hsorted.1 j (mem_rest_of_ne hline (hq.lined j _ hother id) hne)
    fired := h.fired.trans ⟨List.mem_append_left _, fun hoff =>
      (List.mem_append.mp hoff).resolve_right fun hi => by cases List.mem_singleton.mp hi⟩
    closed := hclosed.trans ((or_congr_left h.closed).trans closers_acquired_ne_nil_iff.symm)
    refused := by
      intro w hw
      rcases mem_late_acquired hw with hw | ⟨huser, hne, hstopped⟩
      · exact outcome?_move hnone (h.refused w hw) turn
      · rw [huser]
        exact outcome?_eq_some.mpr ⟨use, hrefused (h.stopped_iff.mp hstopped) hne ▸ hself⟩
    repeated := by
      intro j hj
      rcases mem_closers_acquired hj with hj | ⟨rfl, hclose, hnil⟩
      · exact outcome?_move hnone (h.repeated j hj) turn
      · exact outcome?_eq_some.mpr ⟨use, hrepeated (h.closed.mpr hnil) hclose ▸ hself⟩ }

end Outbound
end KubeClient
