import KubeClient.Proofs.OutboundFrames
import KubeClient.Proofs.SessionRun
import Mathlib.Data.List.Induction

/-!
# What a session writes

Those who write to a session and those who close it share one connection, of whatever kind it is and
whatever else happens to the session in between.

* `Session.Recorded` : what is noted of the connection of a session, event by event;
* `Session.Alike` : two sessions that send the same whatever happens to both;
* `Session.Written` : who hands over which frames.
-/

namespace KubeClient.Session

variable {κ δ : Type} [Connection κ δ] {s t : Session κ} {es : List (Event δ)}
  {log : List Outbound.Occurrence}

/-! ### What is noted of a session -/

/-- What is noted of the connection of a session: each event takes it some steps further. -/
inductive Recorded (s : Session κ) : List (Event δ) → List Outbound.Occurrence → Prop
  | start : s.Recorded [] []
  | event {es log more} (e : Event δ) : s.Recorded es log →
      (s.run es).outbound.Steps more (s.run (es ++ [e])).outbound →
      s.Recorded (es ++ [e]) (log ++ more)

/-- An event takes the connection some steps further. -/
theorem exists_steps (s : Session κ) (e : Event δ) :
    ∃ more, s.outbound.Steps more (s.perform e).outbound :=
  perform_lasts s.outbound.lasts_steps (fun _ _ ⟨_, h⟩ => ⟨_, h.callOff⟩)
    (fun _ _ _ hnone ⟨_, h⟩ => ⟨_, h.leave hnone⟩) ⟨[], .refl⟩

theorem exists_recorded (s : Session κ) (es : List (Event δ)) : ∃ log, s.Recorded es log := by
  induction es using List.reverseRecOn with
  | nil => exact ⟨[], .start⟩
  | append_singleton es e ih =>
    obtain ⟨log, hlog⟩ := ih
    obtain ⟨more, hmore⟩ := (s.run es).exists_steps e
    refine ⟨log ++ more, hlog.event e ?_⟩
    rw [run_append]
    exact hmore

/-- What the notes say stays true through a run. -/
theorem Recorded.ledger {given : List Outbound.Writing} (h : s.Recorded es log)
    (hstart : Outbound.Ledger [] given s.outbound) :
    ∃ given', Outbound.Ledger log given' (s.run es).outbound := by
  induction h with
  | start => exact ⟨given, hstart⟩
  | event e _ hsteps ih =>
    obtain ⟨_, hledger⟩ := ih
    exact hledger.steps hsteps

/-! ### Sessions that send the same -/

/-- The owner of a session neither waits for the outcome nor closes the connection. -/
structure Idle (s : Session κ) : Prop where
  joining : s.ownership ≠ .joining
  closing : ∀ user outcome, s.ownership ≠ .closing user outcome

theorem Idle.of_ownership (h : s.Idle) (hsame : t.ownership = s.ownership) : t.Idle :=
  ⟨hsame ▸ h.joining, hsame ▸ h.closing⟩

theorem Idle.settle (h : s.Idle) : s.settle.Idle := by
  refine h.of_ownership (settle_induction (P := fun t => t.ownership = s.ownership)
    (fun t ht => (ownership_settleInbound t).trans ht) (fun t ht => ht) (fun t ht => ?_)
    (fun t ht => ?_) rfl)
  · rw [settleJoin_of_ne (ht ▸ h.joining)]
    exact ht
  · rw [settleClose_of_ne (ht ▸ h.closing)]
    exact ht

theorem idle_letGo (s : Session κ) : s.letGo.Idle := by
  have hdropped : s.letGo.ownership = .concluded .dropped := ownership_settleInbound _
  constructor
  all_goals simp [hdropped]

/-- Two sessions whose owners do not use the connection, and who send the same. -/
structure Alike (s t : Session κ) : Prop where
  idle : s.Idle
  idle' : t.Idle
  outbound : t.outbound = s.outbound

theorem alike_settle (hs : s.Idle) (ht : t.Idle) (h : t.outbound = s.outbound) :
    Alike s.settle t.settle := by
  refine ⟨hs.settle, ht.settle, ?_⟩
  rw [settle_outbound_of_ne hs.joining, settle_outbound_of_ne ht.joining, h]

omit [Connection κ δ] in
/-- Nobody writes in this event. -/
theorem Alike.rest {s' t' : Session κ} {e e' : Event δ} (h : Alike s t) (hs : Rests e s s')
    (ht : Rests e' t t') : Alike s' t' :=
  ⟨h.idle.of_ownership hs.ownership, h.idle'.of_ownership ht.ownership,
    ht.outbound.trans (h.outbound.trans hs.outbound.symm)⟩

/-- The connections of both go on in the same way. -/
theorem Alike.sends (h : Alike s t) (next : Outbound κ → Outbound κ) :
    Alike (settle { s with outbound := next s.outbound })
      (settle { t with outbound := next t.outbound }) :=
  alike_settle ⟨h.idle.joining, h.idle.closing⟩ ⟨h.idle'.joining, h.idle'.closing⟩
    (congrArg next h.outbound)

theorem Alike.abandon (h : Alike s t) (user : Nat) : Alike (s.abandon user) (t.abandon user) := by
  rw [Session.abandon, Session.abandon, h.outbound]
  split
  · exact h.outbound ▸ h.sends (·.leave user)
  · exact h

/-- An owner drops its session, or has no session to drop. -/
theorem Idle.drop (h : s.Idle) : s.drop.Idle ∧ s.drop.outbound = s.outbound := by
  rw [Session.drop]
  split
  · exact ⟨idle_letGo s, outbound_letGo s⟩
  · exact ⟨h, rfl⟩

/-- An owner who waits for nothing has nothing to give up. -/
theorem Idle.giveUp (h : s.Idle) : s.giveUp = s := by
  unfold Session.giveUp
  split
  · rename_i howns
    exact absurd howns h.joining
  · rename_i howns
    exact absurd howns (h.closing _ _)
  · rfl

theorem perform_tryWrite (s : Session κ) (channel : Channel) (payload : Bytes) :
    s.perform (.tryWrite channel payload : Event δ) =
      let written := (s.write channel payload).1
      match written.outbound.outcome? s.outbound.users.length with
      | some _ => written
      | none => written.abandon s.outbound.users.length := by
  have houtcome (outcome : Option (Except ClientError Unit)) (written given : Session κ) :
      (match outcome with
        | some outcome => (some outcome, written)
        | none => (none, given)).2 =
      match outcome with
        | some _ => written
        | none => given := by
    cases outcome <;> rfl
  exact houtcome _ _ _

theorem Alike.perform (h : Alike s t) {e : Event δ} (hjoin : e ≠ .join) (hclose : e ≠ .close) :
    Alike (s.perform e) (t.perform e) := by
  cases e with
  | receive m =>
    exact alike_settle ⟨h.idle.joining, h.idle.closing⟩ ⟨h.idle'.joining, h.idle'.closing⟩
      h.outbound
  | take stderr size => exact h.rest (rests_take s stderr size) (rests_take t stderr size)
  | takeReader stderr => exact h.rest (rests_takeReader s stderr) (rests_takeReader t stderr)
  | write channel payload => exact h.sends (·.join (.write channel payload))
  | tryWrite channel payload =>
    have hwritten : Alike (s.write channel payload).1 (t.write channel payload).1 :=
      h.sends (·.join (.write channel payload))
    rw [perform_tryWrite, perform_tryWrite, h.outbound]
    dsimp only
    rw [hwritten.outbound]
    split
    · exact hwritten
    · exact hwritten.abandon _
  | abandon user => exact h.abandon user
  | join => exact absurd rfl hjoin
  | close => exact absurd rfl hclose
  | drop =>
    obtain ⟨hidle, hs⟩ := h.idle.drop
    obtain ⟨hidle', ht⟩ := h.idle'.drop
    exact ⟨hidle, hidle', ht.trans (h.outbound.trans hs.symm)⟩
  | giveUp =>
    rw [Session.perform, Session.perform, h.idle.giveUp, h.idle'.giveUp]
    exact h
  | callOff => exact h.sends ({ · with fired := true })
  | happen deed => exact h.sends (·.happen deed)
  | addWriter => exact h.rest (rests_addWriter s) (rests_addWriter t)
  | dropWriter => exact h.rest (rests_dropWriter s) (rests_dropWriter t)

theorem Alike.run (h : Alike s t) (hes : ∀ e ∈ es, e ≠ .join ∧ e ≠ .close) :
    Alike (s.run es) (t.run es) := by
  induction es generalizing s t with
  | nil => exact h
  | cons e es ih =>
    obtain ⟨hjoin, hclose⟩ := hes e List.mem_cons_self
    exact ih (h.perform hjoin hclose) fun e he => hes e (List.mem_cons_of_mem _ he)

/-- Dropping a session changes nothing for those who write to it. -/
theorem run_drop (s : Session κ) (hes : ∀ e ∈ es, e ≠ .join ∧ e ≠ .close) :
    ((s.perform (.drop : Event δ)).run es).outbound = (s.run es).outbound := by
  cases howned : s.isOwned with
  | false =>
    have hdrop : s.perform (.drop : Event δ) = s := by
      rw [perform, drop, howned]
      rfl
    rw [hdrop]
  | true =>
    have hidle : s.Idle := by
      constructor
      all_goals simp [ownership_of_isOwned howned]
    obtain ⟨hdropped, hsame⟩ := hidle.drop
    exact (Alike.run ⟨hidle, hdropped, hsame⟩ hes).outbound

/-! ### Who hands over which frames -/

/-- What those bring about who write to a session and close it, over a connection that begins in any
state: the notes of a run say who gets the connection, in which order, and when the caller calls
off. -/
structure Written (path : String) (serializer : Serializer) (state : κ) (es : List (Event δ)) :
    Prop where
  recorded : ∃ log, (startOn path serializer state).Recorded es log
  orderly : ∀ log, (startOn path serializer state).Recorded es log →
    ∃ handed, Outbound.Orderly log handed ((startOn path serializer state).run es).outbound
  /-- Those who write go on as if the owner, who does nothing more, had kept the session. -/
  dropped : ∀ es', (∀ e ∈ es', e ≠ .join ∧ e ≠ .close) →
    ((startOn path serializer state).run (es ++ .drop :: es')).outbound =
      ((startOn path serializer state).run (es ++ es')).outbound

theorem written_run (path : String) (serializer : Serializer) (state : κ) (es : List (Event δ)) :
    Written path serializer state es where
  recorded := exists_recorded _ es
  orderly := fun log hlog => by
    obtain ⟨given, hledger⟩ := hlog.ledger (Outbound.ledger_start path state)
    exact ⟨_, Outbound.orderly_of_ledger hledger⟩
  dropped := fun es' hes' => by
    rw [run_append, run_append]
    exact run_drop _ hes'

/-- A write that waits for a slow peer goes out before the connection is closed; those behind it do
not. -/
example :
    let s := (start "/" ⟨"application/json", .json⟩ true).run
      [.write .stdin [1], .write .stdin [2], .close, .write .stdin [3], .readFrame, .readFrame]
    s.outbound.sink.wire.frames = [[0, 1], [0, 2]] ∧ s.outbound.sink.wire.closed = true := by
  exact ⟨rfl, rfl⟩

/-- An owner who gives up closing the connection while somebody else holds it does not close it. -/
example :
    let s := (start "/" ⟨"application/json", .json⟩ true).run
      [.write .stdin [1], .close, .giveUp, .write .stdin [2], .readFrame, .readFrame]
    s.outbound.sink.wire.frames = [[0, 1], [0, 2]] ∧ s.outbound.closed = false := by
  exact ⟨rfl, rfl⟩

end KubeClient.Session
