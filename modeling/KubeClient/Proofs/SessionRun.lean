import KubeClient.Exec.Session
import KubeClient.Proofs.Demultiplexing
import KubeClient.Proofs.PeerLine

/-!
# Runs of a session

* `Session.Event`, `Session.perform`, `Session.run` : what can happen to a session, in any order;
* `Session.delivered` : the bytes that a reader gets in a run;
* `Session.settle_induction`, `Session.perform_induction`, `Session.run_induction` : what settling,
  an event and a run keep;
* `Session.Sound`, `Session.sound_run` : what holds after every run.
-/

namespace KubeClient

namespace Session

variable {κ δ : Type} [Connection κ δ]

/-! ### The readers -/

/-- The owner has given a reader away. -/
def isTaken (s : Session κ) (stderr : Bool) : Bool :=
  if stderr then s.stderrTaken else s.stdoutTaken

theorem takeOutput_of_taken {s : Session κ} {stderr : Bool} (h : s.isTaken stderr = true)
    (take : Output → Bool → Received × Output) :
    s.takeOutput stderr take =
      let (got, output) := take (s.inbound.output stderr) s.inbound.hasEnded
      (some got, { s with inbound := s.inbound.setOutput stderr output }) := by
  cases stderr with
  | false => exact if_pos h
  | true => exact if_pos h

theorem takeOutput_of_free {s : Session κ} {stderr : Bool} (h : s.isTaken stderr = false)
    (take : Output → Bool → Received × Output) : s.takeOutput stderr take = (none, s) := by
  have hne : ¬ s.isTaken stderr = true := by
    rw [h]
    exact Bool.false_ne_true
  cases stderr with
  | false => exact if_neg hne
  | true => exact if_neg hne

/-! ### Runs -/

/-- What can happen to a session; `δ` is what the outside can do to its connection. -/
inductive Event (δ : Type := Peer.Deed)
  | receive (m : Message)
  /-- A reader takes the next chunk, or at most so many bytes. -/
  | take (stderr : Bool) (size : Option Nat)
  | takeReader (stderr : Bool)
  | write (channel : Channel) (payload : Bytes)
  | tryWrite (channel : Channel) (payload : Bytes)
  /-- Somebody who has come to write gives up. -/
  | abandon (user : Nat)
  | join
  | close
  | drop
  /-- The owner gives up waiting for the outcome, or for the connection to be closed. -/
  | giveUp
  | callOff
  | happen (deed : δ)
  | addWriter
  | dropWriter
  deriving DecidableEq

/-- The peer reads a frame. -/
abbrev Event.readFrame : Event :=
  .happen .reads

/-- The message that comes. -/
def Event.message? : Event δ → Option Message
  | .receive m => some m
  | _ => none

/-- Nothing is received any more after this event. -/
def Event.ends : Event δ → Bool
  | .receive m => m.isStop
  | .close | .drop | .giveUp | .callOff => true
  | _ => false

/-- The owner makes up its mind how to end the session. -/
def Event.concludes : Event δ → Bool
  | .join | .close | .drop => true
  | _ => false

/-- An event happens. -/
def perform (s : Session κ) : Event δ → Session κ
  | .receive m => s.receive m
  | .take stderr size => (s.takeOutput stderr (·.take size ·)).2
  | .takeReader stderr => (s.takeReader stderr).2
  | .write channel payload => (s.write channel payload).1
  | .tryWrite channel payload => (s.tryWrite channel payload).2
  | .abandon user => s.abandon user
  | .join => s.join
  | .close => s.close
  | .drop => s.drop
  | .giveUp => s.giveUp
  | .callOff => s.callOff
  | .happen deed => s.happen deed
  | .addWriter => s.addWriter
  | .dropWriter => s.dropWriter

/-- Events happen one after the other. -/
def run (s : Session κ) (es : List (Event δ)) : Session κ :=
  es.foldl perform s

theorem run_append (s : Session κ) (es es' : List (Event δ)) :
    s.run (es ++ es') = (s.run es).run es' :=
  List.foldl_append

/-- What every event of a run keeps, the run keeps. -/
theorem run_induction {P : Session κ → Prop} {s : Session κ} {es : List (Event δ)}
    (event : ∀ t e, e ∈ es → P t → P (t.perform e)) (h : P s) : P (s.run es) :=
  List.foldlRecOn es perform h fun t ht e he => event t e he ht

/-- What an event brings to a reader. -/
def gain (s : Session κ) (stderr : Bool) : Event δ → Bytes
  | .take ofStderr size =>
    if ofStderr = stderr then
      ((s.takeOutput ofStderr (·.take size ·)).1.map Received.toBytes).getD []
    else []
  | _ => []

/-- The bytes that a reader gets in a run. -/
def delivered (s : Session κ) (stderr : Bool) : List (Event δ) → Bytes
  | [] => []
  | e :: es => s.gain stderr e ++ (s.perform e).delivered stderr es

theorem delivered_append (s : Session κ) (stderr : Bool) (es es' : List (Event δ)) :
    s.delivered stderr (es ++ es') = s.delivered stderr es ++ (s.run es).delivered stderr es' := by
  induction es generalizing s with
  | nil => rfl
  | cons e es ih =>
    rw [List.cons_append, delivered, delivered, ih, List.append_assoc]
    rfl

/-! ### Settling -/

variable {s : Session κ}

/-- What every part of settling keeps, settling keeps. -/
theorem settle_induction {P : Session κ → Prop} (inbound : ∀ s, P s → P s.settleInbound)
    (outbound : ∀ s, P s → P s.settleOutbound) (join : ∀ s, P s → P s.settleJoin)
    (close : ∀ s, P s → P s.settleClose) (h : P s) : P s.settle :=
  inbound _ (close _ (join _ (outbound _ (inbound _ h))))

theorem outbound_settleInbound (s : Session κ) : s.settleInbound.outbound = s.outbound := by
  rw [settleInbound]
  split <;> rfl

theorem outbound_settleClose (s : Session κ) : s.settleClose.outbound = s.outbound := by
  rw [settleClose]
  repeat' split
  all_goals rfl

theorem inbound_settleClose (s : Session κ) : s.settleClose.inbound = s.inbound := by
  rw [settleClose]
  repeat' split
  all_goals rfl

theorem inbound_settleJoin (s : Session κ) : s.settleJoin.inbound = s.inbound := by
  rw [settleJoin]
  split <;> rfl

theorem outbound_letGo (s : Session κ) : s.letGo.outbound = s.outbound :=
  outbound_settleInbound _

theorem settleInbound_of_ended (h : s.inbound.hasEnded = true) : s.settleInbound = s := by
  rw [settleInbound]
  split
  · rw [Inbound.callOff_of_ended h]
  · rfl

theorem settleInbound_inbound {P : Inbound → Prop} (callOff : ∀ i, P i → P i.callOff)
    (h : P s.inbound) : P s.settleInbound.inbound := by
  rw [settleInbound]
  split
  · exact callOff _ h
  · exact h

/-- Settling calls off the reading at most. -/
theorem settle_inbound {P : Inbound → Prop} (callOff : ∀ i, P i → P i.callOff)
    (h : P s.inbound) : P s.settle.inbound := by
  refine settle_induction (P := fun s => P s.inbound)
    (fun s h => settleInbound_inbound callOff h) (fun s h => h) (fun s h => ?_) (fun s h => ?_) h
  · exact (inbound_settleJoin s).symm ▸ h
  · exact (inbound_settleClose s).symm ▸ h

theorem serializer_settleInbound (s : Session κ) : s.settleInbound.serializer = s.serializer := by
  rw [settleInbound]
  split <;> rfl

theorem settle_serializer (s : Session κ) : s.settle.serializer = s.serializer := by
  refine settle_induction (P := fun t => t.serializer = s.serializer)
    (fun t h => (serializer_settleInbound t).trans h) (fun t h => h) (fun t h => ?_)
    (fun t h => ?_) rfl
  · rw [settleJoin]
    split <;> exact h
  · rw [settleClose]
    repeat' split
    all_goals exact h

theorem settle_lasts {P : Outbound κ → Prop} (hP : Outbound.Lasts P) (h : P s.outbound) :
    P s.settle.outbound := by
  refine settle_induction (P := fun s => P s.outbound) (fun s h => ?_) (fun s h => hP.settle h)
    (fun s h => ?_) (fun s h => ?_) h
  · exact (outbound_settleInbound s).symm ▸ h
  · rw [settleJoin]
    split
    · exact hP.settle (hP.join .close h)
    · exact h
  · exact (outbound_settleClose s).symm ▸ h

theorem settle_settled (s : Session) : s.settle.outbound.Settled := by
  have hjoin : s.settleInbound.settleOutbound.settleJoin.outbound.Settled := by
    rw [settleJoin]
    split
    · exact Outbound.settled_settle _
    · exact Outbound.settled_settle _
  rw [settle, outbound_settleInbound, outbound_settleClose]
  exact hjoin

theorem ownership_settleInbound (s : Session κ) : s.settleInbound.ownership = s.ownership := by
  rw [settleInbound]
  split <;> rfl

theorem settleJoin_of_ne (h : s.ownership ≠ .joining) : s.settleJoin = s := by
  rw [settleJoin]
  split
  · rename_i howns _
    exact absurd howns h
  · rfl

theorem settleClose_of_ne (h : ∀ user o, s.ownership ≠ .closing user o) : s.settleClose = s := by
  rw [settleClose]
  split
  · rename_i howns
    exact absurd howns (h _ _)
  · rfl

theorem settle_outbound_of_ne (h : s.ownership ≠ .joining) :
    s.settle.outbound = s.outbound.settle := by
  have hjoin : s.settleInbound.settleOutbound.settleJoin = s.settleInbound.settleOutbound :=
    settleJoin_of_ne ((ownership_settleInbound s).symm ▸ h)
  rw [settle, outbound_settleInbound, outbound_settleClose, hjoin, settleOutbound,
    outbound_settleInbound]

/-! ### One event -/

/-- What an event does that nothing has to settle after. -/
structure Rests (e : Event δ) (s t : Session κ) : Prop where
  ownership : t.ownership = s.ownership
  outbound : t.outbound = s.outbound
  serializer : t.serializer = s.serializer
  outcome : t.inbound.outcome = s.inbound.outcome
  inbound : (∀ stderr size, e ≠ .take stderr size) → t.inbound = s.inbound

/-- What an event does before everything settles. -/
inductive Changes : Event δ → Session κ → Session κ → Prop
  | receive (s : Session κ) (m : Message) :
      Changes (.receive m) s
        { s with inbound := s.inbound.receive s.serializer s.outbound.path m }
  | sends {e : Event δ} (s : Session κ) (o : Outbound κ) :
      (∀ P, Outbound.Lasts P → P s.outbound → P o) → Changes e s { s with outbound := o }
  | callOff (s : Session κ) :
      Changes .callOff s { s with outbound := { s.outbound with fired := true } }
  | join (s : Session κ) : s.ownership = .owned → Changes .join s { s with ownership := .joining }
  | close (s : Session κ) : s.ownership = .owned → Changes .close s (s.startClosing none)
  | giveUp (s : Session κ) (user : Nat) (outcome : Option (Except ClientError Status)) :
      s.ownership = .closing user outcome →
      Changes .giveUp s { s.letGo with outbound := s.outbound.giveUp user }

/-- The owner lets the session go by this event. -/
inductive LetsGo (s : Session κ) : Event δ → Prop
  | drop : s.ownership = .owned → s.LetsGo .drop
  | giveUp : s.ownership = .joining → s.LetsGo .giveUp

theorem ownership_of_isOwned (h : s.isOwned = true) : s.ownership = .owned := by
  unfold isOwned at h
  split at h
  · assumption
  · exact absurd h Bool.false_ne_true

omit [Connection κ δ] in
theorem Rests.refl (e : Event δ) (s : Session κ) : Rests e s s :=
  ⟨rfl, rfl, rfl, rfl, fun _ => rfl⟩

theorem rests_take (s : Session κ) (stderr : Bool) (size : Option Nat) :
    Rests (.take stderr size : Event δ) s (s.perform (.take stderr size)) := by
  rw [perform]
  cases h : s.isTaken stderr with
  | false =>
    rw [takeOutput_of_free h]
    exact .refl _ s
  | true =>
    rw [takeOutput_of_taken h]
    exact ⟨rfl, rfl, rfl, Inbound.outcome_setOutput _ _ _, fun hne => absurd rfl (hne _ _)⟩

theorem rests_takeReader (s : Session κ) (stderr : Bool) :
    Rests (.takeReader stderr : Event δ) s (s.perform (.takeReader stderr)) := by
  rw [perform, takeReader]
  dsimp only
  repeat' split
  all_goals exact ⟨rfl, rfl, rfl, rfl, fun _ => rfl⟩

theorem rests_addWriter (s : Session κ) :
    Rests (.addWriter : Event δ) s (s.perform (.addWriter : Event δ)) :=
  ⟨rfl, rfl, rfl, rfl, fun _ => rfl⟩

theorem rests_dropWriter (s : Session κ) :
    Rests (.dropWriter : Event δ) s (s.perform (.dropWriter : Event δ)) :=
  ⟨rfl, rfl, rfl, rfl, fun _ => rfl⟩

theorem uses_of_isWriting {o : Outbound κ} {i : Nat} (h : o.isWriting i = true) :
    (∃ channel payload, o.Uses i (.write channel payload)) ∧ o.outcome? i = none := by
  unfold Outbound.isWriting at h
  split at h
  · rename_i hu
    exact ⟨⟨_, _, _, hu⟩, by rw [Outbound.outcome?, hu]⟩
  · rename_i hu
    exact ⟨⟨_, _, _, hu⟩, by rw [Outbound.outcome?, hu]⟩
  · cases h

/-- Whatever each part of an event keeps, the event keeps; `R` holds until everything has
settled. -/
theorem perform_induction {P R : Session κ → Prop} {e : Event δ}
    (settle : ∀ t, R t → P t.settle) (letGo : ∀ t, t.LetsGo e → P t → P t.letGo)
    (rest : ∀ t t', Rests e t t' → P t → P t') (change : ∀ t t', Changes e t t' → P t → R t')
    (h : P s) : P (s.perform e) := by
  have owner {t : Session κ} (ht : s.ownership = .owned → Changes e s t) :
      P (if s.isOwned then t.settle else s) := by
    split
    · rename_i howned
      exact settle _ (change _ _ (ht (ownership_of_isOwned howned)) h)
    · exact h
  have writes (channel : Channel) (payload : Bytes) : P (s.write channel payload).1 :=
    settle _ (change _ _ (.sends s _ fun _ hQ hs => hQ.join _ hs) h)
  have abandons {t : Session κ} (user : Nat) (ht : P t) : P (t.abandon user) := by
    rw [abandon]
    split
    · rename_i hwriting
      obtain ⟨⟨_, _, huses⟩, hnone⟩ := uses_of_isWriting hwriting
      exact settle _ (change _ _ (.sends t _ fun _ hQ hs => hQ.leave huses hnone hs) ht)
    · exact ht
  cases e with
  | receive m => exact settle _ (change _ _ (.receive s m) h)
  | take stderr size => exact rest _ _ (rests_take s stderr size) h
  | takeReader stderr => exact rest _ _ (rests_takeReader s stderr) h
  | write channel payload => exact writes channel payload
  | tryWrite channel payload =>
    rw [perform, tryWrite]
    dsimp only
    split
    · exact writes channel payload
    · exact abandons _ (writes channel payload)
  | abandon user => exact abandons user h
  | join => exact owner (.join s)
  | close => exact owner (.close s)
  | drop =>
    rw [perform, drop]
    split
    · rename_i howned
      exact letGo s (.drop (ownership_of_isOwned howned)) h
    · exact h
  | giveUp =>
    rw [perform, giveUp]
    split
    · rename_i howns
      exact letGo s (.giveUp howns) h
    · rename_i user outcome howns
      exact settle _ (change _ _ (.giveUp s user outcome howns) h)
    · exact h
  | callOff => exact settle _ (change _ _ (.callOff s) h)
  | happen deed => exact settle _ (change _ _ (.sends s _ fun _ hQ hs => hQ.happen deed hs) h)
  | addWriter => exact rest _ _ (rests_addWriter s) h
  | dropWriter => exact rest _ _ (rests_dropWriter s) h

theorem giveUp_keeps {P : Outbound κ → Prop} {o : Outbound κ} (i : Nat)
    (hleave : o.outcome? i = none → P (o.leave i)) (h : P o) : P (o.giveUp i) := by
  unfold Outbound.giveUp
  split
  · rename_i hu
    exact hleave (by rw [Outbound.outcome?, hu])
  · rename_i hu
    exact hleave (by rw [Outbound.outcome?, hu])
  · exact h

theorem perform_lasts {P : Outbound κ → Prop} (hP : Outbound.Lasts P) {e : Event δ}
    (hcallOff : e = .callOff → ∀ o, P o → P { o with fired := true })
    (hgiveUp : e = .giveUp → ∀ o i, o.outcome? i = none → P o → P (o.leave i))
    (h : P s.outbound) : P (s.perform e).outbound := by
  refine perform_induction (P := fun s => P s.outbound) (R := fun s => P s.outbound)
    (fun t ht => settle_lasts hP ht) (fun t _ ht => (outbound_letGo t).symm ▸ ht)
    (fun t t' hrest ht => hrest.outbound.symm ▸ ht) (fun t t' hchange ht => ?_) h
  cases hchange with
  | receive => exact ht
  | sends _ o hlasts => exact hlasts P hP ht
  | callOff => exact hcallOff rfl _ ht
  | join => exact ht
  | close => exact hP.settle (hP.join .close ht)
  | giveUp _ user => exact giveUp_keeps user (fun hnone => hgiveUp rfl _ user hnone ht) ht

theorem perform_serializer (s : Session κ) (e : Event δ) :
    (s.perform e).serializer = s.serializer := by
  refine perform_induction (P := fun t => t.serializer = s.serializer)
    (R := fun t => t.serializer = s.serializer) (fun t ht => (settle_serializer t).trans ht)
    (fun t _ ht => (serializer_settleInbound _).trans ht)
    (fun t t' hrest ht => hrest.serializer.trans ht) (fun t t' hchange ht => ?_) rfl
  cases hchange with
  | giveUp => exact (serializer_settleInbound _).trans ht
  | _ => exact ht

theorem perform_settled {s : Session} (h : s.outbound.Settled) (e : Event) :
    (s.perform e).outbound.Settled :=
  perform_induction (P := fun s => s.outbound.Settled) (R := fun _ => True)
    (fun t _ => settle_settled t) (fun t _ ht => (outbound_letGo t).symm ▸ ht)
    (fun _ _ hrest ht => hrest.outbound.symm ▸ ht) (fun _ _ _ _ => trivial) h

theorem callOff_outcome {o : Except ClientError Status} {i : Inbound} (h : i.outcome = some o) :
    i.callOff.outcome = some o := by
  rw [Inbound.callOff_of_ended (Inbound.hasEnded_of_outcome h)]
  exact h

theorem letGo_outcome {o : Except ClientError Status} (h : s.inbound.outcome = some o) :
    s.letGo.inbound.outcome = some o :=
  settleInbound_inbound (P := (·.outcome = some o)) (fun _ => callOff_outcome) h

theorem settle_outcome {o : Except ClientError Status} (h : s.inbound.outcome = some o) :
    s.settle.inbound.outcome = some o :=
  settle_inbound (P := (·.outcome = some o)) (fun _ => callOff_outcome) h

/-- An outcome stays. -/
theorem perform_outcome {o : Except ClientError Status} (h : s.inbound.outcome = some o)
    (e : Event δ) : (s.perform e).inbound.outcome = some o := by
  refine perform_induction (P := fun t => t.inbound.outcome = some o)
    (R := fun t => t.inbound.outcome = some o) (fun t ht => settle_outcome ht)
    (fun t _ ht => letGo_outcome ht) (fun t t' hrest ht => hrest.outcome.trans ht)
    (fun t t' hchange ht => ?_) h
  cases hchange with
  | receive m =>
    rw [Inbound.receive_of_ended (Inbound.hasEnded_of_outcome ht)]
    exact ht
  | giveUp => exact letGo_outcome ht
  | _ => exact ht

/-- What a reader takes is no longer left for it. -/
theorem gain_take (s : Session κ) (ofStderr : Bool) (size : Option Nat) (stderr : Bool) :
    s.gain stderr (.take ofStderr size : Event δ) ++
        ((s.perform (.take ofStderr size)).inbound.output stderr).toBytes =
      (s.inbound.output stderr).toBytes := by
  rw [gain, perform]
  cases h : s.isTaken ofStderr with
  | false =>
    rw [takeOutput_of_free h]
    split <;> rfl
  | true =>
    rw [takeOutput_of_taken h]
    dsimp only
    rw [Inbound.output_setOutput]
    split
    · rename_i heq
      rw [heq]
      exact Output.take_toBytes _ _ _
    · rfl

theorem perform_accounts {ms : List Message} {got : Bool → Bytes}
    (h : Inbound.Accounts s.serializer s.outbound.path ms got s.inbound) (e : Event δ) :
    Inbound.Accounts s.serializer s.outbound.path (ms ++ e.message?.toList)
      (fun stderr => got stderr ++ s.gain stderr e) (s.perform e).inbound := by
  have other {e : Event δ} (hreceive : ∀ m, e ≠ .receive m)
      (htake : ∀ stderr size, e ≠ .take stderr size) :
      Inbound.Accounts s.serializer s.outbound.path (ms ++ [])
        (fun stderr => got stderr ++ []) (s.perform e).inbound := by
    simp only [List.append_nil]
    let P (t : Session κ) : Prop :=
      Inbound.Accounts s.serializer s.outbound.path ms got t.inbound
    refine perform_induction (P := P) (R := P) (fun t ht => settle_inbound (fun _ => .callOff) ht)
      (fun t _ ht => settleInbound_inbound (fun _ => .callOff) ht) (fun t t' hrest ht => ?_)
      (fun t t' hchange ht => ?_) h
    · show Inbound.Accounts _ _ _ _ t'.inbound
      rw [hrest.inbound htake]
      exact ht
    · cases hchange with
      | receive m => exact absurd rfl (hreceive _)
      | giveUp => exact settleInbound_inbound (fun _ => .callOff) ht
      | _ => exact ht
  -- only a message and a reader have a part in the accounts
  cases e with
  | receive m =>
    have hreceive : Inbound.Accounts s.serializer s.outbound.path (ms ++ [m])
        (fun stderr => got stderr ++ []) (s.inbound.receive s.serializer s.outbound.path m) := by
      simp only [List.append_nil]
      exact h.receive m
    exact settle_inbound (fun _ => .callOff) hreceive
  | take stderr size =>
    have htake : Inbound.Accounts s.serializer s.outbound.path (ms ++ []) got s.inbound := by
      rw [List.append_nil]
      exact h
    refine htake.take (rests_take s stderr size).outcome fun ofStderr => ?_
    rw [List.append_assoc, gain_take]
  | _ => exact other (fun _ h => by cases h) (fun _ _ h => by cases h)

/-! ### Whole runs -/

/-- What holds after every run of a session with a peer: `ms` are the messages that have come, and
`got` is what the readers have got. -/
structure Sound (path : String) (serializer : Serializer) (slow : Bool) (ms : List Message)
    (got : Bool → Bytes) (s : Session) : Prop where
  coded : s.serializer = serializer
  located : s.outbound.path = path
  paced : s.outbound.sink.wire.state.slow = slow
  lined : s.outbound.Lined
  settled : s.outbound.Settled
  accounts : Inbound.Accounts serializer path ms got s.inbound

variable {path : String} {serializer : Serializer} {slow : Bool} {ms : List Message}
  {got : Bool → Bytes}

theorem sound_start (path : String) (serializer : Serializer) (slow : Bool) :
    Sound path serializer slow [] (fun _ => []) (start path serializer slow) where
  coded := rfl
  located := rfl
  paced := rfl
  lined := fun _ _ hu => by cases hu
  settled := .inl rfl
  accounts := Inbound.accounts_start serializer path

theorem sound_perform {s : Session} (h : Sound path serializer slow ms got s) (e : Event) :
    Sound path serializer slow (ms ++ e.message?.toList)
      (fun stderr => got stderr ++ s.gain stderr e) (s.perform e) where
  coded := (perform_serializer s e).trans h.coded
  located :=
    perform_lasts (Outbound.lasts_path path) (fun _ _ ho => ho) (fun _ _ _ _ ho => ho) h.located
  paced :=
    perform_lasts (Outbound.lasts_slow slow) (fun _ _ ho => ho) (fun _ _ _ _ ho => ho) h.paced
  lined :=
    perform_lasts Outbound.lasts_lined (fun _ _ ho => ho) (fun _ _ i _ ho => ho.leave i) h.lined
  settled := perform_settled h.settled e
  accounts := by
    have haccounts := h.accounts
    rw [← h.coded, ← h.located] at haccounts ⊢
    exact perform_accounts haccounts e

theorem sound_run {s : Session} (h : Sound path serializer slow ms got s) (es : List Event) :
    Sound path serializer slow (ms ++ es.filterMap Event.message?)
      (fun stderr => got stderr ++ s.delivered stderr es) (s.run es) := by
  induction es generalizing s ms got with
  | nil =>
    simp only [List.filterMap_nil, delivered, List.append_nil]
    exact h
  | cons e es ih =>
    have hrest := ih (sound_perform h e)
    have hmessages : (e :: es).filterMap Event.message? =
        e.message?.toList ++ es.filterMap Event.message? := by
      rw [List.filterMap_cons]
      cases e.message? <;> rfl
    simp only [List.append_assoc] at hrest
    rw [hmessages]
    exact hrest

end Session
end KubeClient
