import KubeClient.Proofs.SessionRun

/-!
# What a session reads

The messages of a connection are told apart whatever else happens to the session in between.

* `Session.Listening` : a session that still receives;
* `Session.Joined` : how far an owner who waits for the outcome has come;
* `Session.exists_taken`, `Session.exists_concluded` : the readers come to the end, and the owner to
  the outcome;
* `Session.Demultiplexed` : what the readers and the owner get.
-/

namespace KubeClient.Session

variable {κ δ : Type} [Connection κ δ] {s t : Session κ} {e : Event δ}

/-! ### A session that still receives -/

/-- Nothing has ended the reading, and nobody has lost interest in it. -/
structure Listening (s : Session κ) : Prop where
  quiet : s.outbound.fired = false
  open_ : s.inbound.outcome = none
  ownership : s.ownership = .owned ∨ s.ownership = .joining

theorem Listening.settle (h : s.Listening) : s.settle.Listening := by
  refine settle_induction (P := Listening) (fun s h => ?_) (fun s h => ?_) (fun s h => ?_)
    (fun s h => ?_) h
  · have hrunning : s.isStopped = false := by
      rw [isStopped, h.quiet, conclusion?]
      rcases h.ownership with howns | howns <;> rw [howns] <;> rfl
    rw [settleInbound, hrunning]
    exact h
  · exact ⟨(Outbound.lasts_fired false).settle h.quiet, h.open_, h.ownership⟩
  · rw [settleJoin]
    split
    · rename_i houtcome
      cases h.open_.symm.trans houtcome
    · exact h
  · rw [settleClose]
    split
    · rename_i howns
      rcases h.ownership with hother | hother <;> cases howns.symm.trans hother
    · exact h

theorem perform_listening (h : s.Listening) (he : e.ends = false) : (s.perform e).Listening := by
  refine perform_induction (P := Listening) (R := Listening) (fun _ => .settle)
    (fun t hgoes _ => ?_) (fun t t' hrest ht => ?_) (fun t t' hchange ht => ?_) h
  · cases hgoes with
    | drop => cases he
    | giveUp => cases he
  · exact ⟨hrest.outbound ▸ ht.quiet, hrest.outcome.trans ht.open_, hrest.ownership ▸ ht.ownership⟩
  · cases hchange with
    | receive => exact ⟨ht.quiet, (Inbound.receive_of_output _ _ ht.open_ he).1, ht.ownership⟩
    | sends _ o hlasts =>
      exact ⟨hlasts _ (Outbound.lasts_fired false) ht.quiet, ht.open_, ht.ownership⟩
    | callOff => cases he
    | join => exact ⟨ht.quiet, ht.open_, .inr rfl⟩
    | close => cases he
    | giveUp => cases he

theorem run_listening {es : List (Event δ)} (h : s.Listening) (hes : ∀ e ∈ es, e.ends = false) :
    (s.run es).Listening :=
  run_induction (fun _ e he ht => perform_listening ht (hes e he)) h

/-- The first message that ends the reading gives the outcome. -/
theorem perform_stop (h : s.Listening) {m : Message} (hm : m.isStop = true) :
    (s.perform (.receive m : Event δ)).inbound.outcome =
      some (m.outcome s.serializer s.outbound.path) := by
  have hreceive : s.inbound.receive s.serializer s.outbound.path m =
      s.inbound.finish (m.outcome s.serializer s.outbound.path) :=
    Inbound.receive_of_stop h.open_ hm
  exact settle_outcome (congrArg Inbound.outcome hreceive)

theorem run_outcome {o : Except ClientError Status} (h : s.inbound.outcome = some o)
    (es : List (Event δ)) : (s.run es).inbound.outcome = some o :=
  run_induction (P := (·.inbound.outcome = some o)) (fun _ e _ ht => perform_outcome ht e) h

/-! ### An owner who waits for the outcome -/

/-- The owner waits for the outcome, and something may have come that is not settled yet. -/
inductive Awaits (s : Session κ) : Prop
  | waiting : s.ownership = .joining → Awaits s
  | closing (user : Nat) (o : Except ClientError Status) :
      s.ownership = .closing user (some o) → s.inbound.outcome = some o →
      s.outbound.Closes user → Awaits s
  | concluded (o : Except ClientError Status) :
      s.ownership = .concluded (.joined o) → s.inbound.outcome = some o → Awaits s

/-- The owner waits for the outcome, closes the connection because it is there, or has got it. -/
inductive Joined (s : Session κ) : Prop
  | waiting : s.ownership = .joining → s.inbound.outcome = none → Joined s
  | closing (user : Nat) (o : Except ClientError Status) :
      s.ownership = .closing user (some o) → s.inbound.outcome = some o →
      s.outbound.Closes user → s.outbound.outcome? user = none → Joined s
  | concluded (o : Except ClientError Status) :
      s.ownership = .concluded (.joined o) → s.inbound.outcome = some o → Joined s

theorem Joined.awaits (h : s.Joined) (howns : t.ownership = s.ownership)
    (houtcome : ∀ o, s.inbound.outcome = some o → t.inbound.outcome = some o)
    (hcloses : ∀ user, s.outbound.Closes user → t.outbound.Closes user) : t.Awaits := by
  cases h with
  | waiting hjoining => exact .waiting (howns.trans hjoining)
  | closing user o hclosing ho hstays =>
    exact .closing user o (howns.trans hclosing) (houtcome o ho) (hcloses user hstays)
  | concluded o hdone ho => exact .concluded o (howns.trans hdone) (houtcome o ho)

theorem settleJoin_of_none (h : s.inbound.outcome = none) : s.settleJoin = s := by
  rw [settleJoin]
  split
  · rename_i houtcome
    cases h.symm.trans houtcome
  · rfl

theorem settleInbound_of_running (h : s.isStopped = false) : s.settleInbound = s := by
  rw [settleInbound, h]
  rfl

/-- The line has moved on for an owner who closes the connection because the outcome is there. -/
theorem joined_settleClose {user : Nat} {o : Except ClientError Status}
    (howns : s.ownership = .closing user (some o)) (ho : s.inbound.outcome = some o)
    (hcloses : s.outbound.Closes user) : s.settleClose.settleInbound.Joined := by
  have hended : s.settleClose.inbound.hasEnded = true := by
    rw [inbound_settleClose]
    exact Inbound.hasEnded_of_outcome ho
  rw [settleInbound_of_ended hended, settleClose, howns]
  dsimp only
  split
  · rename_i hnone
    exact .closing user o howns ho hcloses hnone
  · exact .concluded o rfl ho

theorem isStopped_of_fired (hfired : s.outbound.fired = false) (howns : s.ownership = .joining) :
    s.isStopped = false := by
  rw [isStopped, hfired, conclusion?, howns]
  rfl

theorem outcome_settleInbound (h : s.isStopped = true) :
    s.settleInbound.inbound.outcome ≠ none := by
  rw [settleInbound, if_pos h]
  show s.inbound.callOff.outcome ≠ none
  cases hended : s.inbound.hasEnded with
  | true =>
    rw [Inbound.callOff_of_ended hended]
    exact Option.isSome_iff_ne_none.mp hended
  | false =>
    rw [Inbound.callOff, hended]
    intro h
    cases h

theorem Awaits.settle (h : s.Awaits) : s.settle.Joined := by
  rw [Session.settle]
  cases h with
  | waiting howns =>
    have hjoining : s.settleInbound.settleOutbound.ownership = .joining :=
      (ownership_settleInbound s).trans howns
    cases ho : s.settleInbound.settleOutbound.inbound.outcome with
    | none =>
      -- had the caller called off, this would be the outcome
      have hfired : s.outbound.fired = false := by
        refine Bool.eq_false_iff.mpr fun hfired => outcome_settleInbound ?_ ho
        rw [isStopped, hfired]
        rfl
      have hkept : s.settleInbound.settleOutbound.outbound.fired = false :=
        (Outbound.lasts_fired false).settle ((outbound_settleInbound s).symm ▸ hfired)
      rw [settleJoin_of_none ho,
        settleClose_of_ne (fun _ _ hclosing => by cases hjoining.symm.trans hclosing),
        settleInbound_of_running (isStopped_of_fired hkept hjoining)]
      exact .waiting hjoining ho
    | some o =>
      have hstart : s.settleInbound.settleOutbound.settleJoin =
          s.settleInbound.settleOutbound.startClosing (some o) := by
        rw [settleJoin, hjoining, ho]
      rw [hstart]
      exact joined_settleClose rfl ho
        ((Outbound.lasts_closes _).settle (Outbound.closes_join _))
  | closing user o howns ho hcloses =>
    have hended := Inbound.hasEnded_of_outcome ho
    have hjoin : s.settleOutbound.settleJoin = s.settleOutbound :=
      settleJoin_of_ne fun hjoining => by cases howns.symm.trans hjoining
    rw [settleInbound_of_ended hended, hjoin]
    exact joined_settleClose howns ho ((Outbound.lasts_closes user).settle hcloses)
  | concluded o howns ho =>
    have hended := Inbound.hasEnded_of_outcome ho
    have hjoin : s.settleOutbound.settleJoin = s.settleOutbound :=
      settleJoin_of_ne fun hjoining => by cases howns.symm.trans hjoining
    have hclose : s.settleOutbound.settleClose = s.settleOutbound :=
      settleClose_of_ne fun _ _ hclosing => by cases howns.symm.trans hclosing
    rw [settleInbound_of_ended hended, hjoin, hclose,
      settleInbound_of_ended (s := s.settleOutbound) hended]
    exact .concluded o howns ho

theorem Joined.ne_owned (h : s.Joined) : s.ownership ≠ .owned := by
  intro howned
  cases h with
  | waiting howns => cases howns.symm.trans howned
  | closing _ _ howns => cases howns.symm.trans howned
  | concluded _ howns => cases howns.symm.trans howned

theorem Joined.ne_joining {o : Except ClientError Status} (h : s.Joined)
    (ho : s.inbound.outcome = some o) : s.ownership ≠ .joining := by
  intro hjoining
  cases h with
  | waiting _ hnone => cases hnone.symm.trans ho
  | closing _ _ howns => cases howns.symm.trans hjoining
  | concluded _ howns => cases howns.symm.trans hjoining

theorem perform_joined (h : s.Joined) (he : e ≠ .giveUp) : (s.perform e).Joined := by
  refine perform_induction (P := Joined) (R := Awaits) (fun _ ht => Awaits.settle ht)
    (fun t hgoes ht => ?_) (fun t t' hrest ht => ?_) (fun t t' hchange ht => ?_) h
  · cases hgoes with
    | drop howned => exact absurd howned ht.ne_owned
    | giveUp => exact absurd rfl he
  · cases ht with
    | waiting howns ho => exact .waiting (hrest.ownership.trans howns) (hrest.outcome.trans ho)
    | closing user o howns ho hcloses hnone =>
      exact .closing user o (hrest.ownership.trans howns) (hrest.outcome.trans ho)
        (hrest.outbound.symm ▸ hcloses) (hrest.outbound.symm ▸ hnone)
    | concluded o howns ho =>
      exact .concluded o (hrest.ownership.trans howns) (hrest.outcome.trans ho)
  · cases hchange with
    | receive m =>
      refine ht.awaits rfl (fun o ho => ?_) fun _ h => h
      rw [Inbound.receive_of_ended (Inbound.hasEnded_of_outcome ho)]
      exact ho
    | sends _ o hlasts =>
      exact ht.awaits rfl (fun _ ho => ho) fun user => hlasts _ (Outbound.lasts_closes user)
    | callOff => exact ht.awaits rfl (fun _ ho => ho) fun _ h => h
    | join _ howned => exact absurd howned ht.ne_owned
    | close _ howned => exact absurd howned ht.ne_owned
    | giveUp => exact absurd rfl he

theorem run_joined {es : List (Event δ)} (h : s.Joined) (hes : .giveUp ∉ es) : (s.run es).Joined :=
  run_induction (fun _ _ he ht => perform_joined ht fun hgives => hes (hgives ▸ he)) h

/-- The owner has not made up its mind yet. -/
theorem perform_owned (h : s.ownership = .owned) (he : e.concludes = false) :
    (s.perform e).ownership = .owned := by
  let P (t : Session κ) : Prop := t.ownership = .owned
  refine perform_induction (P := P) (R := P) (fun t ht => ?_) (fun t hgoes ht => ?_)
    (fun t t' hrest ht => hrest.ownership.trans ht) (fun t t' hchange ht => ?_) h
  · refine settle_induction (P := P) (fun t ht => (ownership_settleInbound t).trans ht)
      (fun t ht => ht) (fun t ht => ?_) (fun t ht => ?_) ht
    · rw [settleJoin_of_ne fun hjoining => by cases ht.symm.trans hjoining]
      exact ht
    · rw [settleClose_of_ne fun _ _ hclosing => by cases ht.symm.trans hclosing]
      exact ht
  · cases hgoes with
    | drop => cases he
    | giveUp howns => cases ht.symm.trans howns
  · cases hchange with
    | receive => exact ht
    | sends => exact ht
    | callOff => exact ht
    | join => cases he
    | close => cases he
    | giveUp _ _ _ howns => cases ht.symm.trans howns

theorem run_owned {es : List (Event δ)} (h : s.ownership = .owned)
    (hes : ∀ e ∈ es, e.concludes = false) : (s.run es).ownership = .owned :=
  run_induction (P := (·.ownership = .owned)) (fun _ e he ht => perform_owned ht (hes e he)) h

theorem perform_join (h : s.ownership = .owned) : (s.perform (.join : Event δ)).Joined := by
  have hown : s.isOwned = true := by
    rw [isOwned, h]
  rw [perform, join, if_pos hown]
  exact Awaits.settle (.waiting rfl)

/-! ### Coming to the end -/

/-- A reader that reads on after the end gets all that is left, and comes to the end. -/
theorem exists_taken {stderr : Bool} (htaken : s.isTaken stderr = true)
    (hended : s.inbound.hasEnded = true) :
    ∃ n, s.delivered stderr (List.replicate n (.take stderr none)) =
        (s.inbound.output stderr).toBytes ∧
      ((s.run (List.replicate n (.take stderr none))).takeOutput stderr
        (·.take none ·)).1 = some .ended := by
  -- every chunk that is taken leaves less for the reader
  induction hn : (s.inbound.output stderr).pieces using Nat.strongRecOn generalizing s with
  | ind n ih =>
    have htake := takeOutput_of_taken htaken (·.take none ·)
    rcases (s.inbound.output stderr).next_pieces s.inbound.hasEnded with ⟨hnext, hnil⟩ | hlt
    · refine ⟨0, hnil.symm, ?_⟩
      show (s.takeOutput stderr (·.take none ·)).1 = some .ended
      have hgot : (s.takeOutput stderr (·.take none ·)).1 =
          some (Output.exhausted s.inbound.hasEnded) :=
        (congrArg Prod.fst htake).trans (congrArg (some ·.1) hnext)
      rw [hgot, hended]
      rfl
    · have hperform := congrArg Prod.snd htake
      have houtput : (s.perform (.take stderr none)).inbound.output stderr =
          ((s.inbound.output stderr).next s.inbound.hasEnded).2 := by
        rw [perform, hperform]
        exact (Inbound.output_setOutput _ _ _ _).trans (if_pos rfl)
      have hended' : (s.perform (.take stderr none)).inbound.hasEnded = true := by
        rw [Inbound.hasEnded, (rests_take s stderr none).outcome]
        exact hended
      have htaken' : (s.perform (.take stderr none)).isTaken stderr = true := by
        rw [perform, hperform]
        exact htaken
      obtain ⟨k, hbytes, hend⟩ := ih _ (by rw [houtput, ← hn]; exact hlt) htaken' hended' rfl
      refine ⟨k + 1, ?_, hend⟩
      rw [List.replicate_succ, delivered, hbytes]
      exact gain_take s stderr none stderr

/-- An owner who waits for the outcome and has no one in line any more has got it. -/
theorem Joined.conclusion {o : Except ClientError Status} (h : s.Joined)
    (ho : s.inbound.outcome = some o) (hlined : s.outbound.Lined) (hline : s.outbound.line = []) :
    s.conclusion? = some (.joined o) := by
  cases h with
  | waiting _ hnone => cases hnone.symm.trans ho
  | closing user _ _ _ hcloses hnone =>
    obtain ⟨outcome, houtcome⟩ := hcloses.outcome hlined hline
    cases hnone.symm.trans houtcome
  | concluded o' howns ho' =>
    rw [conclusion?, howns, Option.some.inj (ho'.symm.trans ho)]

theorem Joined.conclusion_eq {o : Except ClientError Status} {c : Conclusion} (h : s.Joined)
    (ho : s.inbound.outcome = some o) (hc : s.conclusion? = some c) : c = .joined o := by
  cases h with
  | waiting howns =>
    rw [conclusion?, howns] at hc
    cases hc
  | closing _ _ howns =>
    rw [conclusion?, howns] at hc
    cases hc
  | concluded o' howns ho' =>
    rw [conclusion?, howns] at hc
    rw [← Option.some.inj hc, Option.some.inj (ho'.symm.trans ho)]

/-- Once the peer has read all that is owed, the owner who waits has the outcome. -/
theorem exists_concluded {s : Session} {o : Except ClientError Status} (h : s.Joined)
    (ho : s.inbound.outcome = some o) (hlined : s.outbound.Lined)
    (hsettled : s.outbound.Settled) :
    ∃ n, (s.run (List.replicate n .readFrame)).conclusion? = some (.joined o) := by
  -- every frame that is read leaves less that is owed
  induction hn : s.outbound.owed using Nat.strongRecOn generalizing s with
  | ind n ih =>
    rcases hsettled with hline | hblocked
    · exact ⟨0, h.conclusion ho hlined hline⟩
    · obtain ⟨-, hunread⟩ := Peer.unread_of_answer hblocked
      have hsettle : (s.perform .readFrame).outbound = (s.outbound.happen .reads).settle :=
        settle_outbound_of_ne (h.ne_joining ho)
      have howed : (s.perform .readFrame).outbound.owed < n := by
        rw [hsettle, ← hn]
        exact Nat.lt_of_le_of_lt (Outbound.owed_settle_le _) (Outbound.owed_happen_reads hunread)
      have hlined : (s.perform .readFrame).outbound.Lined :=
        perform_lasts Outbound.lasts_lined (fun h => by cases h) (fun h => by cases h) hlined
      obtain ⟨k, hk⟩ := ih _ howed (perform_joined h fun h => by cases h) (perform_outcome ho _)
        hlined (perform_settled (.inr hblocked) _) rfl
      exact ⟨k + 1, hk⟩

/-! ### What the readers and the owner get -/

section

variable (path : String) (serializer : Serializer) (slow : Bool) {es : List Event}

theorem listening_start : (start path serializer slow).Listening :=
  ⟨rfl, rfl, .inl rfl⟩

theorem sound_run_start (es : List Event) : Sound path serializer slow (es.filterMap Event.message?)
    ((start path serializer slow).delivered · es) ((start path serializer slow).run es) :=
  sound_run (sound_start path serializer slow) es

/-- If a message is the first to end the reading, it gives the outcome, whatever happens later. -/
theorem outcome_of_find? {m : Message} (h : es.find? Event.ends = some (.receive m)) :
    ((start path serializer slow).run es).inbound.outcome = some (m.outcome serializer path) := by
  obtain ⟨hm, before, after, rfl, hbefore⟩ := List.find?_eq_some_iff_append.mp h
  have hlistening : ((start path serializer slow).run before).Listening :=
    run_listening (listening_start ..) fun e he => Bool.not_eq_true' _ ▸ hbefore e he
  have hsound := sound_run_start path serializer slow before
  have hstop := perform_stop hlistening hm
  rw [hsound.coded, hsound.located] at hstop
  rw [run_append]
  exact run_outcome hstop after

/-- An owner whose first decision is to wait for the outcome, and who does not give up, waits for it
or has got it. -/
theorem joined_of_find? (h : es.find? Event.concludes = some .join) (hstays : .giveUp ∉ es) :
    ((start path serializer slow).run es).Joined := by
  obtain ⟨-, before, after, rfl, hbefore⟩ := List.find?_eq_some_iff_append.mp h
  have howned : ((start path serializer slow).run before).ownership = .owned :=
    run_owned rfl fun e he => Bool.not_eq_true' _ ▸ hbefore e he
  have hafter : .giveUp ∉ after := fun hgives => hstays (List.mem_append_right _ (.tail _ hgives))
  have hjoined := run_joined (perform_join howned) hafter
  rw [run_append]
  exact hjoined

/-- Unless the reading was ended by something else than a message, nothing gets lost. -/
theorem delivered_append_left
    (h : ∀ e, es.find? Event.ends = some e → ∃ m, e = .receive m) (stderr : Bool) :
    (start path serializer slow).delivered stderr es ++
        (((start path serializer slow).run es).inbound.output stderr).toBytes =
      Message.outputOf stderr (es.filterMap Event.message?) := by
  have hsound := sound_run_start path serializer slow es
  cases hsound.accounts with
  | reading _ _ hbytes => exact hbytes stderr
  | stopped _ _ _ hbytes => exact hbytes stderr
  | calledOff houtcome =>
    exfalso
    cases hfind : es.find? Event.ends with
    | none =>
      have hlistening : ((start path serializer slow).run es).Listening :=
        run_listening (listening_start ..) fun e he =>
          Bool.eq_false_iff.mpr (List.find?_eq_none.mp hfind e he)
      cases hlistening.open_.symm.trans houtcome
    | some e =>
      obtain ⟨m, rfl⟩ := h e hfind
      exact m.outcome_ne_cancelled serializer path
        (Option.some.inj ((outcome_of_find? path serializer slow hfind).symm.trans houtcome))

theorem delivered_append_left_of_find? {m : Message}
    (h : es.find? Event.ends = some (.receive m)) (stderr : Bool) :
    (start path serializer slow).delivered stderr es ++
        (((start path serializer slow).run es).inbound.output stderr).toBytes =
      Message.outputOf stderr (es.filterMap Event.message?) :=
  delivered_append_left path serializer slow
    (fun _ he => ⟨m, Option.some.inj (he.symm.trans h)⟩) stderr

end

/-- What the readers and the owner of a session get in a run. -/
structure Demultiplexed (path : String) (serializer : Serializer) (slow : Bool)
    (es : List Event) : Prop where
  /-- Whatever happens, a reader gets the output for it from the beginning, and no other. -/
  isPrefix : ∀ stderr, (start path serializer slow).delivered stderr es <+:
    Message.outputOf stderr (es.filterMap Event.message?)
  /-- Unless the reading was ended by something else than a message, what a reader did not get is
  left for it. -/
  whole : (∀ e, es.find? Event.ends = some e → ∃ m, e = .receive m) → ∀ stderr,
    (start path serializer slow).delivered stderr es ++
        (((start path serializer slow).run es).inbound.output stderr).toBytes =
      Message.outputOf stderr (es.filterMap Event.message?)
  /-- Once a message has ended the reading, a reader comes to the end if it reads on, and it never
  does before it has got all. -/
  ended : ∀ m, es.find? Event.ends = some (.receive m) → ∀ stderr,
    (∀ size, (((start path serializer slow).run es).takeOutput stderr (·.take size ·)).1 =
        some .ended →
      (start path serializer slow).delivered stderr es =
        Message.outputOf stderr (es.filterMap Event.message?)) ∧
    (((start path serializer slow).run es).isTaken stderr = true →
      ∃ n, (start path serializer slow).delivered stderr
            (es ++ List.replicate n (.take stderr none)) =
          Message.outputOf stderr (es.filterMap Event.message?) ∧
        (((start path serializer slow).run
            (es ++ List.replicate n (.take stderr none))).takeOutput stderr
          (·.take none ·)).1 = some .ended)
  /-- Then an owner who waits, and does not give up, gets the outcome that the message stands for
  and no other: at once, or when a slow other side has read what was written. -/
  joined : ∀ m, es.find? Event.ends = some (.receive m) →
    es.find? Event.concludes = some .join → .giveUp ∉ es →
    (∀ c, ((start path serializer slow).run es).conclusion? = some c →
      c = .joined (m.outcome serializer path)) ∧
    (slow = false → ((start path serializer slow).run es).conclusion? =
      some (.joined (m.outcome serializer path))) ∧
    ∃ n, ((start path serializer slow).run (es ++ List.replicate n .readFrame)).conclusion? =
      some (.joined (m.outcome serializer path))
  /-- The outcome is a success if the error channel says nothing. -/
  silent : ∀ payload, Serializer.isNothing payload = true →
    (Message.frame (3 :: payload)).outcome serializer path = .ok .succeeded

theorem demultiplexed_run (path : String) (serializer : Serializer) (slow : Bool)
    (es : List Event) : Demultiplexed path serializer slow es where
  isPrefix := fun stderr =>
    (List.prefix_append _ _).trans
      ((sound_run_start path serializer slow es).accounts.isPrefix stderr)
  whole := delivered_append_left path serializer slow
  ended := by
    intro m hfind stderr
    have hbytes := delivered_append_left_of_find? path serializer slow hfind stderr
    refine ⟨fun size hend => ?_, fun htaken => ?_⟩
    · cases htaken : ((start path serializer slow).run es).isTaken stderr with
      | false =>
        rw [takeOutput_of_free htaken] at hend
        cases hend
      | true =>
        rw [takeOutput_of_taken htaken] at hend
        rw [Output.toBytes_of_take_ended (Option.some.inj hend), List.append_nil] at hbytes
        exact hbytes
    · have hended :=
        Inbound.hasEnded_of_outcome (outcome_of_find? path serializer slow hfind)
      obtain ⟨n, hrest, hend⟩ := exists_taken htaken hended
      refine ⟨n, ?_, ?_⟩
      · rw [delivered_append, hrest]
        exact hbytes
      · rw [run_append]
        exact hend
  joined := by
    intro m hfind hjoin hstays
    have hsound := sound_run_start path serializer slow es
    have houtcome := outcome_of_find? path serializer slow hfind
    have hjoined := joined_of_find? path serializer slow hjoin hstays
    refine ⟨fun c hc => hjoined.conclusion_eq houtcome hc, fun hslow => ?_, ?_⟩
    · have hline := hsound.settled.resolve_right fun hblocked => by
        have hpace := hsound.paced.symm.trans (Peer.unread_of_answer hblocked).1
        cases hpace.symm.trans hslow
      exact hjoined.conclusion houtcome hsound.lined hline
    · obtain ⟨n, hn⟩ := exists_concluded hjoined houtcome hsound.lined hsound.settled
      exact ⟨n, by rw [run_append]; exact hn⟩
  silent := fun _ h => Message.outcome_of_isNothing serializer path h

/-- Output for both readers, the outcome, and output behind it, while the owner waits. -/
def interleaved : List Event :=
  [.takeReader false, .takeReader true, .join, .receive (.frame [1, 0x61]),
    .receive (.frame [2, 0x62]), .take false none, .receive (.frame [1, 0x63]),
    .receive (.frame [3]), .receive (.frame [1, 0x64]), .take false (some 4)]

theorem demultiplexed_run_interleaved :
    (start "/" ⟨"application/json", .json⟩ false).delivered false interleaved = [0x61, 0x63] ∧
      (((start "/" ⟨"application/json", .json⟩ false).run interleaved).inbound.output
          true).toBytes = [0x62] ∧
      ((start "/" ⟨"application/json", .json⟩ false).run interleaved).conclusion? =
        some (.joined (.ok .succeeded)) := by
  have hrun := demultiplexed_run "/" ⟨"application/json", .json⟩ false interleaved
  have hfind : interleaved.find? Event.ends = some (.receive (.frame [3])) := by decide
  have hwhole := hrun.whole fun _ he => ⟨_, Option.some.inj (he.symm.trans hfind)⟩
  have hsuccess := hrun.silent [] (by decide)
  refine ⟨(List.append_nil _).symm.trans (hwhole false), hwhole true, ?_⟩
  rw [← hsuccess]
  exact (hrun.joined _ hfind (by decide) (by decide)).2.1 rfl

end KubeClient.Session
