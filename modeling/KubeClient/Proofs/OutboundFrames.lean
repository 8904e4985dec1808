import KubeClient.Proofs.OutboundNotes

/-!
# The frames of a connection

* `Sink.Keeps`, `Sink.Carries` : how a sink goes on without losing a frame, and without closing the
  connection;
* `Outbound.Shut`, `Outbound.Given` : what the notes say of the end, and of the frames;
* `Outbound.Ledger`, `Outbound.Ledger.steps` : all that the notes say, which stays true through all
  steps;
* `Outbound.Orderly` : who has handed over which frames, and who was refused.
-/

namespace KubeClient

variable {κ δ : Type} [Connection κ δ]

/-! ### The frames of a sink -/

/-- Closing hands over nothing. -/
theorem Wire.frames_close (w : Wire κ) : w.close.2.frames = w.frames := by
  unfold close
  split <;> rfl

/-- The connection is closed once it has answered so, and not before. -/
theorem Wire.closed_close (w : Wire κ) : w.close.1 = some (.ok ()) ∧ w.close.2.closed = true ∨
    w.close.1 ≠ some (.ok ()) ∧ w.close.2.closed = w.closed := by
  unfold close
  split
  · exact .inl ⟨rfl, rfl⟩
  · rename_i hne heq
    exact .inr ⟨hne, rfl⟩

namespace Sink

/-- The frames that were handed over, and the one in the place. -/
def content (s : Sink κ) : List Bytes :=
  s.wire.frames ++ s.slot.toList

/-- How a sink goes on with the frames `before` that come, while `after` stay behind: it loses none
and changes no order. -/
structure Keeps (s : Sink κ) (progress : Wire.Progress) (s' : Sink κ)
    (before after : Option Bytes) : Prop where
  content : s'.content ++ after.toList = s.content ++ before.toList
  frames : s.wire.frames.length ≤ s'.wire.frames.length
  /-- Whoever has come to the end has left nothing in the place. -/
  whole : progress = some (.ok ()) → s'.slot = none ∧ after = none
  stays : after = none ∨ after = before

/-- How a sink goes on whose connection stays open, or closed. -/
structure Carries (s : Sink κ) (progress : Wire.Progress) (s' : Sink κ)
    (before after : Option Bytes) : Prop extends s.Keeps progress s' before after where
  closed : s'.wire.closed = s.wire.closed

/-- Nothing happens. -/
theorem carries_self (s : Sink κ) (frame : Option Bytes) : s.Carries none s frame frame :=
  ⟨⟨rfl, Nat.le_refl _, nofun, .inr rfl⟩, rfl⟩

theorem carries_clear (s : Sink κ) : s.Carries s.clear.1 s.clear.2 none none := by
  unfold clear
  split
  · rename_i hslot
    exact ⟨⟨rfl, Nat.le_refl _, fun _ => ⟨hslot, rfl⟩, .inl rfl⟩, rfl⟩
  · rename_i frame hslot
    split
    · rename_i wire hready
      obtain ⟨-, rfl⟩ := Prod.mk.inj hready
      refine ⟨⟨?_, ?_, fun _ => ⟨rfl, rfl⟩, .inl rfl⟩, rfl⟩
      · simp only [Sink.content, Wire.put, hslot, Option.toList_none, Option.toList_some,
          List.append_nil]
      · simp only [Wire.put, List.length_append, List.length_singleton]
        omega
    · rename_i progress wire hne hready
      obtain ⟨rfl, rfl⟩ := Prod.mk.inj hready
      exact ⟨⟨rfl, Nat.le_refl _, fun h => absurd h hne, .inl rfl⟩, rfl⟩

theorem carries_flush (s : Sink κ) : s.Carries s.flush.1 s.flush.2 none none := by
  have hclear := carries_clear s
  unfold flush
  split
  · rename_i s₁ heq
    rw [heq] at hclear
    exact ⟨⟨hclear.content, hclear.frames, fun _ => hclear.whole rfl, .inl rfl⟩, hclear.closed⟩
  · exact hclear

theorem carries_send (s : Sink κ) (frame : Option Bytes) :
    s.Carries (s.send frame).1 (s.send frame).2.1 frame (s.send frame).2.2 := by
  unfold send
  cases frame with
  | none => exact carries_flush s
  | some frame =>
    have hclear := carries_clear s
    dsimp only
    split
    · rename_i s₁ heq
      rw [heq] at hclear
      have hflush := carries_flush { s₁ with slot := some frame }
      refine ⟨⟨?_, Nat.le_trans hclear.frames hflush.frames, hflush.whole, .inl rfl⟩,
        hflush.closed.trans hclear.closed⟩
      have hcontent := hclear.content
      simp only [Option.toList_none, List.append_nil] at hcontent
      have hslot : s₁.slot = none := (hclear.whole rfl).1
      rw [hflush.content, ← hcontent]
      simp only [Sink.content, hslot, Option.toList_none, Option.toList_some,
        List.append_nil]
    · rename_i progress s₁ hne heq
      rw [heq] at hclear
      have hcontent := hclear.content
      simp only [Option.toList_none, List.append_nil] at hcontent
      exact ⟨⟨by rw [hcontent], hclear.frames, fun h => absurd h hne, .inr rfl⟩, hclear.closed⟩

theorem keeps_close (s : Sink κ) : s.Keeps s.close.1 s.close.2 none none := by
  have hclear := carries_clear s
  unfold close
  split
  · rename_i s₁ heq
    rw [heq] at hclear
    have hframes := s₁.wire.frames_close
    refine ⟨?_, ?_, fun _ => hclear.whole rfl, .inl rfl⟩
    · simp only [Sink.content, hframes]
      exact hclear.content
    · exact Nat.le_trans hclear.frames (Nat.le_of_eq (congrArg List.length hframes.symm))
  · exact hclear.toKeeps

/-- The connection is closed once the closing has come to the end, and not before. -/
theorem closed_close (s : Sink κ) :
    s.close.1 = some (.ok ()) ∧ s.close.2.wire.closed = true ∨
      s.close.1 ≠ some (.ok ()) ∧ s.close.2.wire.closed = s.wire.closed := by
  have hclear := carries_clear s
  unfold close
  split
  · rename_i s₁ heq
    rw [heq] at hclear
    exact s₁.wire.closed_close.imp id fun ⟨hne, hsame⟩ => ⟨hne, hsame.trans hclear.closed⟩
  · rename_i hne
    exact .inr ⟨fun hok => hne _ (Prod.ext hok rfl), hclear.closed⟩

end Sink

namespace Outbound

variable {log more : List Occurrence} {o o' : Outbound κ} {i : Nat}

/-! ### What the notes say of the end -/

/-- The connection is closed once at most, by somebody who does not hold it any more. -/
def Shut (log : List Occurrence) (o : Outbound κ) : Prop :=
  o.sink.wire.closed = false ∧ closings log = [] ∨
    o.sink.wire.closed = true ∧ (closings log).length = 1 ∧ o.closed = true ∧
      ∀ (i : Nat) (frame : Option Bytes), o.users[i]? ≠ some (User.mk .close (.holding frame))

/-- Somebody goes on, and does not begin to close a closed connection. -/
theorem Shut.turned {turn : Turn} (h : Shut log o)
    (hturn : ∀ frame, turn = .holding frame → o.Uses i .close → o.sink.wire.closed = false) :
    Shut log (o.move i turn) := by
  rcases h with hopen | ⟨hwire, hlength, hclosed, hnobody⟩
  · exact .inl hopen
  · refine .inr ⟨hwire, hlength, hclosed, fun j frame hu => ?_⟩
    rcases users_move_cases hu with ⟨rfl, hself, huses⟩ | ⟨-, hother⟩
    · cases hwire.symm.trans (hturn frame hself.symm huses)
    · exact hnobody j frame hother

/-! ### What the notes say of the frames -/

/-- What the notes say of the frames: `given` are the writes whose frames have got at least into the
place. -/
structure Given (log : List Occurrence) (given : List Writing) (o : Outbound κ) : Prop where
  content : o.sink.content = given.map Writing.frame
  inTime : given.Sublist (admitted log)
  held : ∀ i channel payload frame,
    o.users[i]? = some ⟨.write channel payload, .holding (some frame)⟩ →
    frame = channel.frame payload ∧
      (given ++ [Writing.mk i channel payload]).Sublist (admitted log)
  placed : ∀ i channel payload,
    o.users[i]? = some ⟨.write channel payload, .holding none⟩ →
    Writing.mk i channel payload ∈ given
  sent : ∀ i channel payload,
    o.users[i]? = some ⟨.write channel payload, .done (.ok ())⟩ →
    Writing.mk i channel payload ∈ given.take o.sink.wire.frames.length

variable {given : List Writing}

/-- What is said of the frames concerns the sink and those who use it only. -/
theorem Given.congr (h : Given log given o) (husers : o'.users = o.users)
    (hframes : o'.sink.wire.frames = o.sink.wire.frames) (hslot : o'.sink.slot = o.sink.slot) :
    Given log given o' := by
  have hcontent : o'.sink.content = o.sink.content := by
    rw [Sink.content, Sink.content, hframes, hslot]
  constructor
  · exact hcontent.trans h.content
  · exact h.inTime
  · exact husers.symm ▸ h.held
  · exact husers.symm ▸ h.placed
  · rw [husers, hframes]
    exact h.sent

/-- What was noted stays true when more is noted. -/
theorem Given.append (h : Given log given o) (more : List Occurrence) :
    Given (log ++ more) given o := by
  have hmore := (admitted_append log more).sublist
  refine ⟨h.content, h.inTime.trans hmore, fun i channel payload frame hu => ?_, h.placed, h.sent⟩
  exact (h.held i channel payload frame hu).imp id fun hheld => hheld.trans hmore

/-- Somebody goes on who does not hold the connection to write then, and has not written. -/
theorem Given.turned (h : Given log given o) (turn : Turn)
    (hwrites : ∀ channel payload, o.Uses i (.write channel payload) →
      (∀ frame, turn ≠ .holding frame) ∧ turn ≠ .done (.ok ())) :
    Given log given (o.move i turn) where
  content := h.content
  inTime := h.inTime
  held := by
    intro j channel payload frame hu
    rcases users_move_cases hu with ⟨rfl, hself, huses⟩ | ⟨-, hother⟩
    · exact absurd hself.symm ((hwrites channel payload huses).1 _)
    · exact h.held j channel payload frame hother
  placed := by
    intro j channel payload hu
    rcases users_move_cases hu with ⟨rfl, hself, huses⟩ | ⟨-, hother⟩
    · exact absurd hself.symm ((hwrites channel payload huses).1 _)
    · exact h.placed j channel payload hother
  sent := by
    intro j channel payload hu
    rcases users_move_cases hu with ⟨rfl, hself, huses⟩ | ⟨-, hother⟩
    · exact absurd hself.symm (hwrites channel payload huses).2
    · exact h.sent j channel payload hother

/-- A sink goes on that loses no frame and gets none. -/
theorem Given.cleared {sink : Sink κ} {progress : Wire.Progress} (h : Given log given o)
    (hkeeps : o.sink.Keeps progress sink none none) : Given log given { o with sink } where
  content := by
    have hcontent := hkeeps.content
    rw [Option.toList_none, List.append_nil, List.append_nil] at hcontent
    exact hcontent.trans h.content
  inTime := h.inTime
  held := h.held
  placed := h.placed
  sent := fun j channel payload hu =>
    (List.take_prefix_take_left hkeeps.frames).subset (h.sent j channel payload hu)

theorem Given.join (h : Given log given o) (use : Use) : Given log given (o.join use) where
  content := h.content
  inTime := h.inTime
  held := fun i channel payload frame hu =>
    h.held i channel payload frame (users_of_join hu nofun)
  placed := fun i channel payload hu => h.placed i channel payload (users_of_join hu nofun)
  sent := fun i channel payload hu => h.sent i channel payload (users_of_join hu nofun)

/-- The first in line begins to write. -/
theorem Given.begin {channel : Channel} {payload : Bytes} {rest : List Nat}
    (h : Given log given o) (hq : o.Queued) (hline : o.line = i :: rest)
    (hu : o.users[i]? = some ⟨.write channel payload, .waiting⟩) (hstopped : ¬ Stopped log) :
    Given (log ++ [.acquired i (.write channel payload)]) given
      (o.move i (.holding (some (channel.frame payload)))) where
  content := h.content
  inTime := h.inTime.trans (admitted_append _ _).sublist
  held := by
    intro j other bytes frame hother
    rcases users_move_cases hother with ⟨rfl, hself, turn, huses⟩ | ⟨hne, hother⟩
    · cases hu.symm.trans huses
      cases hself
      rw [admitted_append_of_not_stopped hstopped]
      exact ⟨rfl, h.inTime.append_right _⟩
    · exact absurd (hq.eq_of_holding hline hother).symm hne
  placed := by
    intro j other bytes hother
    rcases users_move_cases hother with ⟨-, hself, -⟩ | ⟨-, hother⟩
    · cases hself
    · exact h.placed j other bytes hother
  sent := by
    intro j other bytes hother
    rcases users_move_cases hother with ⟨-, hself, -⟩ | ⟨-, hother⟩
    · cases hself
    · exact h.sent j other bytes hother

/-- Whoever holds the connection to write goes on; `left` is what stays behind. -/
theorem Given.send {channel : Channel} {payload : Bytes} {frame left : Option Bytes}
    {progress : Wire.Progress} {sink : Sink κ} (h : Given log given o)
    (hu : o.users[i]? = some ⟨.write channel payload, .holding frame⟩)
    (hkeeps : o.sink.Keeps progress sink frame left) :
    ∃ given', given <+: given' ∧ sink.content = given'.map Writing.frame ∧
      given'.Sublist (admitted log) ∧
      (left = none → Writing.mk i channel payload ∈ given') ∧
      ∀ bytes, left = some bytes → bytes = channel.frame payload ∧
        (given' ++ [Writing.mk i channel payload]).Sublist (admitted log) := by
  have hcontent := hkeeps.content
  rcases hkeeps.stays with rfl | rfl
  · rw [Option.toList_none, List.append_nil, h.content] at hcontent
    cases frame with
    | none =>
      rw [Option.toList_none, List.append_nil] at hcontent
      exact ⟨given, List.prefix_refl _, hcontent, h.inTime,
        fun _ => h.placed i channel payload hu, nofun⟩
    | some bytes =>
      obtain ⟨rfl, hadmitted⟩ := h.held i channel payload bytes hu
      refine ⟨_, List.prefix_append _ _, ?_, hadmitted,
        fun _ => List.mem_append_right _ List.mem_cons_self, nofun⟩
      rw [hcontent, List.map_append]
      rfl
  · refine ⟨given, List.prefix_refl _, ?_, h.inTime, fun hnone => ?_, fun bytes hbytes => ?_⟩
    · rw [← h.content]
      exact List.append_cancel_right hcontent
    · exact h.placed i channel payload (hnone ▸ hu)
    · exact h.held i channel payload bytes (hbytes ▸ hu)

/-- Whoever holds the connection has gone on to `turn`. -/
theorem Given.goOn {channel : Channel} {payload : Bytes} {frame left : Option Bytes}
    {progress : Wire.Progress} {sink : Sink κ} {turn : Turn} {rest : List Nat}
    (h : Given log given o) (hq : o.Queued) (hline : o.line = i :: rest)
    (hu : o.users[i]? = some ⟨.write channel payload, .holding frame⟩)
    (hkeeps : o.sink.Keeps progress sink frame left)
    (hholds : ∀ bytes, turn = .holding bytes → bytes = left)
    (hwrote : turn = .done (.ok ()) → progress = some (.ok ())) :
    ∃ given', Given log given' ({ o with sink }.move i turn) := by
  obtain ⟨given', hprefix, hcontent, hadmitted, hplaced, hleft⟩ := h.send hu hkeeps
  have huse {other : Channel} {bytes : Bytes} (huses : o.Uses i (.write other bytes)) :
      other = channel ∧ bytes = payload := by
    obtain ⟨turn, huses⟩ := huses
    cases hu.symm.trans huses
    exact ⟨rfl, rfl⟩
  refine ⟨given', hcontent, hadmitted, ?_, ?_, ?_⟩
  · intro j other bytes rest hother
    rcases users_move_cases (o := o) hother with ⟨rfl, hself, huses⟩ | ⟨hne, hother⟩
    · obtain ⟨rfl, rfl⟩ := huse huses
      exact hleft rest (hholds _ hself.symm).symm
    · exact absurd (hq.eq_of_holding hline hother).symm hne
  · intro j other bytes hother
    rcases users_move_cases (o := o) hother with ⟨rfl, hself, huses⟩ | ⟨hne, hother⟩
    · obtain ⟨rfl, rfl⟩ := huse huses
      exact hplaced (hholds _ hself.symm).symm
    · exact absurd (hq.eq_of_holding hline hother).symm hne
  · intro j other bytes hother
    show _ ∈ given'.take sink.wire.frames.length
    rcases users_move_cases (o := o) hother with ⟨rfl, hself, huses⟩ | ⟨hne, hother⟩
    · -- nothing is left in the place, so all frames were handed over
      obtain ⟨rfl, rfl⟩ := huse huses
      obtain ⟨hslot, hnone⟩ := hkeeps.whole (hwrote hself.symm)
      have hlength := congrArg List.length hcontent
      rw [Sink.content, hslot, Option.toList_none, List.append_nil, List.length_map] at hlength
      rw [hlength, List.take_length]
      exact hplaced hnone
    · obtain ⟨more, rfl⟩ := hprefix
      rw [List.take_append]
      exact List.mem_append_left _
        ((List.take_prefix_take_left hkeeps.frames).subset (h.sent j other bytes hother))

/-! ### What the notes say -/

/-- What the notes say of a connection. -/
structure Ledger (log : List Occurrence) (given : List Writing) (o : Outbound κ) : Prop where
  queued : o.Queued
  noted : Noted log o
  shut : Shut log o
  given : Given log given o

/-- The first in line goes. -/
theorem Ledger.passed {rest : List Nat} (h : Ledger log given o) (hline : o.line = i :: rest)
    (hover : ∀ u, o.users[i]? = some u → u.turn.isOver) :
    Ledger log given { o with line := o.line.tail } := by
  rw [hline]
  exact ⟨h.queued.passed hline hover, h.noted.congr rfl rfl rfl rfl, h.shut,
    h.given.congr rfl rfl rfl⟩

/-- Whoever has an outcome is over. -/
theorem Ledger.finished {rest : List Nat} {outcome : Except ClientError Unit}
    (h : Ledger log given (o.move i (.done outcome))) (hline : o.line = i :: rest) :
    Ledger log given (o.finish i outcome) := by
  refine h.passed hline fun u hu => ?_
  rw [getElem?_move] at hu
  obtain ⟨v, -, rfl⟩ := Option.map_eq_some_iff.mp hu
  rw [if_pos rfl]
  trivial

/-! ### What going on is noted by -/

/-- Whoever holds the connection to write goes on. -/
theorem Ledger.proceed_write {channel : Channel} {payload : Bytes} {frame : Option Bytes}
    {rest : List Nat} (h : Ledger log given o) (hline : o.line = i :: rest)
    (hu : o.users[i]? = some ⟨.write channel payload, .holding frame⟩) :
    ∃ given', Ledger log given' (o.proceed i (.write channel payload) frame) := by
  have huse {use : Use} (huses : o.Uses i use) : use = .write channel payload := by
    obtain ⟨turn, huses⟩ := huses
    cases hu.symm.trans huses
    rfl
  have goesOn {progress : Wire.Progress} {sink : Sink κ} {left : Option Bytes} (turn : Turn)
      (hcarries : o.sink.Carries progress sink frame left) (hturn : turn ≠ .waiting)
      (hholds : ∀ bytes, turn = .holding bytes → bytes = left)
      (hwrote : turn = .done (.ok ()) → progress = some (.ok ())) :
      ∃ given', Ledger log given' ({ o with sink }.move i turn) := by
    obtain ⟨given', hgiven⟩ := h.given.goOn h.queued hline hu hcarries.toKeeps hholds hwrote
    have hqueued : ({ o with sink } : Outbound κ).Queued := h.queued.congr rfl rfl
    have hnoted : Noted log { o with sink } := h.noted.congr rfl rfl rfl rfl
    have hshut : Shut log { o with sink } := by
      unfold Shut
      rw [hcarries.closed]
      exact h.shut
    have hturned := hnoted.turned turn (outcome?_of_holding hu) hturn (.inr fun use huses => by
      rw [huse huses]
      exact h.noted.held i _ frame hu)
    refine ⟨given', hqueued.turned hline turn, hturned, hshut.turned fun _ _ huses => ?_, hgiven⟩
    cases huse huses
  have hcarries := o.sink.carries_send frame
  rw [proceed]
  split
  · obtain ⟨given', hledger⟩ := goesOn (.done (.error .cancelled)) (o.sink.carries_self frame)
      (by simp) (by simp) (by simp)
    exact ⟨given', hledger.finished hline⟩
  · split
    · rename_i sink left heq
      rw [heq] at hcarries
      exact goesOn _ hcarries (by simp) (fun _ hbytes => by cases hbytes; rfl) (by simp)
    · rename_i outcome sink left heq
      rw [heq] at hcarries
      obtain ⟨given', hledger⟩ := goesOn (.done (outcome.mapError o.failure)) hcarries
        (by simp) (by simp) fun hok => by
          cases outcome <;> cases hok
          rfl
      exact ⟨given', hledger.finished hline⟩

/-- The closing of the connection has come to the end, or goes on. -/
theorem closing_cases (o : Outbound κ) (i : Nat) :
    o.sink.close.1 = some (.ok ()) ∧ o.closing i = [.closed i] ∨
      o.sink.close.1 ≠ some (.ok ()) ∧ o.closing i = [] := by
  unfold closing
  split
  · rename_i heq
    exact .inl ⟨heq, rfl⟩
  · rename_i hne
    exact .inr ⟨hne, rfl⟩

/-- Whoever holds the connection to close it goes on. -/
theorem Ledger.proceed_close {frame : Option Bytes} {rest : List Nat}
    (h : Ledger log given o) (left : Option Bytes) (hline : o.line = i :: rest)
    (hu : o.users[i]? = some ⟨.close, .holding frame⟩) (hbegun : o.closed = true) :
    Ledger (log ++ o.closing i) given (o.proceed i .close left) := by
  have huse {use : Use} (huses : o.Uses i use) : use = .close := by
    obtain ⟨turn, huses⟩ := huses
    cases hu.symm.trans huses
    rfl
  have goesOn (turn : Turn) (hturn : turn ≠ .waiting)
      (hholds : ∀ frame, turn = .holding frame → o.sink.close.1 ≠ some (.ok ())) :
      Ledger (log ++ o.closing i) given ({ o with sink := o.sink.close.2 }.move i turn) := by
    have hqueued : ({ o with sink := o.sink.close.2 } : Outbound κ).Queued :=
      h.queued.congr rfl rfl
    have hnoted : Noted log { o with sink := o.sink.close.2 } := h.noted.congr rfl rfl rfl rfl
    have hturned := hnoted.turned turn (outcome?_of_holding hu) hturn (.inr fun use huses => by
      rw [huse huses]
      exact h.noted.held i _ frame hu)
    have hgiven := (h.given.cleared o.sink.keeps_close).turned turn
      fun _ _ (huses : o.Uses i _) => by cases huse huses
    obtain ⟨hopen, hclosings⟩ := h.shut.resolve_right fun hshut => hshut.2.2.2 i frame hu
    rcases o.closing_cases i with ⟨hok, hclosing⟩ | ⟨hok, hclosing⟩
    · rw [hclosing]
      obtain ⟨-, hwire⟩ := o.sink.closed_close.resolve_right fun hne => hne.1 hok
      refine ⟨hqueued.turned hline turn, hturned.close i, .inr ⟨hwire, ?_, hbegun, ?_⟩,
        hgiven.append _⟩
      · rw [closings_append, hclosings]
        rfl
      · intro j other hother
        rcases users_move_cases (o := o) hother with ⟨rfl, hself, -⟩ | ⟨hne, hother⟩
        · exact hholds other hself.symm hok
        · exact hne (h.queued.eq_of_holding hline hother).symm
    · rw [hclosing, List.append_nil]
      obtain ⟨-, hwire⟩ := o.sink.closed_close.resolve_left fun heq => hok heq.1
      exact ⟨hqueued.turned hline turn, hturned, .inl ⟨hwire.trans hopen, hclosings⟩, hgiven⟩
  rw [proceed]
  split
  · rename_i sink heq
    rw [heq] at goesOn
    exact goesOn _ (by simp) fun _ _ => by simp
  · rename_i outcome sink heq
    rw [heq] at goesOn
    exact (goesOn (.done (outcome.mapError o.failure)) (by simp) (by simp)).finished hline

/-! ### What getting the connection is noted by -/

/-- Somebody gets the connection, and comes as far as `turn`. -/
theorem Ledger.acquire {use : Use} {closed : Bool} {rest : List Nat}
    (h : Ledger log given o) (hline : o.line = i :: rest)
    (hu : o.users[i]? = some ⟨use, .waiting⟩) (turn : Turn) (hturn : turn ≠ .waiting)
    (hclosed : closed = true ↔ o.closed = true ∨ use = .close)
    (hrefused : o.closed = true ∨ o.fired = true → use ≠ .close →
      turn = .done (.error (o.failure .closed)))
    (hrepeated : o.closed = true → use = .close → turn = .done (.ok ()))
    (hgiven : Given (log ++ [.acquired i use]) given ({ o with closed }.move i turn)) :
    Ledger (log ++ [.acquired i use]) given ({ o with closed }.move i turn) := by
  have hqueued : ({ o with closed } : Outbound κ).Queued := h.queued.congr rfl rfl
  have hclosings : closings (log ++ [.acquired i use]) = closings log :=
    (closings_append _ _).trans (List.append_nil _)
  have hshut : Shut (log ++ [.acquired i use]) { o with closed } := by
    unfold Shut
    rw [hclosings]
    refine h.shut.imp id fun ⟨hwire, hlength, hbegun, hnobody⟩ => ?_
    exact ⟨hwire, hlength, hclosed.mpr (.inl hbegun), hnobody⟩
  refine ⟨hqueued.turned hline turn,
    h.noted.acquire h.queued hline hu hturn hclosed hrefused hrepeated,
    hshut.turned fun frame hholds huses => ?_, hgiven⟩
  obtain ⟨_, huses⟩ := huses
  cases hu.symm.trans huses
  -- whoever finds the connection closed does not hold it
  rcases h.shut with ⟨hwire, -⟩ | ⟨-, -, hbegun, -⟩
  · exact hwire
  · cases hholds.symm.trans (hrepeated hbegun rfl)

theorem Ledger.acquire_write {channel : Channel} {payload : Bytes} {rest : List Nat}
    (h : Ledger log given o) (hline : o.line = i :: rest)
    (hu : o.users[i]? = some ⟨.write channel payload, .waiting⟩) :
    ∃ given', Ledger (log ++ [.acquired i (.write channel payload)]) given'
      (o.acquire i (.write channel payload)) := by
  have hsame : o.closed = true ↔ o.closed = true ∨ Use.write channel payload = .close :=
    by simp
  rw [Outbound.acquire]
  split
  · have hrefused := h.acquire hline hu (.done (.error (o.failure .closed))) (by simp) hsame
      (fun _ _ => rfl) (by simp) ((h.given.append _).turned _ fun _ _ _ => by simp)
    exact ⟨given, hrefused.finished hline⟩
  · rename_i hgoes
    have hgoes : ¬ (o.closed = true ∨ o.fired = true) := by
      rwa [Bool.or_eq_true] at hgoes
    have hbegun := h.acquire hline hu (.holding (some (channel.frame payload))) (by simp) hsame
      (fun hstopped => absurd hstopped hgoes) (by simp)
      (h.given.begin h.queued hline hu fun hstopped => hgoes (h.noted.stopped_iff.mp hstopped))
    rw [← proceed_move o i (.holding (some (channel.frame payload)))]
    exact hbegun.proceed_write hline (users_move_self hu _)

theorem Ledger.acquire_close {rest : List Nat} (h : Ledger log given o) (hline : o.line = i :: rest)
    (hu : o.users[i]? = some ⟨.close, .waiting⟩) :
    Ledger (log ++ .acquired i .close :: if o.closed then [] else o.closing i) given
      (o.acquire i .close) := by
  have hgiven {turn : Turn} :
      Given (log ++ [.acquired i .close]) given ({ o with closed := true }.move i turn) := by
    have hsame : Given (log ++ [.acquired i .close]) given { o with closed := true } :=
      (h.given.append _).congr rfl rfl rfl
    refine hsame.turned turn fun _ _ huses => ?_
    obtain ⟨_, huses⟩ := huses
    cases hu.symm.trans huses
  have hboth : true = true ↔ o.closed = true ∨ Use.close = .close :=
    ⟨fun _ => .inr rfl, fun _ => rfl⟩
  rw [Outbound.acquire]
  split
  · rename_i hclosed
    have hsame : ({ o with closed := true } : Outbound κ) = o := by
      rw [← hclosed]
    have hrepeated := h.acquire hline hu (.done (.ok ())) (by simp) hboth
      (fun _ hne => absurd rfl hne) (fun _ _ => rfl) hgiven
    rw [hsame] at hrepeated
    exact hrepeated.finished hline
  · rename_i hopen
    have hbegun := h.acquire hline hu (.holding none) (by simp) hboth
      (fun _ hne => absurd rfl hne) (fun hclosed => absurd hclosed hopen) hgiven
    have hholds : ({ o with closed := true }.move i (.holding none)).users[i]? =
        some ⟨.close, .holding none⟩ := users_move_self hu (.holding none)
    have hclose := hbegun.proceed_close none hline hholds rfl
    rw [proceed_move, List.append_assoc] at hclose
    exact hclose

/-! ### Every step -/

theorem Ledger.advance (h : Ledger log given o) :
    ∃ given', Ledger (log ++ o.occurring) given' o.advance := by
  cases hline : o.line with
  | nil =>
    simp only [occurring, Outbound.advance, hline, List.append_nil]
    exact ⟨given, h⟩
  | cons i rest =>
    have passes (hover : ∀ u, o.users[i]? = some u → u.turn.isOver) :
        Ledger (log ++ []) given { o with line := rest } := by
      have hpassed := h.passed hline hover
      rw [hline] at hpassed
      rw [List.append_nil]
      exact hpassed
    simp only [occurring, Outbound.advance, hline]
    cases hu : o.users[i]? with
    | none => exact ⟨given, passes fun u hother => by cases hu.symm.trans hother⟩
    | some u =>
      obtain ⟨use, turn⟩ := u
      cases turn with
      | waiting =>
        cases use with
        | write channel payload => exact h.acquire_write hline hu
        | close => exact ⟨given, h.acquire_close hline hu⟩
      | holding frame =>
        cases use with
        | write channel payload =>
          dsimp only
          rw [List.append_nil]
          exact h.proceed_write hline hu
        | close =>
          have hclosed : o.closed = true :=
            h.noted.closed.mpr (closers_ne_nil_iff.mpr ⟨i, h.noted.held i _ frame hu⟩)
          exact ⟨given, h.proceed_close frame hline hu hclosed⟩
      | done outcome =>
        have hpassed := passes fun u hother => by
          cases hu.symm.trans hother
          trivial
        cases use <;> exact ⟨given, hpassed⟩
      | left =>
        have hpassed := passes fun u hother => by
          cases hu.symm.trans hother
          trivial
        cases use <;> exact ⟨given, hpassed⟩

theorem Ledger.join (h : Ledger log given o) (use : Use) : Ledger log given (o.join use) := by
  refine ⟨h.queued.join use, h.noted.join use, ?_, h.given.join use⟩
  refine h.shut.imp id fun ⟨hwire, hlength, hclosed, hnobody⟩ => ?_
  exact ⟨hwire, hlength, hclosed, fun j frame hu => hnobody j frame (users_of_join hu nofun)⟩

theorem Ledger.leave (h : Ledger log given o) (hnone : o.outcome? i = none) :
    Ledger log given (o.leave i) := by
  have hnoted := h.noted.turned .left hnone nofun (.inl rfl)
  have hshut : Shut log (o.move i .left) := h.shut.turned fun _ hholds => by cases hholds
  have hgiven : Given log given (o.move i .left) := h.given.turned _ fun _ _ _ => ⟨nofun, nofun⟩
  exact ⟨h.queued.leave i, hnoted.congr rfl rfl rfl rfl, hshut, hgiven.congr rfl rfl rfl⟩

theorem Ledger.happen (h : Ledger log given o) (deed : δ) : Ledger log given (o.happen deed) :=
  ⟨h.queued.congr rfl rfl, h.noted.congr rfl rfl rfl rfl, h.shut, h.given.congr rfl rfl rfl⟩

theorem Ledger.callOff (h : Ledger log given o) :
    Ledger (log ++ [.calledOff]) given { o with fired := true } := by
  have hclosings : closings (log ++ [.calledOff]) = closings log :=
    (closings_append _ _).trans (List.append_nil _)
  refine ⟨h.queued.congr rfl rfl, h.noted.callOff, ?_, (h.given.append _).congr rfl rfl rfl⟩
  unfold Shut
  rw [hclosings]
  exact h.shut

theorem ledger_start (path : String) (state : κ) : Ledger [] [] (start path state) where
  queued := ⟨nofun, .nil, nofun, nofun⟩
  noted := noted_start path _
  shut := .inl ⟨rfl, rfl⟩
  given := ⟨rfl, .refl _, nofun, nofun, nofun⟩

/-- What the notes say stays true through all steps. -/
theorem Ledger.steps {more : List Occurrence} (h : Ledger log given o) (hsteps : o.Steps more o') :
    ∃ given', Ledger (log ++ more) given' o' := by
  induction hsteps with
  | refl => exact ⟨given, by rwa [List.append_nil]⟩
  | advance _ ih =>
    obtain ⟨given', hledger⟩ := ih
    rw [← List.append_assoc]
    exact hledger.advance
  | join use _ ih => exact ih.imp fun _ hledger => hledger.join use
  | leave hnone _ ih => exact ih.imp fun _ hledger => hledger.leave hnone
  | happen deed _ ih => exact ih.imp fun _ hledger => hledger.happen deed
  | callOff _ ih =>
    rw [← List.append_assoc]
    exact ih.imp fun _ hledger => hledger.callOff

/-! ### The order of the frames -/

/-- Everything about those who use a connection is in order: `handed` are the writes whose frames
were handed over. -/
structure Orderly (log : List Occurrence) (handed : List Writing) (o : Outbound κ) : Prop where
  /-- Nobody gets the connection twice, and they get it in the order in which they came. -/
  ordered : (acquirers log).Pairwise (· < ·)
  uses : ∀ i use, Occurrence.acquired i use ∈ log → o.Uses i use
  /-- Whoever has an outcome has had the connection. -/
  ended : ∀ i outcome, o.outcome? i = some outcome → i ∈ acquirers log
  frames : o.sink.wire.frames = handed.map Writing.frame
  /-- Only those write who get the connection before the first close and before the caller calls
  off, in that order. -/
  inTime : handed.Sublist (admitted log)
  decoded : ∀ w ∈ handed, Channel.ofFrame w.frame = .ok (w.channel, w.payload)
  /-- Nobody hands over two frames. -/
  once : (handed.map Writing.user).Nodup
  written : ∀ i channel payload, o.Uses i (.write channel payload) →
    o.outcome? i = some (.ok ()) → Writing.mk i channel payload ∈ handed
  refused : ∀ w ∈ late log, o.outcome? w.user = some (.error (o.failure .closed)) ∧
    w.user ∉ handed.map Writing.user
  closedOnce : (closings log).length ≤ 1
  closed : o.sink.wire.closed = true ↔ closings log ≠ []
  /-- Whoever comes to close the connection again has nothing to do. -/
  repeated : ∀ i ∈ (closers log).tail, o.outcome? i = some (.ok ())

theorem acquirers_eq (log : List Occurrence) :
    acquirers log =
      acquirers (log.takeWhile (!·.stops)) ++ acquirers (log.dropWhile (!·.stops)) := by
  rw [acquirers, acquirers, acquirers, ← List.filterMap_append, List.takeWhile_append_dropWhile]

/-- Whoever writes has got the connection. -/
theorem users_sublist (log : List Occurrence) :
    ((log.filterMap Occurrence.writing?).map Writing.user).Sublist (acquirers log) := by
  induction log with
  | nil => exact .refl _
  | cons x log ih =>
    cases x with
    | acquired i use =>
      cases use with
      | write channel payload => exact ih.cons_cons i
      | close => exact ih.cons i
    | calledOff => exact ih
    | closed i => exact ih

theorem orderly_of_ledger (h : Ledger log given o) :
    Orderly log (given.take o.sink.wire.frames.length) o := by
  have hinTime : (given.take o.sink.wire.frames.length).Sublist (admitted log) :=
    (List.take_sublist _ _).trans h.given.inTime
  have husers := hinTime.map Writing.user
  have hsorted := h.noted.ordered
  rw [acquirers_eq, List.pairwise_append] at hsorted
  constructor
  · exact h.noted.ordered
  · exact h.noted.uses
  · intro i outcome houtcome
    obtain ⟨use, hu⟩ := outcome?_eq_some.mp houtcome
    exact List.mem_filterMap.mpr ⟨_, h.noted.ended i use outcome hu, rfl⟩
  · rw [List.map_take, ← h.given.content, Sink.content, List.take_left]
  · exact hinTime
  · exact fun w _ => Channel.ofFrame_frame w.channel w.payload
  · exact ((hsorted.1.sublist (users_sublist _)).sublist husers).imp Nat.ne_of_lt
  · intro i channel payload huses houtcome
    obtain ⟨use, hu⟩ := outcome?_eq_some.mp houtcome
    obtain ⟨turn, huses⟩ := huses
    cases hu.symm.trans huses
    exact h.given.sent i channel payload hu
  · intro w hw
    refine ⟨h.noted.refused w hw, fun hhanded => ?_⟩
    have hearly := (husers.trans (users_sublist _)).subset hhanded
    have hlate := (users_sublist _).subset (List.mem_map_of_mem hw)
    exact absurd (hsorted.2.2 _ hearly _ hlate) (Nat.lt_irrefl _)
  · rcases h.shut with ⟨-, hnil⟩ | ⟨-, hlength, -⟩
    · exact hnil ▸ Nat.zero_le 1
    · exact Nat.le_of_eq hlength
  · rcases h.shut with ⟨hwire, hnil⟩ | ⟨hwire, hlength, -⟩
    · rw [hwire, hnil]
      exact ⟨nofun, fun h => absurd rfl h⟩
    · refine ⟨fun _ hnil => ?_, fun _ => hwire⟩
      rw [hnil] at hlength
      cases hlength
  · exact h.noted.repeated

end Outbound
end KubeClient
