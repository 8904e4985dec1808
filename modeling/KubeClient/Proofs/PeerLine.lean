import KubeClient.Proofs.OutboundLine

/-!
# The line in front of a peer

A peer makes others wait only while it is slow and has frames to read. So the line gets empty if the
peer reads on.

* `Sink.Owes` : how many frames somebody who goes on leaves to be read;
* `Outbound.settled_settle` : a line that has settled is empty or waits for the peer;
* `Outbound.owed` : how many frames the peer still has to read before the line is empty;
* `Outbound.owed_settle_le`, `Outbound.owed_happen_reads` : what those in line owe becomes no more,
  and less with every frame that is read.
-/

namespace KubeClient

/-- A peer that makes others wait is slow, and has something to read. -/
theorem Peer.unread_of_answer {p : Peer} (h : p.answer = none) : p.slow = true ∧ p.unread ≠ [] := by
  unfold answer at h
  split at h
  · cases h
  · split at h
    · assumption
    · cases h

namespace Sink

/-- The frames that are still to be read, and the one that was not handed over yet. -/
def owed (s : Sink Peer) : Nat :=
  s.wire.state.unread.length + s.slot.toList.length

/-- How a sink goes on while `before` frames come and `after` of them stay behind. -/
structure Owes (s : Sink Peer) (progress : Wire.Progress) (s' : Sink Peer) (before after : Nat) :
    Prop where
  slow : s'.wire.state.slow = s.wire.state.slow
  blocked : progress = none → s'.wire.state.answer = none
  owed : s'.owed + after ≤ s.owed + before

variable {s s₁ s' : Sink Peer} {progress : Wire.Progress} {frame left : Option Bytes}

/-- Whoever has come to the end does not wait. -/
theorem owes_of_done {outcome : Except TransportError Unit} {a b : Nat}
    (hslow : s₁.wire.state.slow = s.wire.state.slow) (howed : s₁.owed + b ≤ s.owed + a) :
    s.Owes (some outcome) s₁ a b := by
  refine ⟨hslow, fun h => ?_, howed⟩
  cases h

theorem owes_clear (s : Sink Peer) : s.Owes s.clear.1 s.clear.2 0 0 := by
  unfold clear
  split
  · exact owes_of_done rfl (Nat.le_refl _)
  · rename_i frame hslot
    split
    · rename_i wire hready
      obtain ⟨-, rfl⟩ := Prod.mk.inj hready
      refine owes_of_done rfl ?_
      simp only [owed, hslot, Option.toList_none, Option.toList_some, List.length_nil,
        List.length_singleton]
      exact Nat.le_of_eq List.length_append
    · rename_i hready
      obtain ⟨rfl, rfl⟩ := Prod.mk.inj hready
      exact ⟨rfl, id, Nat.le_refl _⟩

theorem owes_flush (s : Sink Peer) : s.Owes s.flush.1 s.flush.2 0 0 := by
  have hclear := owes_clear s
  unfold flush
  split
  · rename_i s₁ heq
    rw [heq] at hclear
    exact ⟨hclear.slow, id, hclear.owed⟩
  · exact hclear

theorem owes_send (s : Sink Peer) (frame : Option Bytes) :
    s.Owes (s.send frame).1 (s.send frame).2.1 frame.toList.length
      (s.send frame).2.2.toList.length := by
  unfold send
  cases frame with
  | none => exact owes_flush s
  | some frame =>
    have hclear := owes_clear s
    dsimp only
    split
    · rename_i s₁ heq
      rw [heq] at hclear
      have hflush := owes_flush { s₁ with slot := some frame }
      refine ⟨hflush.slow.trans hclear.slow, hflush.blocked, Nat.le_trans hflush.owed ?_⟩
      have howed := hclear.owed
      simp only [owed, Option.toList_some, List.length_singleton] at howed ⊢
      omega
    · rename_i progress s₁ hne heq
      rw [heq] at hclear
      exact ⟨hclear.slow, hclear.blocked, Nat.add_le_add_right hclear.owed 1⟩

theorem owes_close (s : Sink Peer) : s.Owes s.close.1 s.close.2 0 0 := by
  have hclear := owes_clear s
  unfold close
  split
  · rename_i s₁ heq
    rw [heq] at hclear
    cases hfailure : s₁.wire.state.failure with
    | none =>
      simp only [Wire.close, Connection.close, hfailure, Option.elim]
      exact owes_of_done hclear.slow hclear.owed
    | some e =>
      simp only [Wire.close, Connection.close, hfailure, Option.elim]
      exact owes_of_done hclear.slow hclear.owed
  · exact hclear

theorem GoesOn.owes (h : s.GoesOn progress s' frame left) :
    s.Owes progress s' frame.toList.length left.toList.length := by
  cases h with
  | rests outcome => exact owes_of_done rfl (Nat.le_refl _)
  | sends frame => exact owes_send s frame
  | closes => exact owes_close s

end Sink

theorem Turn.owed_holding (frame : Option Bytes) :
    (holding frame).owed = frame.toList.length :=
  rfl

theorem Turn.owed_done (outcome : Except ClientError Unit) : (done outcome).owed = 0 :=
  rfl

namespace Outbound

variable {o o' : Outbound Peer}

/-! ### Settling -/

/-- The line is empty, or its first waits for the peer to read. -/
def Settled (o : Outbound Peer) : Prop :=
  o.line = [] ∨ o.sink.wire.state.answer = none

theorem Moves.settled (h : o.Moves o') (hline : ¬ o'.line.length < o.line.length) : o'.Settled := by
  cases h with
  | idle hnil => exact .inl hnil
  | passed hcons => exact absurd (by rw [hcons]; exact Nat.lt_succ_self _) hline
  | finished hcons => exact absurd (by simp [finish, hcons]) hline
  | held _ _ hsink => exact .inr (hsink.owes.blocked rfl)

theorem settled_drain (fuel : Nat) (o : Outbound Peer) (h : o.line.length ≤ fuel) :
    (drain fuel o).Settled := by
  induction fuel generalizing o with
  | zero => exact .inl (List.eq_nil_of_length_eq_zero (Nat.le_zero.mp h))
  | succ fuel ih =>
    -- as long as there is fuel, it is the line that decides about the end
    rw [drain]
    split
    · rename_i hlt
      exact ih _ (Nat.le_of_lt_succ (Nat.lt_of_lt_of_le hlt h))
    · rename_i hlt
      exact o.moves_advance.settled hlt

/-- A line that has settled is empty or waits for the peer. -/
theorem settled_settle (o : Outbound Peer) : o.settle.Settled :=
  settled_drain _ o (Nat.le_refl _)

/-! ### The frames that are owed -/

/-- The frames that the peer still has to read before the line is empty. -/
def owed (o : Outbound Peer) : Nat :=
  o.sink.owed + (o.users.map (·.turn.owed)).sum

theorem sum_owed_modify {users : List User} {i : Nat} {u : User} (hu : users[i]? = some u)
    (turn : Turn) :
    ((users.modify i ({ · with turn })).map (·.turn.owed)).sum + u.turn.owed =
      (users.map (·.turn.owed)).sum + turn.owed := by
  induction users generalizing i with
  | nil => cases hu
  | cons v users ih =>
    cases i with
    | zero =>
      cases hu
      simp only [List.modify_zero_cons, List.map_cons, List.sum_cons]
      omega
    | succ i =>
      have hrest := ih hu
      simp only [List.modify_succ_cons, List.map_cons, List.sum_cons]
      omega

/-- A move of the line owes the peer nothing new. -/
theorem Moves.owed_le (h : o.Moves o') : o'.owed ≤ o.owed := by
  cases h with
  | idle => exact Nat.le_refl _
  | passed => exact Nat.le_refl _
  | @finished i rest u sink closed outcome progress frame left hline hu hsink hframe =>
    have hsum := sum_owed_modify hu (.done outcome)
    have howed := hsink.owes.owed
    simp only [Outbound.owed, finish, move, Turn.owed_done] at hsum ⊢
    omega
  | @held i rest u sink closed frame left hline hu hsink hframe =>
    have hsum := sum_owed_modify hu (.holding left)
    have howed := hsink.owes.owed
    simp only [Outbound.owed, move, Turn.owed_holding] at hsum ⊢
    omega

theorem owed_settle_le (o : Outbound Peer) : o.settle.owed ≤ o.owed :=
  settle_induction (P := (·.owed ≤ o.owed))
    (fun o' hle => Nat.le_trans o'.moves_advance.owed_le hle) (Nat.le_refl _)

/-- A frame that is read is owed no more. -/
theorem owed_happen_reads (h : o.sink.wire.state.unread ≠ []) :
    (o.happen .reads).owed < o.owed := by
  have hlength := List.length_pos_iff.mpr h
  have hunread : (o.happen .reads).sink.wire.state.unread = o.sink.wire.state.unread.tail := rfl
  have hslot : (o.happen .reads).sink.slot = o.sink.slot := rfl
  have husers : (o.happen .reads).users = o.users := rfl
  rw [owed, owed, Sink.owed, Sink.owed, hunread, hslot, husers, List.length_tail]
  omega

/-! ### The pace of the peer -/

theorem Moves.slow_eq (h : o.Moves o') : o'.sink.wire.state.slow = o.sink.wire.state.slow := by
  cases h with
  | idle => rfl
  | passed => rfl
  | finished _ _ hsink => exact hsink.owes.slow
  | held _ _ hsink => exact hsink.owes.slow

theorem lasts_slow (slow : Bool) :
    Lasts fun o : Outbound Peer => o.sink.wire.state.slow = slow where
  advance := fun {o} h => o.moves_advance.slow_eq.trans h
  join := fun _ h => h
  leave := fun _ _ h => h
  happen := fun deed h => by cases deed <;> exact h

end Outbound
end KubeClient
