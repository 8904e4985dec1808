import KubeClient.Proofs.WatchPolls

/-!
# A watch from its start

The body brings what it brings, the caller calls off or not, and the stream is polled, in any order.

* `Watching`, `Watching.run` : a stream with what its body has brought, and events one after the
  other, where a stream that has ended is not polled any more;
* `Watching.brought`, `yielded` : what the body brings, and the items among the answers;
* `Watching.Course` : what a run takes from the feed, and how its items go with that;
* `Watching.Proper` : what every run keeps, and what is left of a stream that has ended;
* `Watching.run_calledOff` : the polls behind calling off;
* `Watching.watch_cut_short`, `Watching.watch_calledOff` : the items of a watch that is called off,
  and when it ends.
-/

namespace KubeClient

/-- What is known of a watch between two polls: its stream, whether the caller has called off, what
the body has brought and no poll has taken yet, and whether the end has been answered. -/
structure Watching where
  stream : WatchStream
  fired : Bool
  feed : Feed
  hasEnded : Bool

/-- The answer is the end. -/
def Polled.isEnd {α : Type} : Polled α → Bool
  | .ended => true
  | _ => false

/-- The items among answers. -/
def yielded {α : Type} (answers : List (Polled α)) : List (WatchItem α) :=
  answers.filterMap fun
    | .item i => some i
    | _ => none

theorem yielded_cons {α : Type} (polled : Polled α) (answers : List (Polled α)) :
    yielded (polled :: answers) = yielded [polled] ++ yielded answers := by
  rw [yielded, ← List.singleton_append, List.filterMap_append]
  rfl

namespace Watching

/-- What happens to a watch: the body brings something, the caller calls off, or the stream is
polled. A wait in which the caller calls off does so when a poll comes to it. The stream must not be
polled behind its end, and there it is not: `Event.poll` then does nothing. -/
inductive Event
  | brings (wait : Wait TransportError (Option Bytes))
  | callsOff
  | poll

/-- A watch that has just begun. -/
def start (method : Method) (path : String) (serializer : Serializer) : Watching :=
  ⟨.start method path serializer, false, [], false⟩

variable (α : Type) [Documented α]

/-- An event, with the answer to a poll. -/
def perform (w : Watching) : Event → List (Polled α) × Watching
  | .brings wait => ([], { w with feed := w.feed ++ [wait] })
  | .callsOff => ([], { w with fired := true })
  | .poll =>
    if w.hasEnded then ([], w) else
      let (polled, stream, fired, feed) := w.stream.poll α w.fired w.feed
      ([polled], ⟨stream, fired, feed, polled.isEnd⟩)

/-- Events one after the other, with the answers to all polls. -/
def run (w : Watching) : List Event → List (Polled α) × Watching
  | [] => ([], w)
  | event :: events =>
    let (now, w) := w.perform α event
    let (later, w) := run w events
    (now ++ later, w)

/-- What the body brings. -/
def brought (events : List Event) : Feed :=
  events.filterMap fun
    | .brings wait => some wait
    | _ => none

/-- How often the stream is polled. -/
def polls (events : List Event) : Nat :=
  events.countP fun
    | .poll => true
    | _ => false

variable {α} {w w' : Watching} {events : List Event}

theorem run_poll {polled : Polled α} {s : WatchStream} {fired : Bool} {feed : Feed}
    (hgoes : w.hasEnded = false) (h : w.stream.poll α w.fired w.feed = (polled, s, fired, feed))
    (events : List Event) :
    w.run α (.poll :: events) =
      (polled :: (run α ⟨s, fired, feed, polled.isEnd⟩ events).1,
        (run α ⟨s, fired, feed, polled.isEnd⟩ events).2) := by
  rw [run, perform, if_neg (Bool.eq_false_iff.mp hgoes), h]
  rfl

theorem run_poll_of_hasEnded (hended : w.hasEnded = true) (events : List Event) :
    w.run α (.poll :: events) = w.run α events := by
  rw [run, perform, if_pos hended]
  rfl

/-- Behind its end a watch answers nothing, and its stream stays as it is. -/
theorem run_of_hasEnded (hended : w.hasEnded = true) (events : List Event) :
    (w.run α events).1 = [] ∧ (w.run α events).2.stream = w.stream := by
  induction events generalizing w with
  | nil => exact ⟨rfl, rfl⟩
  | cons event events ih =>
    cases event with
    | brings wait => exact ih (w := { w with feed := w.feed ++ [wait] }) hended
    | callsOff => exact ih (w := { w with fired := true }) hended
    | poll =>
      rw [run_poll_of_hasEnded hended]
      exact ih hended

/-! ### What a run takes from the body -/

/-- What a run has taken from the body, and how its items go with that. -/
structure Course (w : Watching) (events : List Event) (items : List (WatchItem α)) (pulled : Feed)
    (w' : Watching) : Prop where
  feed_eq : w.feed ++ brought events = pulled ++ w'.feed
  late : w.fired = true → pulled = []
  unfired : ∀ wait ∈ pulled.dropLast, wait.hasFired = false
  fired_iff : w'.fired = true ↔
    w.fired = true ∨ .callsOff ∈ events ∨ ∃ wait ∈ pulled, wait.hasFired = true
  isPrefix : ∀ rest, items <+: w.stream.items α false (pulled.unfired ++ rest)

variable {items : List (WatchItem α)} {pulled : Feed}

theorem Course.nil (w : Watching) : w.Course [] ([] : List (WatchItem α)) [] w where
  feed_eq := List.append_nil _
  late _ := rfl
  unfired _ h := absurd h List.not_mem_nil
  fired_iff := by simp
  isPrefix _ := List.nil_prefix

theorem Course.brings {wait : Wait TransportError (Option Bytes)}
    (h : Course { w with feed := w.feed ++ [wait] } events items pulled w') :
    w.Course (.brings wait :: events) items pulled w' where
  feed_eq := by
    have hbrought : brought (.brings wait :: events) = wait :: brought events := rfl
    rw [hbrought, ← h.feed_eq, List.append_assoc, List.singleton_append]
  late := h.late
  unfired := h.unfired
  fired_iff := by simpa using h.fired_iff
  isPrefix := h.isPrefix

theorem Course.callsOff (h : Course { w with fired := true } events items pulled w') :
    w.Course (.callsOff :: events) items pulled w' where
  feed_eq := h.feed_eq
  late _ := h.late rfl
  unfired := h.unfired
  fired_iff := by simpa using h.fired_iff
  isPrefix := h.isPrefix

theorem Course.poll {s : WatchStream} {fired hasEnded : Bool} {feed taken : Feed}
    {polled : Polled α} (hpulls : WatchStream.Pulls w.fired w.feed taken fired feed)
    (hanswers : w.stream.Answers taken s polled)
    (h : Course ⟨s, fired, feed, hasEnded⟩ events items pulled w')
    (hended : polled = .ended → items = []) :
    w.Course (.poll :: events) (yielded [polled] ++ items) (taken ++ pulled) w' where
  feed_eq := by
    have hbrought : brought (.poll :: events) = brought events := rfl
    rw [hbrought, hpulls.feed_eq, List.append_assoc, List.append_assoc, ← h.feed_eq]
  late hfired := by
    rw [hpulls.late hfired, h.late (hpulls.fired_iff.mpr (.inl hfired)), List.append_nil]
  unfired := by
    cases pulled with
    | nil =>
      rw [List.append_nil]
      exact hpulls.unfired
    | cons wait pulled =>
      -- something was taken later, so no wait had fired until then
      have hquiet : ∀ wait ∈ taken, wait.hasFired = false := by
        intro wait hwait
        refine Bool.eq_false_iff.mpr fun hfired => List.cons_ne_nil _ _ (h.late ?_)
        exact hpulls.fired_iff.mpr (.inr ⟨wait, hwait, hfired⟩)
      rw [List.dropLast_append_of_ne_nil (List.cons_ne_nil wait pulled)]
      exact List.forall_mem_append.mpr ⟨hquiet, h.unfired⟩
  fired_iff := by
    rw [h.fired_iff, hpulls.fired_iff]
    simp only [List.mem_cons, reduceCtorEq, false_or, List.mem_append, or_and_right, exists_or]
    exact or_assoc.trans (or_congr_right or_left_comm)
  isPrefix rest := by
    rw [Feed.unfired_append, List.append_assoc]
    cases polled with
    | item item =>
      rw [hanswers]
      exact List.cons_prefix_cons.mpr ⟨rfl, h.isPrefix rest⟩
    | pending =>
      rw [hanswers]
      exact h.isPrefix rest
    | ended =>
      rw [hended rfl]
      exact List.nil_prefix

/-- A poll that is left out takes nothing. -/
theorem Course.poll_ended (h : w.Course events items pulled w') :
    w.Course (.poll :: events) items pulled w' where
  feed_eq := h.feed_eq
  late := h.late
  unfired := h.unfired
  fired_iff := by simpa using h.fired_iff
  isPrefix := h.isPrefix

theorem exists_course (w : Watching) (events : List Event) :
    ∃ pulled, w.Course events (yielded (w.run α events).1) pulled (w.run α events).2 := by
  -- each event adds to what the rest of the run takes
  induction events generalizing w with
  | nil => exact ⟨[], .nil w⟩
  | cons event events ih =>
    cases event with
    | brings wait =>
      obtain ⟨pulled, h⟩ := ih { w with feed := w.feed ++ [wait] }
      exact ⟨pulled, h.brings⟩
    | callsOff =>
      obtain ⟨pulled, h⟩ := ih { w with fired := true }
      exact ⟨pulled, h.callsOff⟩
    | poll =>
      cases hgoes : w.hasEnded with
      | true =>
        obtain ⟨pulled, h⟩ := ih w
        rw [run_poll_of_hasEnded hgoes]
        exact ⟨pulled, h.poll_ended⟩
      | false =>
        obtain ⟨⟨polled, s, fired, feed⟩, hpoll⟩ :=
          Exists.intro (w.stream.poll α w.fired w.feed) rfl
        obtain ⟨taken, hpulls, hanswers⟩ := WatchStream.exists_pulled hpoll
        obtain ⟨pulled, h⟩ := ih ⟨s, fired, feed, polled.isEnd⟩
        rw [run_poll hgoes hpoll, yielded_cons]
        refine ⟨taken ++ pulled, h.poll hpulls hanswers ?_⟩
        rintro rfl
        rw [(run_of_hasEnded rfl events).1]
        rfl

/-! ### Items that have come -/

/-- The items in the lines that have come and that no poll has answered yet. -/
def buffered (α : Type) [Documented α] (s : WatchStream) : List (WatchItem α) :=
  WatchStream.throughLast (WatchStream.lineItems α s.serializer s.lines.bytes)

theorem lineItems_of_buffered {s : WatchStream} (h : buffered α s = []) :
    WatchStream.lineItems α s.serializer s.lines.bytes = [] := by
  rw [buffered] at h
  cases hi : WatchStream.lineItems α s.serializer s.lines.bytes with
  | nil => rfl
  | cons item found =>
    rw [hi, WatchStream.throughLast] at h
    split at h <;> cases h

/-- The first item that is buffered is the answer to any poll; behind one that is the last the body
is not held any more. -/
theorem exists_poll_buffered {s : WatchStream} (hs : s.lines.IsScanned) {item : WatchItem α}
    (h : buffered α s = item :: items) :
    ∃ s', (∀ fired feed, s.poll α fired feed = (.item item, s', fired, feed)) ∧
      s'.lines.IsScanned ∧ buffered α s' = items ∧
      (s'.isOpen = true ↔ s.isOpen = true ∧ item.isLast = false) := by
  rw [buffered] at h
  cases hi : WatchStream.lineItems α s.serializer s.lines.bytes with
  | nil =>
    rw [hi] at h
    cases h
  | cons first found =>
    obtain ⟨rest, hr, -, hpoll⟩ := WatchStream.poll_item hs hi
    rw [hi, WatchStream.throughLast] at h
    split at h
    · rename_i hl
      cases h
      rw [WatchStream.settle, if_pos hl] at hpoll
      refine ⟨_, hpoll, LineBuffer.isScanned_zero [], ?_, ?_⟩
      · exact congrArg WatchStream.throughLast (WatchStream.lineItems_empty s.serializer)
      · simp [WatchStream.stop, hl]
    · rename_i hl
      cases h
      rw [WatchStream.settle, if_neg hl] at hpoll
      refine ⟨_, hpoll, LineBuffer.isScanned_zero rest, ?_, ?_⟩
      · rw [buffered, hr]
      · simp [hl]

/-! ### What every run keeps -/

/-- What a run keeps: the lines have been searched as far as they say, and a stream that has ended
has let its body go and holds no item. -/
structure Proper (α : Type) [Documented α] (w : Watching) : Prop where
  isScanned : w.stream.lines.IsScanned
  spent : w.hasEnded = true → w.stream.isOpen = false ∧ buffered α w.stream = []

theorem proper_start (method : Method) (path : String) (serializer : Serializer) :
    Proper α (start method path serializer) :=
  ⟨LineBuffer.isScanned_zero [], fun h => by cases h⟩

theorem Proper.poll {polled : Polled α} {s : WatchStream} {fired : Bool} {feed : Feed}
    (hw : w.Proper α) (h : w.stream.poll α w.fired w.feed = (polled, s, fired, feed)) :
    Proper α ⟨s, fired, feed, polled.isEnd⟩ where
  isScanned := (WatchStream.poll_keeps h hw.isScanned).isScanned
  spent hend := by
    obtain ⟨_, -, hanswers⟩ := WatchStream.exists_pulled h
    cases polled with
    | item item => cases hend
    | pending => cases hend
    | ended =>
      obtain ⟨hclosed, hpoll⟩ := hanswers
      refine ⟨hclosed, ?_⟩
      -- an item that is held would be the answer to the next poll
      cases hb : buffered α s with
      | nil => rfl
      | cons item items =>
        obtain ⟨s', hitem, -⟩ :=
          exists_poll_buffered (WatchStream.poll_keeps h hw.isScanned).isScanned hb
        cases (hpoll fired feed).symm.trans (hitem fired feed)

theorem run_keeps (w : Watching) (events : List Event) (hw : w.Proper α) :
    (w.run α events).2.Proper α ∧ .error .cancelled ∉ yielded (w.run α events).1 := by
  induction events generalizing w with
  | nil => exact ⟨hw, List.not_mem_nil⟩
  | cons event events ih =>
    cases event with
    | brings wait => exact ih { w with feed := w.feed ++ [wait] } ⟨hw.isScanned, hw.spent⟩
    | callsOff => exact ih { w with fired := true } ⟨hw.isScanned, hw.spent⟩
    | poll =>
      cases hgoes : w.hasEnded with
      | true =>
        rw [run_poll_of_hasEnded hgoes]
        exact ih w hw
      | false =>
        obtain ⟨⟨polled, s, fired, feed⟩, hpoll⟩ :=
          Exists.intro (w.stream.poll α w.fired w.feed) rfl
        obtain ⟨hproper, hne⟩ := ih ⟨s, fired, feed, polled.isEnd⟩ (hw.poll hpoll)
        rw [run_poll hgoes hpoll, yielded_cons]
        refine ⟨hproper, fun hmem => ?_⟩
        rcases List.mem_append.mp hmem with hnow | hlater
        · have hnever := (WatchStream.poll_keeps hpoll hw.isScanned).ne_cancelled
          cases polled with
          | item item => exact hnever item rfl (List.mem_singleton.mp hnow).symm
          | ended => cases hnow
          | pending => cases hnow
        · exact hne hlater

/-! ### Behind calling off -/

/-- The answers to some polls behind calling off: the items that are held, one after the other, and
then, once, the end. -/
def lastAnswers (items : List (WatchItem α)) (polls : Nat) : List (Polled α) :=
  (items.take polls).map .item ++ if items.length < polls then [.ended] else []

omit [Documented α] in
theorem lastAnswers_cons (item : WatchItem α) (items : List (WatchItem α)) (polls : Nat) :
    lastAnswers (item :: items) (polls + 1) = .item item :: lastAnswers items polls := by
  simp only [lastAnswers, List.take_succ_cons, List.map_cons, List.cons_append,
    List.length_cons, Nat.add_lt_add_iff_right]

/-- **The polls behind calling off** answer with what is buffered, and then with the end. The body
is held until an item comes that is the last, or the end. -/
theorem run_calledOff (hs : w.stream.lines.IsScanned) (hfired : w.fired = true)
    (hgoes : w.hasEnded = false) (later : List Event) :
    (w.run α later).1 = lastAnswers (buffered α w.stream) (polls later) ∧
    ((w.run α later).2.stream.isOpen = true ↔ w.stream.isOpen = true ∧
      polls later ≤ (buffered α w.stream).length ∧
      ∀ item ∈ (buffered α w.stream).take (polls later), item.isLast = false) := by
  induction later generalizing w with
  | nil => simp [run, polls, lastAnswers]
  | cons event later ih =>
    cases event with
    | brings wait => exact ih (w := { w with feed := w.feed ++ [wait] }) hs hfired hgoes
    | callsOff => exact ih (w := { w with fired := true }) hs rfl hgoes
    | poll =>
      have hpolls : polls (.poll :: later) = polls later + 1 :=
        List.countP_cons_of_pos rfl
      rw [hpolls]
      cases hb : buffered α w.stream with
      | nil =>
        obtain ⟨s', hpoll, hclosed, -⟩ :=
          WatchStream.poll_calledOff hs (lineItems_of_buffered hb) w.feed
        rw [← hfired] at hpoll
        rw [run_poll hgoes hpoll]
        obtain ⟨hnone, hstream⟩ :=
          run_of_hasEnded (α := α) (w := ⟨s', w.fired, w.feed, true⟩) rfl later
        refine ⟨?_, ?_⟩
        · exact congrArg (Polled.ended :: ·) hnone
        · simp [Polled.isEnd, hstream, hclosed]
      | cons item items =>
        obtain ⟨s', hpoll, hs', hb', hopen⟩ := exists_poll_buffered hs hb
        rw [run_poll hgoes (hpoll w.fired w.feed), lastAnswers_cons]
        obtain ⟨hanswers, hheld⟩ := ih (w := ⟨s', w.fired, w.feed, false⟩) hs' hfired rfl
        rw [hb'] at hanswers hheld
        refine ⟨congrArg (Polled.item item :: ·) hanswers, ?_⟩
        simp only [Polled.isEnd, hheld, hopen, List.take_succ_cons, List.length_cons,
          Nat.add_le_add_iff_right, List.forall_mem_cons, and_assoc]
        exact and_congr_right fun _ => and_left_comm

/-! ### Watches -/

/-- However what the body brings, polls and calling off follow each other, the items of a watch come
first among those that the same body brings to a caller who never calls off, whatever it brings
later. Of the body no more is taken than up to the wait in which the caller calls off, and nothing
behind calling off. Until its end has been taken, the items are those of lines whose line feed has
come, and calling off is never an item. -/
theorem watch_cut_short (α : Type) [Documented α] (method : Method) (path : String)
    (serializer : Serializer) (events : List Event) :
    let s := WatchStream.start method path serializer
    let (answers, w) := run α (start method path serializer) events
    let items := yielded answers
    (∀ more, items <+: s.items α false (Feed.unfired (brought events ++ more))) ∧
    (∃ pulled : Feed, brought events = pulled ++ w.feed ∧
      (∀ wait ∈ pulled.dropLast, wait.hasFired = false) ∧
      (w.fired = true ↔ .callsOff ∈ events ∨ ∃ wait ∈ pulled, wait.hasFired = true) ∧
      (pulled.goesOn = true →
        items <+: WatchStream.throughLast (WatchStream.lineItems α serializer pulled.bytes))) ∧
    (∀ later, w.fired = true → (w.run α later).2.feed = w.feed ++ brought later) ∧
    .error .cancelled ∉ items := by
  intro s
  obtain ⟨pulled, h⟩ := exists_course (α := α) (start method path serializer) events
  obtain ⟨-, hne⟩ := run_keeps (start method path serializer) events
    (proper_start (α := α) method path serializer)
  refine ⟨fun more => ?_, ⟨pulled, h.feed_eq, h.unfired, ?_, fun hgoes => ?_⟩, ?_, hne⟩
  · have hfeed : brought events = pulled ++ _ := h.feed_eq
    rw [hfeed, List.append_assoc, Feed.unfired_append]
    exact h.isPrefix _
  · exact h.fired_iff.trans (or_iff_right Bool.false_ne_true)
  · have hitems := h.isPrefix []
    rw [List.append_nil] at hitems
    exact WatchStream.items_of_goesOn (α := α) (s := s) rfl (LineBuffer.isScanned_zero []) hgoes ▸
      hitems
  · intro later hfired
    obtain ⟨pulled', h'⟩ := exists_course (α := α) (run α (start method path serializer) events).2
      later
    rw [h'.feed_eq, h'.late hfired, List.nil_append]

/-- Whenever the caller calls off, the polls behind that answer with the items in the lines that
have come, one after the other, and then with the end, and take nothing from the body. The next poll
is the end exactly if no item is left in those lines; the body is held until an item comes that is
the last one, or the end. A watch that had ended before answers nothing any more. -/
theorem watch_calledOff (α : Type) [Documented α] (method : Method) (path : String)
    (serializer : Serializer) (before later : List Event) :
    let w := (run α (start method path serializer) before).2
    let (answers, w') := w.run α (.callsOff :: later)
    let items := buffered α w.stream
    answers = (if w.hasEnded then [] else lastAnswers items (polls later)) ∧
    ((w.run α [.callsOff, .poll]).1 = [.ended] ↔ w.hasEnded = false ∧ items = []) ∧
    w'.feed = w.feed ++ brought later ∧
    (w'.stream.isOpen = true ↔ w.stream.isOpen = true ∧ polls later ≤ items.length ∧
      ∀ item ∈ items.take (polls later), item.isLast = false) := by
  intro w
  obtain ⟨hproper, -⟩ := run_keeps (start method path serializer) before
    (proper_start (α := α) method path serializer)
  have hfeed : (w.run α (.callsOff :: later)).2.feed = w.feed ++ brought later := by
    obtain ⟨pulled, h⟩ := exists_course (α := α) { w with fired := true } later
    have hfeed := h.feed_eq
    rw [h.late rfl] at hfeed
    exact hfeed.symm
  cases hgoes : w.hasEnded with
  | true =>
    have hclosed : w.stream.isOpen = false := (hproper.spent hgoes).1
    have hover (later : List Event) :=
      run_of_hasEnded (α := α) (w := { w with fired := true }) hgoes later
    obtain ⟨hnone, hstream⟩ := hover later
    have hheld := (congrArg WatchStream.isOpen hstream).trans hclosed
    refine ⟨hnone, ?_, hfeed, ?_⟩
    · exact iff_of_false (fun h => List.cons_ne_nil _ _ (h.symm.trans (hover [.poll]).1))
        fun h => Bool.false_ne_true h.1.symm
    · exact iff_of_false (Bool.eq_false_iff.mp hheld)
        fun h => Bool.false_ne_true (hclosed.symm.trans h.1)
  | false =>
    have hrun (later : List Event) :=
      run_calledOff (α := α) (w := { w with fired := true }) hproper.isScanned rfl hgoes later
    refine ⟨(hrun later).1, ?_, hfeed, (hrun later).2⟩
    have hnext : (w.run α [.callsOff, .poll]).1 = lastAnswers (buffered α w.stream) 1 :=
      (hrun [.poll]).1
    rw [hnext]
    cases buffered α w.stream <;> simp [lastAnswers]

/-- Two events come in one chunk, and the caller calls off behind the first of them: the next poll
answers with the second, and the body is still held. -/
theorem calledOff_with_line_left :
    let line := Utf8.encode "\x7b\"type\":\"ADDED\",\"object\":\x7b\x7d\x7d\n"
    let w := (run Value (start .get "/watch" ⟨"application/json", .json⟩)
      [.brings (.ends (.ok (some (line ++ line))) false), .poll]).2
    let (answers, w') := w.run Value [.callsOff, .poll]
    w.stream.isOpen = true ∧ (yielded answers).map WatchItem.isLast = [false] ∧
      w'.stream.isOpen = true := by
  decide +kernel

end Watching
end KubeClient
