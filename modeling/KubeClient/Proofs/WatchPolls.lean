import KubeClient.Proofs.CallingOff
import KubeClient.Proofs.WatchItems

/-!
# What one poll takes and gives

A poll takes waits from the feed of its stream, one after the other, and answers.

* `Feed.unfired` : the same feed for a caller who does not call off;
* `WatchStream.items_eq` : all items, one poll at a time;
* `WatchStream.Answers` : how an answer goes with what was taken;
* `WatchStream.exists_pulled` : what a poll takes, and how its answer goes with that;
* `WatchStream.poll_item`, `WatchStream.poll_calledOff` : the answer where an item is left in the
  lines, and the answer to a caller who has called off where none is.
-/

namespace KubeClient

namespace Feed

/-- The same waits for a caller who does not call off. -/
def unfired (feed : Feed) : Feed :=
  feed.filterMap fun
    | .ends outcome _ => some (.ends outcome false)
    | .fires => none

/-- The bytes of all chunks. -/
def bytes (feed : Feed) : Bytes :=
  feed.flatMap fun
    | .ends (.ok (some chunk)) _ => chunk
    | _ => []

/-- Neither the end of the body has come nor a failure. -/
def goesOn (feed : Feed) : Bool :=
  feed.all fun
    | .ends (.ok (some _)) _ | .fires => true
    | _ => false

theorem unfired_append (feed more : Feed) : unfired (feed ++ more) = feed.unfired ++ more.unfired :=
  List.filterMap_append

end Feed

namespace WatchStream

variable {α : Type} [Documented α] {s s' : WatchStream} {fired fired' : Bool} {feed feed' : Feed}

/-! ### All items, one poll at a time -/

theorem items_eq (s : WatchStream) (fired : Bool) (feed : Feed) :
    s.items α fired feed =
      match s.poll α fired feed with
      | (.item item, s', fired', feed') => item :: s'.items α fired' feed'
      | _ => [] := by
  rw [items]
  split
  · rename_i h
    rw [h]
  · rename_i h
    split
    · rename_i h'
      exact absurd h' (h _ _ _ _)
    · rfl

theorem items_of_item {item : WatchItem α}
    (h : s.poll α fired feed = (.item item, s', fired', feed')) :
    s.items α fired feed = item :: s'.items α fired' feed' := by
  rw [items_eq, h]

/-- Two streams that answer alike yield alike. -/
theorem items_congr (h : s.poll α fired feed = s'.poll α fired' feed') :
    s.items α fired feed = s'.items α fired' feed' := by
  rw [items_eq, h, ← items_eq]

/-! ### What a poll takes -/

/-- A stream in whose lines no item was found answers as it did before the search. -/
theorem poll_again {lines : LineBuffer} (h : takeItem α s.serializer s.lines = (none, lines))
    (fired : Bool) (feed : Feed) :
    WatchStream.poll α { s with lines } fired feed = s.poll α fired feed := by
  have hagain := takeItem_again h
  cases feed <;> rw [poll, poll, h, hagain]

/-- How an answer goes with the waits that were taken: whatever follows them, a caller who does not
call off gets the item now and the others from the stream that is left, and behind the end there is
nothing. -/
def Answers (s : WatchStream) (pulled : Feed) (s' : WatchStream) : Polled α → Prop
  | .item item => ∀ rest,
    s.items α false (pulled.unfired ++ rest) = item :: s'.items α false rest
  | .pending => ∀ rest, s.items α false (pulled.unfired ++ rest) = s'.items α false rest
  | .ended => s'.isOpen = false ∧ ∀ now rest, s'.poll α now rest = (.ended, s', now, rest)

/-- What a poll takes from a feed: nothing once the caller has called off, and nothing behind the
wait in which the caller does. -/
structure Pulls (fired : Bool) (feed pulled : Feed) (fired' : Bool) (feed' : Feed) : Prop where
  feed_eq : feed = pulled ++ feed'
  late : fired = true → pulled = []
  unfired : ∀ wait ∈ pulled.dropLast, wait.hasFired = false
  fired_iff : fired' = true ↔ fired = true ∨ ∃ wait ∈ pulled, wait.hasFired = true

theorem Pulls.none (fired : Bool) (feed : Feed) : Pulls fired feed [] fired feed where
  feed_eq := rfl
  late _ := rfl
  unfired _ h := absurd h List.not_mem_nil
  fired_iff := by simp

theorem Pulls.one (wait : Wait TransportError (Option Bytes)) (feed : Feed) :
    Pulls false (wait :: feed) [wait] wait.hasFired feed where
  feed_eq := rfl
  late h := by cases h
  unfired _ h := absurd h List.not_mem_nil
  fired_iff := by simp

/-- A poll that goes on behind a wait takes what it takes after that. -/
theorem Pulls.cons (wait : Wait TransportError (Option Bytes)) {pulled : Feed}
    (h : Pulls wait.hasFired feed pulled fired' feed') :
    Pulls false (wait :: feed) (wait :: pulled) fired' feed' where
  feed_eq := by rw [h.feed_eq, List.cons_append]
  late h := by cases h
  unfired := by
    cases hw : wait.hasFired with
    | true =>
      rw [h.late hw]
      exact fun _ h => absurd h List.not_mem_nil
    | false =>
      cases pulled with
      | nil => exact fun _ h => absurd h List.not_mem_nil
      | cons next pulled =>
        rw [List.dropLast_cons_of_ne_nil (List.cons_ne_nil _ _)]
        exact List.forall_mem_cons.mpr ⟨hw, h.unfired⟩
  fired_iff := by simpa using h.fired_iff

/-- A stream that has let its body go, and in whose lines no item was found, has ended. -/
theorem answers_ended {lines : LineBuffer} (h : takeItem α s.serializer s.lines = (none, lines))
    (t : WatchStream) (pulled : Feed) :
    Answers t pulled { s with lines, isOpen := false } (.ended : Polled α) :=
  ⟨rfl, fun now rest => poll_of_closed rfl (takeItem_again h) now rest⟩

/-- The end of the body answers as it would for a caller who has not called off. -/
theorem answers_finish {lines : LineBuffer} (ho : s.isOpen = true)
    (h : takeItem α s.serializer s.lines = (none, lines)) (fired : Bool) :
    s.Answers [.ends (.ok none) fired] ({ s with lines }.finish α).2
      ({ s with lines }.finish α).1 := by
  have hend (rest : Feed) := poll_of_end ho h rest
  cases hpolled : ({ s with lines }.finish α).1 with
  | item item =>
    intro rest
    rw [hpolled] at hend
    exact items_of_item (hend rest)
  | ended => exact answers_ended (s := { s with lines := .empty }) (takeItem_empty s.serializer) s _
  | pending =>
    simp only [finish] at hpolled
    split at hpolled <;> cases hpolled

/-- What a poll answers behind a chunk, it answers to a caller who has not called off as well. -/
theorem Answers.chunk {lines : LineBuffer} {pulled : Feed} {polled : Polled α} {chunk : Bytes}
    (ho : s.isOpen = true) (h : takeItem α s.serializer s.lines = (none, lines))
    (hlater : Answers { s with lines := lines.push chunk } pulled s' polled) (fired : Bool) :
    s.Answers (.ends (.ok (some chunk)) fired :: pulled) s' polled := by
  have hitems (rest : Feed) := items_congr (poll_of_chunk ho h chunk (pulled.unfired ++ rest))
  cases polled with
  | item item => exact fun rest => (hitems rest).trans (hlater rest)
  | ended => exact hlater
  | pending => exact fun rest => (hitems rest).trans (hlater rest)

/-- **What a poll takes, and how its answer goes with that.** -/
theorem exists_pulled {polled : Polled α} (h : s.poll α fired feed = (polled, s', fired', feed')) :
    ∃ pulled, Pulls fired feed pulled fired' feed' ∧ s.Answers pulled s' polled := by
  -- an item in the lines, a body that is not held, calling off, and then what the feed begins with
  fun_induction poll α s fired feed with
  | case1 feed s fired item lines ht =>
    cases h
    exact ⟨[], .none _ _, fun rest => items_of_item (poll_of_item ht false rest)⟩
  | case2 feed s fired lines ht s₁ hclosed =>
    obtain ⟨rfl, rfl, rfl, rfl⟩ := by simpa only [Prod.mk.injEq] using h
    have ho : s.isOpen = false := by simpa using hclosed
    exact ⟨[], .none _ _, ho, fun now rest =>
      poll_of_closed (s := s₁) ho (takeItem_again ht) now rest⟩
  | case3 feed s lines ht s₁ ho =>
    cases h
    exact ⟨[], .none _ _, answers_ended ht s []⟩
  | case4 s fired lines ht s₁ ho hf =>
    obtain ⟨rfl, rfl, rfl, rfl⟩ := by simpa only [Prod.mk.injEq] using h
    exact ⟨[], .none _ _, fun rest => items_congr (poll_again ht false rest).symm⟩
  | case5 s fired lines ht s₁ ho hf feed =>
    cases h
    rw [Bool.eq_false_iff.mpr hf]
    exact ⟨[.fires], .one .fires _, answers_ended ht s _⟩
  | case6 s fired lines ht s₁ ho hf chunk fired₁ feed ih =>
    obtain ⟨pulled, hpulls, hanswers⟩ := ih h
    rw [Bool.eq_false_iff.mpr hf]
    have hopen : s.isOpen = true := by simpa using ho
    exact ⟨_, .cons (.ends (.ok (some chunk)) fired₁) hpulls, .chunk hopen ht hanswers fired₁⟩
  | case7 s fired lines ht s₁ ho hf e fired₁ feed =>
    cases h
    rw [Bool.eq_false_iff.mpr hf]
    have hopen : s.isOpen = true := by simpa using ho
    exact ⟨_, .one (.ends (.error e) _) _, fun rest =>
      items_of_item (poll_of_failure hopen ht e rest)⟩
  | case8 s fired lines ht s₁ ho hf fired₁ feed polled' s₂ hs =>
    cases h
    rw [Bool.eq_false_iff.mpr hf]
    have hopen : s.isOpen = true := by simpa using ho
    have hfinish := answers_finish hopen ht fired'
    rw [hs] at hfinish
    exact ⟨_, .one (.ends (.ok none) _) _, hfinish⟩

/-! ### Lines that have come -/

theorem lineItems_empty (serializer : Serializer) :
    lineItems α serializer LineBuffer.empty.bytes = [] :=
  lineItems_of_not_mem serializer List.not_mem_nil

/-- The first item in the lines that have come is the answer to any poll. -/
theorem poll_item (hs : s.lines.IsScanned) {item : WatchItem α} {items : List (WatchItem α)}
    (hi : lineItems α s.serializer s.lines.bytes = item :: items) :
    ∃ rest, lineItems α s.serializer rest = items ∧
      LineBuffer.tail rest = LineBuffer.tail s.lines.bytes ∧
      ∀ fired feed, s.poll α fired feed =
        (.item item, { s with lines := ⟨rest, 0⟩ }.settle item, fired, feed) := by
  obtain ⟨rest, ht, hr, htail⟩ := takeItem_eq_some hs hi
  exact ⟨rest, hr, htail, fun fired feed => poll_of_item ht fired feed⟩

/-- The items in the lines that have come go first, up to one that is the last. -/
theorem items_lineItems (hs : s.lines.IsScanned) {later : List (WatchItem α)}
    (h : ∀ lines : LineBuffer, lines.IsScanned → lineItems α s.serializer lines.bytes = [] →
      LineBuffer.tail lines.bytes = LineBuffer.tail s.lines.bytes →
      items α { s with lines } false feed = throughLast later) :
    s.items α false feed = throughLast (lineItems α s.serializer s.lines.bytes ++ later) := by
  generalize hi : lineItems α s.serializer s.lines.bytes = found
  induction found generalizing s with
  | nil => exact h s.lines hs hi rfl
  | cons item found ih =>
    obtain ⟨rest, hr, htail, hpoll⟩ := poll_item hs hi
    rw [items_of_item (hpoll false feed), settle, List.cons_append]
    cases hl : item.isLast with
    | true =>
      -- the stream stops and forgets the lines that are left
      rw [throughLast_of_isLast hl, if_pos rfl, items_eq, poll_of_stopped]
    | false =>
      rw [throughLast_of_not_isLast hl, if_neg Bool.false_ne_true]
      congr 1
      exact ih (LineBuffer.isScanned_zero rest)
        (fun lines h₁ h₂ h₃ => h lines h₁ h₂ (h₃.trans htail)) hr

theorem poll_of_nil {lines : LineBuffer} (ho : s.isOpen = true)
    (h : takeItem α s.serializer s.lines = (none, lines)) :
    s.poll α false [] = (.pending, { s with lines }, false, []) := by
  simp [poll, h, ho]

/-- While neither the end has come nor a failure, the items are those of the lines whose line feed
has come. -/
theorem items_of_goesOn (ho : s.isOpen = true) (hs : s.lines.IsScanned) (hf : feed.goesOn = true) :
    s.items α false feed.unfired =
      throughLast (lineItems α s.serializer (s.lines.bytes ++ feed.bytes)) := by
  induction feed generalizing s with
  | nil =>
    rw [Feed.bytes, List.flatMap_nil, List.append_nil, ← List.append_nil (lineItems ..)]
    refine items_lineItems hs fun lines hs' hi _ => ?_
    rw [items_eq]
    simp only [Feed.unfired, List.filterMap_nil]
    rw [poll_of_nil (s := { s with lines }) ho (takeItem_eq_none hs' hi)]
    rfl
  | cons wait feed ih =>
    cases wait with
    | fires => exact ih ho hs hf
    | ends outcome fired =>
      rcases outcome with e | _ | chunk
      · cases hf
      · cases hf
      · have hbytes : Feed.bytes (.ends (.ok (some chunk)) fired :: feed) =
            chunk ++ Feed.bytes feed := rfl
        rw [hbytes, lineItems_append]
        refine items_lineItems hs fun lines hs' hi htail => ?_
        have hm := LineBuffer.lineFeed_not_mem_tail lines.bytes
        have hpoll := poll_of_chunk (s := { s with lines }) ho (takeItem_eq_none hs' hi) chunk
          (Feed.unfired feed)
        rw [← htail, ← List.append_assoc]
        exact (items_congr hpoll).trans
          (ih ho ((LineBuffer.isScanned_of_not_mem hm).push chunk) hf)

/-- Where no item is left, a caller who has called off comes to the end at once. -/
theorem poll_calledOff (hs : s.lines.IsScanned)
    (hi : lineItems α s.serializer s.lines.bytes = []) (feed : Feed) :
    ∃ s', s.poll α true feed = (.ended, s', true, feed) ∧ s'.isOpen = false ∧
      s'.serializer = s.serializer ∧ s'.lines.IsScanned ∧
      lineItems α s.serializer s'.lines.bytes = [] := by
  have ht := takeItem_eq_none hs hi
  have hm := LineBuffer.lineFeed_not_mem_tail s.lines.bytes
  refine ⟨{ s with lines := ⟨LineBuffer.tail s.lines.bytes, _⟩, isOpen := false }, ?_, rfl, rfl,
    LineBuffer.isScanned_of_not_mem hm, lineItems_of_not_mem _ hm⟩
  cases ho : s.isOpen with
  | false =>
    rw [poll_of_closed ho ht, ho]
  | true => cases feed <;> simp [poll, ht, ho, close]

/-! ### What every poll keeps -/

theorem takeItem_isScanned {b : LineBuffer} (h : b.IsScanned) (serializer : Serializer) :
    (takeItem α serializer b).2.IsScanned := by
  cases hi : lineItems α serializer b.bytes with
  | nil =>
    rw [takeItem_eq_none h hi]
    exact LineBuffer.isScanned_of_not_mem (LineBuffer.lineFeed_not_mem_tail b.bytes)
  | cons item items =>
    obtain ⟨rest, ht, -⟩ := takeItem_eq_some h hi
    rw [ht]
    exact LineBuffer.isScanned_zero rest

/-- Calling off is nothing that a line can say. -/
theorem ne_cancelled_of_itemOf {serializer : Serializer} {line : Bytes} {item : WatchItem α}
    (h : itemOf α serializer line = some item) : item ≠ .error .cancelled := by
  rintro rfl
  rw [itemOf] at h
  split at h <;> cases h

theorem ne_cancelled_of_takeItem {serializer : Serializer} {b b' : LineBuffer}
    {item : WatchItem α} (h : takeItem α serializer b = (some item, b')) :
    item ≠ .error .cancelled := by
  fun_induction takeItem α serializer b with
  | case1 => cases h
  | case2 b line rest hn item' hi =>
    cases h
    exact ne_cancelled_of_itemOf hi
  | case3 b line rest hn hi ih => exact ih h

/-- What a poll leaves as it is, and what it never answers. -/
structure Keeps (serializer : Serializer) (s' : WatchStream) (polled : Polled α) : Prop where
  serializer_eq : s'.serializer = serializer
  isScanned : s'.lines.IsScanned
  ne_cancelled : ∀ item, polled = .item item → item ≠ .error .cancelled

omit [Documented α] in
theorem keeps_settle {item : WatchItem α} (hs : s.lines.IsScanned)
    (h : item ≠ .error .cancelled) : Keeps s.serializer (s.settle item) (.item item) := by
  have hne (found : WatchItem α) (hfound : Polled.item item = .item found) :
      found ≠ .error .cancelled := Polled.item.inj hfound ▸ h
  rw [settle]
  split
  · exact ⟨rfl, LineBuffer.isScanned_zero [], hne⟩
  · exact ⟨rfl, hs, hne⟩

theorem keeps_finish (s : WatchStream) : Keeps s.serializer (s.finish α).2 (s.finish α).1 where
  serializer_eq := rfl
  isScanned := LineBuffer.isScanned_zero []
  ne_cancelled item h := by
    simp only [finish] at h
    split at h
    · cases h
    · rename_i found hfound
      cases h
      obtain ⟨line, -, hline⟩ := Option.bind_eq_some_iff.mp hfound
      exact ne_cancelled_of_itemOf hline

theorem poll_keeps {polled : Polled α} (h : s.poll α fired feed = (polled, s', fired', feed'))
    (hs : s.lines.IsScanned) : Keeps s.serializer s' polled := by
  have hlines {t : WatchStream} {item : Option (WatchItem α)} {lines : LineBuffer}
      (ht : takeItem α t.serializer t.lines = (item, lines)) (hscanned : t.lines.IsScanned) :
      lines.IsScanned := by
    have hkept := takeItem_isScanned (α := α) hscanned t.serializer
    rwa [ht] at hkept
  fun_induction poll α s fired feed with
  | case1 feed s fired item lines ht =>
    cases h
    exact keeps_settle (s := { s with lines }) (hlines ht hs) (ne_cancelled_of_takeItem ht)
  | case2 feed s fired lines ht s₁ | case4 s fired lines ht s₁ =>
    obtain ⟨rfl, rfl, rfl, rfl⟩ := by simpa only [Prod.mk.injEq] using h
    exact ⟨rfl, hlines ht hs, fun _ h => by cases h⟩
  | case3 feed s lines ht s₁ ho | case5 s fired lines ht s₁ ho =>
    cases h
    exact ⟨rfl, hlines ht hs, fun _ h => by cases h⟩
  | case6 s fired lines ht s₁ ho hf chunk fired₁ feed ih =>
    obtain ⟨hserializer, hscanned, hne⟩ := ih h ((hlines ht hs).push chunk)
    exact ⟨hserializer, hscanned, hne⟩
  | case7 s fired lines ht s₁ ho hf e fired₁ feed =>
    cases h
    exact ⟨rfl, hlines ht hs, fun _ h hcancelled => by cases h; cases hcancelled⟩
  | case8 s fired lines ht s₁ ho hf fired₁ feed polled' s₂ hfinish =>
    cases h
    have hkeeps := keeps_finish (α := α) s₁
    rw [hfinish] at hkeeps
    exact hkeeps

end WatchStream
end KubeClient
