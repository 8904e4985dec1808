import KubeClient.Codec.Serializer
import KubeClient.Proofs.JsonPlaces

/-!
# Offsets of failures

The reader of JSON text tells where it gave up by a line and a column, and a failed decoding tells
the offset of that position.

* `Json.sum_lines_through` : the lines up to a line feed, by their lengths;
* `Json.offset_after` : the offset of the position behind some bytes;
* `Json.Tells` : what is told of a reader that has given up behind so many bytes;
* `Serializer.decode_tells_offset` : the offset of every failed decoding;
* `Serializer.offset_behind_lineFeed` : behind a line feed, it is that of the next byte.
-/

namespace KubeClient

namespace Json

variable {bs front back : Bytes} {b : UInt8}

/-! ### Positions -/

/-- The lines through some line feed reach as far as the line feed does. -/
theorem sum_lines_through (front back : Bytes) :
    (((lines (front ++ lineFeed :: back)).take (front.count lineFeed + 1)).map
      fun l => l.length + 1).sum = front.length + 1 := by
  induction front with
  | nil => simp [lines]
  | cons b front ih =>
    rw [List.cons_append, lines]
    by_cases hb : b = lineFeed
    · rw [if_pos hb, hb, List.count_cons_self, List.take_succ_cons, List.map_cons, List.sum_cons,
        ih]
      simp only [List.length_nil, List.length_cons]
      omega
    · rw [if_neg hb, List.count_cons_of_ne hb]
      cases hlines : lines (front ++ lineFeed :: back) with
      | nil =>
        rw [hlines] at ih
        simp at ih
      | cons l ls =>
        rw [hlines] at ih
        simp only [List.take_succ_cons, List.map_cons, List.sum_cons, List.length_cons] at ih ⊢
        omega

/-- The column is counted from the end, as far as there is no line feed. -/
theorem takeWhile_reverse_append (front : Bytes) (h : lineFeed ∉ back) :
    (front ++ back).reverse.takeWhile (· != lineFeed) =
      back.reverse ++ front.reverse.takeWhile (· != lineFeed) := by
  have hback : ∀ b ∈ back.reverse, (b != lineFeed) = true := by
    intro b hb
    rw [bne_iff_ne]
    rintro rfl
    exact h (List.mem_reverse.mp hb)
  rw [List.reverse_append, List.takeWhile_append_of_pos hback]

/-- A position in the line behind the last line feed. -/
theorem offset_after_append (front : Bytes) (h : lineFeed ∉ back) (rest : Bytes) :
    (Position.after (front ++ lineFeed :: back)).offset (front ++ lineFeed :: back ++ rest) =
      front.length + 1 + (back.length - 1) := by
  have hcount : 1 + (front ++ lineFeed :: back).count lineFeed - 1 =
      front.count lineFeed + 1 := by
    rw [List.count_append, List.count_cons_self, List.count_eq_zero.mpr h]
    omega
  have hcolumn : ((front ++ lineFeed :: back).reverse.takeWhile (· != lineFeed)).length =
      back.length := by
    rw [List.append_cons, takeWhile_reverse_append _ h]
    simp
  rw [Position.after, Position.offset, hcount, hcolumn, List.append_assoc, List.cons_append,
    sum_lines_through]

/-- A position in the first line. -/
theorem offset_after_of_not_mem (h : lineFeed ∉ front) (bs : Bytes) :
    (Position.after front).offset bs = front.length - 1 := by
  have hcolumn : (front.reverse.takeWhile (· != lineFeed)).length = front.length := by
    have hwhole := takeWhile_reverse_append [] h
    rw [List.nil_append] at hwhole
    simp [hwhole]
  rw [Position.after, Position.offset, List.count_eq_zero.mpr h, hcolumn]
  simp

/-- Bytes with a line feed among them are cut at the last one. -/
theorem exists_last_lineFeed (h : lineFeed ∈ front) :
    ∃ before behind, front = before ++ lineFeed :: behind ∧ lineFeed ∉ behind := by
  obtain ⟨behind, before, hreverse, hbehind⟩ :=
    List.eq_append_cons_of_mem (List.mem_reverse.mpr h)
  refine ⟨before.reverse, behind.reverse, ?_, fun hmem => hbehind (List.mem_reverse.mp hmem)⟩
  rw [← List.reverse_reverse front, hreverse]
  simp

/-- The position behind a byte is told by the offset of the byte, and by the next one if the byte
ends its line. -/
theorem offset_after (front back : Bytes) (b : UInt8) :
    (Position.after (front ++ [b])).offset (front ++ [b] ++ back) =
      if b = lineFeed then front.length + 1 else front.length := by
  by_cases hb : b = lineFeed
  · subst hb
    rw [if_pos rfl, offset_after_append _ List.not_mem_nil]
    simp
  · rw [if_neg hb]
    by_cases hmem : lineFeed ∈ front
    · obtain ⟨before, behind, rfl, hbehind⟩ := exists_last_lineFeed hmem
      have hlast : lineFeed ∉ behind ++ [b] := by
        simpa [hbehind] using fun h => hb h.symm
      have hoffset := offset_after_append before hlast back
      rw [← List.cons_append, ← List.append_assoc] at hoffset
      rw [hoffset]
      simp only [List.length_append, List.length_cons, List.length_nil]
      omega
    · rw [offset_after_of_not_mem (by simpa [hmem] using fun h => hb h.symm)]
      simp

theorem offset_after_take {p : Nat} (hb : bs[p]? = some b) :
    (Position.after (bs.take (p + 1))).offset bs = if b = lineFeed then p + 1 else p := by
  obtain ⟨hp, rfl⟩ := List.getElem?_eq_some_iff.mp hb
  have hcut : bs = bs.take p ++ [bs[p]] ++ bs.drop (p + 1) := by
    rw [← List.take_succ_eq_append_getElem hp, List.take_append_drop]
  have hoffset := offset_after (bs.take p) (bs.drop (p + 1)) bs[p]
  rw [← hcut, ← List.take_succ_eq_append_getElem hp,
    List.length_take_of_le (Nat.le_of_lt hp)] at hoffset
  exact hoffset

/-! ### Failures -/

/-- What is told of a reader that has given up behind so many bytes. -/
inductive Tells (bs : Bytes) : Option Nat → Nat → Prop
  /-- A failure without a place is put behind the end. -/
  | unplaced : Tells bs none bs.length
  | start : Tells bs (some 0) 0
  /-- The last byte that was read. -/
  | last {p : Nat} {b : UInt8} (hb : bs[p]? = some b) (hline : b ≠ lineFeed) :
    Tells bs (some (p + 1)) p
  /-- The byte behind a line feed, which was the last byte that was read. -/
  | behind {p : Nat} (hb : bs[p]? = some lineFeed) : Tells bs (some (p + 1)) (p + 1)

theorem Tells.le {place : Option Nat} {n : Nat} (h : Tells bs place n) : n ≤ bs.length := by
  cases h with
  | unplaced => exact Nat.le_refl _
  | start => exact Nat.zero_le _
  | last hb _ => exact Nat.le_of_lt (List.getElem?_eq_some_iff.mp hb).1
  | behind hb => exact (List.getElem?_eq_some_iff.mp hb).1

theorem tells_at {f : Fault} (h : ∀ n ∈ f.offset, n ≤ bs.length) : Tells bs f.offset (f.at bs) := by
  unfold Fault.at Fault.position?
  cases hplace : f.offset with
  | none => exact .unplaced
  | some n =>
    cases n with
    | zero =>
      show Tells bs (some 0) ((Position.after []).offset bs)
      rw [offset_after_of_not_mem List.not_mem_nil]
      exact .start
    | succ p =>
      have hp : p < bs.length := h (p + 1) hplace
      have hb : bs[p]? = some bs[p] := List.getElem?_eq_getElem hp
      show Tells bs (some (p + 1)) ((Position.after (bs.take (p + 1))).offset bs)
      rw [offset_after_take hb]
      split
      · rename_i hline
        exact .behind (hb.trans (congrArg some hline))
      · rename_i hline
        exact .last hb hline

end Json

open Documented Json

namespace Serializer

variable {α : Type} [Documented α] {s : Serializer} {bs : Bytes}

theorem exists_of_decode_eq_error {e : SerializationError} (h : s.decode α bs = .error e) :
    ∃ n message, s.format.read (shape α) bs = .error (n, message) ∧
      e.offset? = some (min n bs.length) := by
  unfold decode at h
  split at h
  · cases h
  · cases hread : s.format.read (shape α) bs with
    | ok v =>
      rw [hread] at h
      cases h
    | error failure =>
      rw [hread] at h
      cases h
      exact ⟨failure.1, failure.2, rfl, rfl⟩

theorem exists_of_read_json_eq_error (hs : s.format = .json) {n : Nat} {message : String}
    (h : s.format.read (shape α) bs = .error (n, message)) :
    ∃ f, Json.read (shape α) bs = .error f ∧ n = f.at bs := by
  rw [hs, Format.read] at h
  cases hread : Json.read (shape α) bs with
  | ok v =>
    rw [hread] at h
    cases h
  | error f =>
    rw [hread] at h
    cases h
    exact ⟨f, rfl, rfl⟩

/-- A position is told by the offset of the last byte in front of it, unless this is a line feed:
then it is told by the offset behind it. Every failed decoding tells an offset that is not behind
the end of its bytes, and for JSON it is that of the position where the reader gave up. -/
theorem decode_tells_offset (bs : Bytes) :
    (∀ p, 0 < p → p ≤ bs.length → (Position.after (bs.take p)).offset bs =
      if bs[p - 1]? = some lineFeed then p else p - 1) ∧
    (∀ (α : Type) [Documented α] (s : Serializer) (e : SerializationError),
      s.decode α bs = .error e → ∃ n ≤ bs.length, e.offset? = some n ∧
        (s.format = .json → ∃ f, Json.read (shape α) bs = .error f ∧ Tells bs f.offset n)) := by
  refine ⟨fun p hp hle => ?_, fun α _ s e h => ?_⟩
  · obtain ⟨p, rfl⟩ := Nat.exists_eq_add_one.mpr hp
    have hb : bs[p]? = some bs[p] := List.getElem?_eq_getElem hle
    rw [Nat.add_sub_cancel, offset_after_take hb, hb]
    simp only [Option.some.injEq]
  · obtain ⟨n, message, hread, hoffset⟩ := exists_of_decode_eq_error h
    refine ⟨min n bs.length, Nat.min_le_right _ _, hoffset, fun hs => ?_⟩
    obtain ⟨f, hf, rfl⟩ := exists_of_read_json_eq_error hs hread
    have htells := tells_at (offset_le_of_read_eq_error hf)
    rw [Nat.min_eq_left htells.le]
    exact ⟨f, hf, htells⟩

/-- The second line of a text ends inside of a word. -/
theorem decode_tells_offset_cutWord :
    let bs := Utf8.encode "\x7b\n\"a\": tru"
    (Position.after (bs.take 10)).offset bs = 9 ∧
      ∃ e, (⟨"application/json", .json⟩ : Serializer).decode Value bs = .error e ∧
        e.offset? = some 9 ∧ Tells bs (some 10) 9 := by
  intro bs
  obtain ⟨hposition, hdecode⟩ := decode_tells_offset bs
  refine ⟨hposition 10 (by decide) (by decide +kernel), _, rfl, rfl, ?_⟩
  obtain ⟨n, -, hn, hjson⟩ := hdecode Value ⟨"application/json", .json⟩ _ rfl
  obtain ⟨f, hf, htells⟩ := hjson rfl
  cases hn
  cases hf
  exact htells

/-- In the middle of a string stands a line feed, which may not be there. It is the byte 2 at which
the reader gives up, yet the failure tells the byte behind it. -/
theorem offset_behind_lineFeed :
    let bs := Utf8.encode "\"a\nb\""
    bs[2]? = some lineFeed ∧ (Position.after (bs.take 3)).offset bs = 3 ∧
      ∃ f e, Json.read .any bs = .error f ∧ f.offset = some 3 ∧
        (⟨"application/json", .json⟩ : Serializer).decode Value bs = .error e ∧
        e.offset? = some 3 := by
  intro bs
  exact ⟨rfl, rfl, _, _, rfl, rfl, rfl, rfl⟩

end Serializer
end KubeClient
