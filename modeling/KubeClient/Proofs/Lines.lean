import KubeClient.Watch.LineBuffer

/-!
# The lines of a buffer

What a buffer hands out depends on the bytes that have come, and not on the chunks they came in.

* `LineBuffer.units`, `LineBuffer.tail` : the lines of bytes that are not blank, and what stands
  behind the last line feed;
* `LineBuffer.IsScanned` : the cursor has passed no line feed;
* `LineBuffer.nextLine_eq_some`, `LineBuffer.nextLine_eq_none` : the next line of a buffer;
* `LineBuffer.run`, `LineBuffer.drain` : chunks and calls for lines in any order, and calls for
  lines until there is none;
* `LineBuffer.run_hands_out_lines` : what is handed out, and what is left.
-/

namespace KubeClient.LineBuffer

/-! ### Lines of bytes -/

/-- The lines whose line feed has come, without one carriage return at the end, unless blank. -/
def units (bs : Bytes) : List Bytes :=
  ((bs.splitOn lineFeed).dropLast.map stripReturn).filter fun line => !isBlank line

/-- What stands behind the last line feed. -/
def tail (bs : Bytes) : Bytes :=
  (bs.splitOn lineFeed).getLast (List.splitOn_ne_nil lineFeed bs)

theorem units_of_not_mem {bs : Bytes} (h : lineFeed ∉ bs) : units bs = [] := by
  rw [units, List.splitOn_eq_singleton h]
  rfl

theorem tail_of_not_mem {bs : Bytes} (h : lineFeed ∉ bs) : tail bs = bs := by
  simp only [tail, List.splitOn_eq_singleton h, List.getLast_singleton]

theorem units_append_cons {line : Bytes} (h : lineFeed ∉ line) (bs : Bytes) :
    units (line ++ lineFeed :: bs) =
      if isBlank (stripReturn line) then units bs else stripReturn line :: units bs := by
  rw [units, List.splitOn_append_cons_self_of_not_mem h,
    List.dropLast_cons_of_ne_nil (List.splitOn_ne_nil lineFeed bs), List.map_cons,
    List.filter_cons]
  cases isBlank (stripReturn line) <;> rfl

theorem tail_append_cons {line : Bytes} (h : lineFeed ∉ line) (bs : Bytes) :
    tail (line ++ lineFeed :: bs) = tail bs := by
  simp only [tail, List.splitOn_append_cons_self_of_not_mem h,
    List.getLast_cons (List.splitOn_ne_nil lineFeed bs)]

/-- Bytes either hold no line feed, or a line comes first. -/
theorem lines_induction {motive : Bytes → Prop} (rest : ∀ bs, lineFeed ∉ bs → motive bs)
    (line : ∀ l bs, lineFeed ∉ l → motive bs → motive (l ++ lineFeed :: bs)) (bs : Bytes) :
    motive bs := by
  induction hn : bs.length using Nat.strongRecOn generalizing bs with
  | _ n ih =>
    by_cases h : lineFeed ∈ bs
    · obtain ⟨l, bs', rfl, hl⟩ := List.eq_append_cons_of_mem h
      refine line l bs' hl (ih bs'.length ?_ bs' rfl)
      rw [← hn, List.length_append, List.length_cons]
      omega
    · exact rest bs h

theorem lineFeed_not_mem_tail (bs : Bytes) : lineFeed ∉ tail bs := by
  induction bs using lines_induction with
  | rest bs h => rwa [tail_of_not_mem h]
  | line l bs hl ih => rwa [tail_append_cons hl]

/-- More bytes add to the lines, and the first of these begins with the tail. -/
theorem units_append (bs more : Bytes) :
    units (bs ++ more) = units bs ++ units (tail bs ++ more) := by
  induction bs using lines_induction with
  | rest bs h => rw [units_of_not_mem h, tail_of_not_mem h, List.nil_append]
  | line l bs hl ih =>
    rw [List.append_assoc, List.cons_append, units_append_cons hl, units_append_cons hl,
      tail_append_cons hl, ih]
    split
    · rfl
    · rfl

theorem tail_append (bs more : Bytes) : tail (bs ++ more) = tail (tail bs ++ more) := by
  induction bs using lines_induction with
  | rest bs h => rw [tail_of_not_mem h]
  | line l bs hl ih =>
    rw [List.append_assoc, List.cons_append, tail_append_cons hl, tail_append_cons hl, ih]

/-! ### Lines of a buffer -/

/-- The cursor is inside the bytes and has passed no line feed. -/
def IsScanned (b : LineBuffer) : Prop :=
  b.scanned ≤ b.bytes.length ∧ lineFeed ∉ b.bytes.take b.scanned

theorem isScanned_zero (bs : Bytes) : IsScanned ⟨bs, 0⟩ :=
  ⟨Nat.zero_le _, by rw [List.take_zero]; exact List.not_mem_nil⟩

theorem isScanned_of_not_mem {bs : Bytes} (h : lineFeed ∉ bs) : IsScanned ⟨bs, bs.length⟩ :=
  ⟨Nat.le_refl _, by rwa [List.take_length]⟩

theorem IsScanned.push {b : LineBuffer} (h : b.IsScanned) (chunk : Bytes) :
    (b.push chunk).IsScanned := by
  obtain ⟨hle, hmem⟩ := h
  refine ⟨?_, ?_⟩
  · rw [LineBuffer.push, List.length_append]
    exact Nat.le_add_right_of_le hle
  · rwa [LineBuffer.push, List.take_append_of_le_length hle]

theorem lineEnd?_of_not_mem {bs : Bytes} (scanned : Nat) (h : lineFeed ∉ bs) :
    lineEnd? ⟨bs, scanned⟩ = none := by
  rw [lineEnd?, List.idxOf?_eq_none_iff.mpr fun hm => h (List.mem_of_mem_drop hm)]
  rfl

theorem idxOf?_append_cons {line : Bytes} (h : lineFeed ∉ line) (bs : Bytes) :
    (line ++ lineFeed :: bs).idxOf? lineFeed = some line.length := by
  induction line with
  | nil => rw [List.nil_append, List.idxOf?_cons, if_pos (BEq.refl _)]; rfl
  | cons b line ih =>
    have hb : lineFeed ≠ b := List.ne_of_not_mem_cons h
    have hl : lineFeed ∉ line := List.not_mem_of_not_mem_cons h
    rw [List.cons_append, List.idxOf?_cons, if_neg (by simpa using hb.symm), ih hl]
    rfl

/-- The cursor does not make a buffer miss a line feed. -/
theorem lineEnd?_append_cons {line bs : Bytes} {scanned : Nat} (hl : lineFeed ∉ line)
    (h : IsScanned ⟨line ++ lineFeed :: bs, scanned⟩) :
    lineEnd? ⟨line ++ lineFeed :: bs, scanned⟩ = some line.length := by
  have hle : scanned ≤ line.length := by
    refine Nat.le_of_not_lt fun hlt => h.2 ?_
    obtain ⟨k, hk⟩ := Nat.exists_eq_add_of_lt hlt
    rw [hk, Nat.add_assoc, List.take_length_add_append, List.take_succ_cons]
    exact List.mem_append_right _ List.mem_cons_self
  have hd : lineFeed ∉ line.drop scanned := fun hm => hl (List.mem_of_mem_drop hm)
  rw [lineEnd?, List.drop_append_of_le_length hle, idxOf?_append_cons hd, Option.map_some,
    List.length_drop, Nat.add_sub_cancel' hle]

theorem nextLine_of_not_mem {bs : Bytes} (scanned : Nat) (h : lineFeed ∉ bs) :
    nextLine ⟨bs, scanned⟩ = (none, ⟨bs, bs.length⟩) := by
  rw [nextLine]
  split
  · rfl
  · rename_i stop hs
    rw [lineEnd?_of_not_mem scanned h] at hs
    cases hs

theorem nextLine_append_cons {line bs : Bytes} {scanned : Nat} (hl : lineFeed ∉ line)
    (h : IsScanned ⟨line ++ lineFeed :: bs, scanned⟩) :
    nextLine ⟨line ++ lineFeed :: bs, scanned⟩ =
      if isBlank (stripReturn line) then nextLine ⟨bs, 0⟩
      else (some (stripReturn line), ⟨bs, 0⟩) := by
  rw [nextLine]
  split
  · rename_i hs
    rw [lineEnd?_append_cons hl h] at hs
    cases hs
  · rename_i stop hs
    rw [lineEnd?_append_cons hl h] at hs
    cases hs
    rw [List.take_left, List.drop_length_add_append]
    rfl

/-- Without a line a buffer keeps what stands behind the last line feed. -/
theorem nextLine_eq_none {b : LineBuffer} (h : b.IsScanned) (hu : units b.bytes = []) :
    b.nextLine = (none, ⟨tail b.bytes, (tail b.bytes).length⟩) := by
  obtain ⟨bs, scanned⟩ := b
  induction bs using lines_induction generalizing scanned with
  | rest bs hm => rw [nextLine_of_not_mem scanned hm, tail_of_not_mem hm]
  | line l bs hl ih =>
    simp only [units_append_cons hl] at hu
    split at hu
    · rename_i hb
      simp only [nextLine_append_cons hl h, if_pos hb, tail_append_cons hl]
      exact ih 0 (isScanned_zero bs) hu
    · cases hu

/-- A buffer hands out its first line, and the others stay. -/
theorem nextLine_eq_some {b : LineBuffer} (h : b.IsScanned) {line : Bytes} {lines : List Bytes}
    (hu : units b.bytes = line :: lines) :
    ∃ rest, b.nextLine = (some line, ⟨rest, 0⟩) ∧ units rest = lines ∧
      tail rest = tail b.bytes := by
  obtain ⟨bs, scanned⟩ := b
  induction bs using lines_induction generalizing scanned with
  | rest bs hm => rw [units_of_not_mem hm] at hu; cases hu
  | line l bs hl ih =>
    simp only [units_append_cons hl] at hu
    split at hu
    · rename_i hb
      simp only [nextLine_append_cons hl h, if_pos hb, tail_append_cons hl]
      exact ih 0 (isScanned_zero bs) hu
    · rename_i hb
      cases hu
      simp only [nextLine_append_cons hl h, if_neg hb, tail_append_cons hl]
      exact ⟨bs, rfl, rfl, rfl⟩

/-- A buffer that has handed out all its lines stays as it is. -/
theorem nextLine_again {b b' : LineBuffer} (h : b.nextLine = (none, b')) :
    b'.nextLine = (none, b') := by
  fun_induction nextLine b with
  | case1 b hn =>
    cases h
    rw [nextLine]
    split
    · rfl
    · rename_i stop hs
      rw [lineEnd?, List.drop_length] at hs
      cases hs
  | case2 b stop hs line rest hb ih => exact ih h
  | case3 => cases h

/-! ### Any use of a buffer -/

/-- What is done to a buffer: a chunk arrives, or a line is asked for. -/
inductive Action
  | push (chunk : Bytes)
  | next
  deriving DecidableEq, Repr

/-- The bytes that arrive. -/
def Action.bytes : Action → Bytes
  | .push chunk => chunk
  | .next => []

/-- All bytes that arrive. -/
def arrived (actions : List Action) : Bytes :=
  actions.flatMap Action.bytes

/-- An action, with the line that it gets out of the buffer. -/
def perform (b : LineBuffer) : Action → List Bytes × LineBuffer
  | .push chunk => ([], b.push chunk)
  | .next => (b.nextLine.1.toList, b.nextLine.2)

/-- Actions one after the other, with the lines that they get out of the buffer. -/
def run (b : LineBuffer) : List Action → List Bytes × LineBuffer
  | [] => ([], b)
  | action :: actions =>
    let (line, b) := b.perform action
    let (lines, b) := run b actions
    (line ++ lines, b)

/-- Asks for lines until there is none. -/
def drain (b : LineBuffer) : List Bytes × LineBuffer :=
  match _h : b.nextLine with
  | (none, b) => ([], b)
  | (some line, b) =>
    let (lines, b) := drain b
    (line :: lines, b)
termination_by b.bytes.length
decreasing_by exact length_lt_of_nextLine _h

/-- Of `bs` the lines `out` have gone out, and the others and the tail are in the buffer. -/
structure Accounts (bs : Bytes) (out : List Bytes) (b : LineBuffer) : Prop where
  isScanned : b.IsScanned
  units_eq : out ++ units b.bytes = units bs
  tail_eq : tail b.bytes = tail bs

variable {bs : Bytes} {out : List Bytes} {b : LineBuffer}

theorem Accounts.push (h : Accounts bs out b) (chunk : Bytes) :
    Accounts (bs ++ chunk) out (b.push chunk) where
  isScanned := h.isScanned.push chunk
  units_eq := by
    rw [LineBuffer.push, units_append, units_append bs, ← List.append_assoc, h.units_eq, h.tail_eq]
  tail_eq := by
    rw [LineBuffer.push, tail_append, tail_append bs, h.tail_eq]

theorem Accounts.nextLine (h : Accounts bs out b) :
    Accounts bs (out ++ b.nextLine.1.toList) b.nextLine.2 := by
  cases hu : units b.bytes with
  | nil =>
    have hm := lineFeed_not_mem_tail b.bytes
    rw [nextLine_eq_none h.isScanned hu]
    refine ⟨isScanned_of_not_mem hm, ?_, (tail_of_not_mem hm).trans h.tail_eq⟩
    rw [← h.units_eq, hu, units_of_not_mem hm, Option.toList_none, List.append_nil]
  | cons line lines =>
    obtain ⟨rest, hn, hr, ht⟩ := nextLine_eq_some h.isScanned hu
    rw [hn]
    refine ⟨isScanned_zero rest, ?_, ht.trans h.tail_eq⟩
    rw [← h.units_eq, hu, hr, Option.toList_some, List.append_assoc, List.singleton_append]

theorem Accounts.perform (h : Accounts bs out b) (action : Action) :
    Accounts (bs ++ action.bytes) (out ++ (b.perform action).1) (b.perform action).2 := by
  cases action with
  | push chunk =>
    rw [LineBuffer.perform, List.append_nil]
    exact h.push chunk
  | next =>
    rw [Action.bytes, List.append_nil]
    exact h.nextLine

theorem Accounts.run (h : Accounts bs out b) (actions : List Action) :
    Accounts (bs ++ arrived actions) (out ++ (b.run actions).1) (b.run actions).2 := by
  induction actions generalizing bs out b with
  | nil =>
    rw [arrived, List.flatMap_nil, LineBuffer.run, List.append_nil, List.append_nil]
    exact h
  | cons action actions ih =>
    have hrest := ih (h.perform action)
    rw [List.append_assoc, List.append_assoc] at hrest
    exact hrest

/-- Draining gets all lines out of a buffer, and the tail stays. -/
theorem Accounts.drain (h : Accounts bs out b) :
    out ++ b.drain.1 = units bs ∧ b.drain.2 = ⟨tail bs, (tail bs).length⟩ := by
  fun_induction LineBuffer.drain b generalizing out with
  | case1 b b' hn =>
    cases hu : units b.bytes with
    | nil =>
      rw [nextLine_eq_none h.isScanned hu] at hn
      obtain ⟨-, rfl⟩ := Prod.mk.inj hn
      rw [← h.units_eq, ← h.tail_eq, hu]
      exact ⟨rfl, rfl⟩
    | cons line lines =>
      obtain ⟨rest, hs, -⟩ := nextLine_eq_some h.isScanned hu
      rw [hs] at hn
      cases hn
  | case2 b line b' hn lines b'' hd ih =>
    have hnext := h.nextLine
    rw [hn] at hnext
    have hrest := ih hnext
    rw [hd, List.append_assoc, Option.toList_some, List.singleton_append] at hrest
    exact hrest

end KubeClient.LineBuffer
