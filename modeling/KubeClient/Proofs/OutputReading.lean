import KubeClient.Proofs.Demultiplexing

/-!
# Reading output

A reader takes whole chunks and byte counts in any order, while chunks are still queued and until
the channel closes.

* `Output.take_eq_exhausted`, `Output.exists_take_eq_bytes` : what one attempt to take gets;
* `OutputReader`, `OutputReader.run` : a reader with the queue behind it, and whatever happens to
  them one after the other;
* `OutputReader.queued` : the bytes that are queued before the channel closes;
* `OutputReader.Accounts` : how a reader goes with what has happened to it;
* `OutputReader.run_hands_out_queued` : what the reader has got, and when it comes to the end.
-/

namespace KubeClient

namespace Output

variable {o : Output} {size : Option Nat} {ended : Bool}

/-! ### One attempt -/

/-- Where nothing is left, so much is read of nothing. -/
theorem readChunks_eq_exhausted (n : Nat) (ended : Bool) {chunks : List Bytes}
    (h : chunks.flatten = []) : (readChunks n ended chunks).1 = exhausted ended := by
  induction chunks with
  | nil => rfl
  | cons chunk chunks ih =>
    rw [List.flatten_cons, List.append_eq_nil_iff] at h
    rw [readChunks, if_pos (List.isEmpty_iff.mpr h.1)]
    exact ih h.2

/-- Where something is left, a part of it is read that is empty for no other reason than that
nothing was asked for. -/
theorem exists_readChunks_eq_bytes (n : Nat) (ended : Bool) {chunks : List Bytes}
    (h : chunks.flatten ≠ []) :
    ∃ bs, (readChunks n ended chunks).1 = .bytes bs ∧ (bs = [] ↔ n = 0) ∧ bs.length ≤ n := by
  induction chunks with
  | nil => exact absurd rfl h
  | cons chunk chunks ih =>
    rw [readChunks]
    by_cases hempty : chunk.isEmpty
    · rw [if_pos hempty]
      rw [List.flatten_cons, List.isEmpty_iff.mp hempty, List.nil_append] at h
      exact ih h
    · have hne : chunk ≠ [] := fun hnil => hempty (List.isEmpty_iff.mpr hnil)
      rw [if_neg hempty]
      refine ⟨chunk.take n, rfl, ?_, List.length_take_le n chunk⟩
      rw [List.take_eq_nil_iff]
      constructor
      · rintro (hn | hnil)
        · exact hn
        · exact absurd hnil hne
      · exact Or.inl

/-- No chunk is empty. -/
def Solid (o : Output) : Prop :=
  [] ∉ o.chunks

theorem solid_empty : empty.Solid :=
  List.not_mem_nil

theorem Solid.push (h : o.Solid) (chunk : Bytes) : (o.push chunk).Solid := by
  unfold Output.push
  split
  · exact h
  · rename_i hne
    intro hmem
    rcases List.mem_append.mp hmem with hold | hnew
    · exact h hold
    · exact hne (List.isEmpty_iff.mpr (List.mem_singleton.mp hnew).symm)

theorem Solid.readChunks (n : Nat) (ended : Bool) {chunks : List Bytes} {rest : Bytes}
    (h : [] ∉ chunks) : (readChunks n ended (rest :: chunks)).2.Solid := by
  induction chunks generalizing rest with
  | nil =>
    rw [Output.readChunks]
    split
    · exact solid_empty
    · exact List.not_mem_nil
  | cons chunk chunks ih =>
    rw [Output.readChunks]
    split
    · exact ih (List.not_mem_of_not_mem_cons h)
    · exact h

theorem Solid.take (h : o.Solid) (size : Option Nat) (ended : Bool) :
    (o.take size ended).2.Solid := by
  obtain ⟨rest, chunks⟩ := o
  cases size with
  | some n => exact .readChunks n ended h
  | none =>
    rw [Output.take, next]
    split
    · cases chunks with
      | nil => exact h
      | cons chunk chunks => exact List.not_mem_of_not_mem_cons h
    · exact h

theorem take_eq_exhausted (h : o.Solid) (size : Option Nat) (ended : Bool) (hnil : o.toBytes = []) :
    (o.take size ended).1 = exhausted ended := by
  obtain ⟨rest, chunks⟩ := o
  cases size with
  | some n => exact readChunks_eq_exhausted n ended hnil
  | none =>
    obtain ⟨rfl, hflat⟩ := List.append_eq_nil_iff.mp hnil
    cases chunks with
    | nil => rfl
    | cons chunk chunks =>
      have hchunk : chunk = [] := (List.append_eq_nil_iff.mp hflat).1
      exact absurd (hchunk ▸ List.mem_cons_self) h

theorem exists_take_eq_bytes (h : o.Solid) (size : Option Nat) (ended : Bool)
    (hne : o.toBytes ≠ []) :
    ∃ bs, (o.take size ended).1 = .bytes bs ∧ (bs = [] ↔ size = some 0) ∧
      ∀ n, size = some n → bs.length ≤ n := by
  obtain ⟨rest, chunks⟩ := o
  cases size with
  | some n =>
    have hflat : (rest :: chunks).flatten ≠ [] := hne
    obtain ⟨bs, hread, hbs, hle⟩ := exists_readChunks_eq_bytes n ended hflat
    exact ⟨bs, hread, by simpa using hbs, by simpa using hle⟩
  | none =>
    cases rest with
    | cons b rest => exact ⟨b :: rest, rfl, by simp, by simp⟩
    | nil =>
      cases chunks with
      | nil => exact absurd rfl hne
      | cons chunk chunks =>
        have hchunk : chunk ≠ [] := fun hnil => h (hnil ▸ List.mem_cons_self)
        exact ⟨chunk, rfl, by simpa using hchunk, by simp⟩

end Output

/-! ### Any use of a reader -/

/-- A reader: what has been queued for it and was not taken yet, and whether the channel has
closed. -/
structure OutputReader where
  output : Output
  isClosed : Bool
  deriving DecidableEq, Repr

namespace OutputReader

/-- A reader for which nothing has been queued. -/
def start : OutputReader :=
  ⟨.empty, false⟩

/-- What happens to a reader: a chunk is queued, the channel closes, or the next chunk or at most so
many bytes are asked for. -/
inductive Action
  | queue (chunk : Bytes)
  | close
  | take (size : Option Nat)
  deriving DecidableEq, Repr

/-- The bytes that are queued. -/
def Action.bytes : Action → Bytes
  | .queue chunk => chunk
  | _ => []

/-- All bytes that are queued before the channel closes. -/
def queued (actions : List Action) : Bytes :=
  (actions.takeWhile (· ≠ .close)).flatMap Action.bytes

/-- What one who asks for the next chunk, or for at most so many bytes, gets now. -/
def take (r : OutputReader) (size : Option Nat) : Received × OutputReader :=
  let (received, output) := r.output.take size r.isClosed
  (received, { r with output })

/-- A chunk is queued; a channel that has closed takes none. -/
def queue (r : OutputReader) (chunk : Bytes) : OutputReader :=
  if r.isClosed then r else { r with output := r.output.push chunk }

/-- An action, with what it gets from the reader. -/
def perform (r : OutputReader) : Action → List Received × OutputReader
  | .queue chunk => ([], r.queue chunk)
  | .close => ([], { r with isClosed := true })
  | .take size => ([(r.take size).1], (r.take size).2)

/-- Actions one after the other, with what they get from the reader. -/
def run (r : OutputReader) : List Action → List Received × OutputReader
  | [] => ([], r)
  | action :: actions =>
    let (now, r) := r.perform action
    let (later, r) := run r actions
    (now ++ later, r)

/-- The bytes in what a reader has got. -/
def bytesOf (got : List Received) : Bytes :=
  got.flatMap Received.toBytes

theorem bytesOf_append (got got' : List Received) :
    bytesOf (got ++ got') = bytesOf got ++ bytesOf got' :=
  List.flatMap_append

theorem queued_cons (action : Action) (actions : List Action) :
    queued (action :: actions) =
      if action = .close then [] else action.bytes ++ queued actions := by
  by_cases h : action = .close <;> simp [queued, h]

variable {r : OutputReader}

/-! ### One action -/

theorem perform_isClosed (r : OutputReader) (action : Action) :
    (r.perform action).2.isClosed = true ↔ r.isClosed = true ∨ action = .close := by
  cases action with
  | queue chunk => by_cases h : r.isClosed <;> simp [perform, queue, h]
  | close => simp [perform]
  | take size => simp [perform, take]

theorem perform_solid (h : r.output.Solid) (action : Action) :
    (r.perform action).2.output.Solid := by
  cases action with
  | queue chunk =>
    rw [perform, queue]
    split
    · exact h
    · exact h.push chunk
  | close => exact h
  | take size => exact h.take size r.isClosed

/-- What an action gets and what is left make up what was left and what the action queues. -/
theorem perform_toBytes (r : OutputReader) (action : Action) :
    bytesOf (r.perform action).1 ++ (r.perform action).2.output.toBytes =
      r.output.toBytes ++ (if r.isClosed then [] else action.bytes) := by
  cases action with
  | queue chunk =>
    rw [perform, queue]
    split
    · exact (List.append_nil _).symm
    · exact r.output.toBytes_push chunk
  | close => simp [perform, bytesOf, Action.bytes]
  | take size =>
    have h := r.output.take_toBytes size r.isClosed
    simpa [perform, take, bytesOf, Action.bytes] using h

/-! ### A run -/

theorem run_isClosed (r : OutputReader) (actions : List Action) :
    (r.run actions).2.isClosed = true ↔ r.isClosed = true ∨ .close ∈ actions := by
  induction actions generalizing r with
  | nil => simp [run]
  | cons action actions ih =>
    refine (ih (r.perform action).2).trans ?_
    rw [perform_isClosed, List.mem_cons, or_assoc, eq_comm (a := action)]

theorem run_solid (h : r.output.Solid) (actions : List Action) :
    (r.run actions).2.output.Solid := by
  induction actions generalizing r with
  | nil => exact h
  | cons action actions ih => exact ih (perform_solid h action)

/-- Nothing is lost and nothing comes twice: what a run gets and what is left make up what was left
and what is queued before the channel closes. -/
theorem run_toBytes (r : OutputReader) (actions : List Action) :
    bytesOf (r.run actions).1 ++ (r.run actions).2.output.toBytes =
      r.output.toBytes ++ (if r.isClosed then [] else queued actions) := by
  induction actions generalizing r with
  | nil => simp [run, bytesOf, queued]
  | cons action actions ih =>
    have hrun : r.run (action :: actions) =
        ((r.perform action).1 ++ ((r.perform action).2.run actions).1,
          ((r.perform action).2.run actions).2) := rfl
    have hclosed := perform_isClosed r action
    rw [hrun, bytesOf_append, List.append_assoc, ih, ← List.append_assoc, perform_toBytes,
      List.append_assoc, queued_cons]
    congr 1
    by_cases hr : r.isClosed <;> by_cases ha : action = .close <;> simp_all [Action.bytes]

/-- How what a reader has got and what is left for it go with what has happened. -/
structure Accounts (actions : List Action) (got : List Received) (r : OutputReader) : Prop where
  bytes_eq : bytesOf got ++ r.output.toBytes = queued actions
  isClosed_iff : r.isClosed = true ↔ .close ∈ actions
  solid : r.output.Solid

theorem accounts_run (actions : List Action) :
    Accounts actions (start.run actions).1 (start.run actions).2 where
  bytes_eq := run_toBytes start actions
  isClosed_iff := (run_isClosed start actions).trans (or_iff_right Bool.false_ne_true)
  solid := run_solid Output.solid_empty actions

/-- The next call goes with what is left, and with whether more can come. -/
theorem Accounts.take {actions : List Action} {got : List Received} (h : Accounts actions got r)
    (size : Option Nat) :
    ((r.take size).1 = .ended ↔ bytesOf got = queued actions ∧ .close ∈ actions) ∧
    ((r.take size).1 = .pending ↔ bytesOf got = queued actions ∧ .close ∉ actions) ∧
    ∀ bs, (r.take size).1 = .bytes bs →
      (bs = [] ↔ size = some 0) ∧ ∀ n, size = some n → bs.length ≤ n := by
  have hgot : bytesOf got = queued actions ↔ r.output.toBytes = [] := by
    rw [← h.bytes_eq, List.self_eq_append_right]
  rw [hgot, ← h.isClosed_iff, OutputReader.take]
  by_cases hnil : r.output.toBytes = []
  · have htake := Output.take_eq_exhausted h.solid size r.isClosed hnil
    simp only [htake, hnil, true_and]
    cases r.isClosed <;> simp [Output.exhausted]
  · obtain ⟨bs, htake, hbs, hle⟩ := Output.exists_take_eq_bytes h.solid size r.isClosed hnil
    simp only [htake, hnil, false_and, reduceCtorEq, Received.bytes.injEq, forall_eq', true_and]
    exact ⟨hbs, hle⟩

/-- However chunks, the closing of the channel and calls of either kind follow each other, what a
reader has got and what is left for it are the bytes that were queued, in their order. The next call
comes to the end exactly if the reader has got all of them and the channel has closed, and waits
exactly if it has got all of them and the channel has not; otherwise it gets bytes, at most as many
as it asked for, and none only if it asked for none. -/
theorem run_hands_out_queued (actions : List Action) (size : Option Nat) :
    let (got, r) := start.run actions
    let received := (r.take size).1
    bytesOf got ++ r.output.toBytes = queued actions ∧
    (received = .ended ↔ bytesOf got = queued actions ∧ .close ∈ actions) ∧
    (received = .pending ↔ bytesOf got = queued actions ∧ .close ∉ actions) ∧
    (∀ bs, received = .bytes bs →
      (bs = [] ↔ size = some 0) ∧ ∀ n, size = some n → bs.length ≤ n) := by
  have h := accounts_run actions
  exact ⟨h.bytes_eq, h.take size⟩

/-- Reading one byte and then none leaves the rest of a chunk for the next call. -/
example :
    (start.run [.queue [7, 8, 9], .take (some 1), .queue [5], .take (some 0), .close, .take none,
      .take (some 4), .take (some 4)]).1 =
        [.bytes [7], .bytes [], .bytes [8, 9], .bytes [5], .ended] := by
  decide

end OutputReader
end KubeClient
