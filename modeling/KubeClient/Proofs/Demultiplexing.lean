import KubeClient.Exec.Inbound

/-!
# The output of a session, told apart by channels

* `Message.payload?`, `Message.isStop` : what a message brings to a reader, and whether it ends the
  reading;
* `Message.outputOf`, `Message.outcome` : the output in front of the first message that ends the
  reading, and the outcome that this one stands for;
* `Inbound.receive_of_output`, `Inbound.receive_of_stop` : what one message does.
-/

namespace KubeClient

/-! ### Messages -/

namespace Message

/-- The number of the channel behind a reader. -/
def channelOf (stderr : Bool) : UInt8 :=
  if stderr then 2 else 1

/-- What a message brings to a reader. -/
def payload? (stderr : Bool) : Message → Option Bytes
  | .frame (id :: payload) => if id = channelOf stderr then some payload else none
  | _ => none

/-- A message that brings nothing to either reader ends the reading. -/
def isStop (m : Message) : Bool :=
  (m.payload? false).isNone && (m.payload? true).isNone

/-- What comes to a reader, up to the first message that ends the reading. -/
def outputOf (stderr : Bool) (ms : List Message) : Bytes :=
  ((ms.takeWhile fun m => !m.isStop).filterMap (payload? stderr)).flatten

/-- The outcome of a session whose reading a message has ended. -/
def outcome (s : Serializer) (path : String) : Message → Except ClientError Status
  | .failure e => .error (.transport .get path e)
  | .ended => .error (.protocol .missingStatus)
  | .frame [] => .error (.protocol (.frame .empty))
  | .frame (id :: payload) =>
    if id = 0 then .error (.protocol (.unexpectedChannel .stdin))
    else if id = 3 then .ok
      (match s.decode Status payload with
        | .ok (some status) => status
        | .ok none => .succeeded
        | .error _ => .synthesize 500 payload)
    else if id = 4 then .error (.protocol (.unexpectedChannel .resize))
    else .error (.protocol (.frame (.unknownChannel id)))

theorem payload?_frame (ofStderr stderr : Bool) (payload : Bytes) :
    (frame (channelOf ofStderr :: payload)).payload? stderr =
      if ofStderr = stderr then some payload else none := by
  cases ofStderr <;> cases stderr <;> rfl

/-- A message that leaves the reading going is output. -/
theorem eq_frame_of_isStop {m : Message} (h : m.isStop = false) :
    ∃ stderr payload, m = .frame (channelOf stderr :: payload) := by
  unfold isStop payload? at h
  split at h
  · rename_i id payload
    by_cases h₁ : id = channelOf false
    · exact ⟨false, payload, h₁ ▸ rfl⟩
    · by_cases h₂ : id = channelOf true
      · exact ⟨true, payload, h₂ ▸ rfl⟩
      · simp [h₁, h₂] at h
  · simp at h

theorem ne_of_isStop {id : UInt8} {payload : Bytes} (h : (frame (id :: payload)).isStop = true) :
    id ≠ 1 ∧ id ≠ 2 := by
  refine ⟨?_, ?_⟩
  all_goals
    rintro rfl
    exact absurd h Bool.false_ne_true

theorem payload?_of_isStop {m : Message} (h : m.isStop = true) (stderr : Bool) :
    m.payload? stderr = none := by
  rw [isStop, Bool.and_eq_true, Option.isNone_iff_eq_none, Option.isNone_iff_eq_none] at h
  cases stderr with
  | false => exact h.1
  | true => exact h.2

theorem outputOf_cons (stderr : Bool) (m : Message) (ms : List Message) :
    outputOf stderr (m :: ms) =
      if m.isStop then [] else (m.payload? stderr).getD [] ++ outputOf stderr ms := by
  rw [outputOf, List.takeWhile_cons]
  cases m.isStop with
  | true => rfl
  | false =>
    simp only [Bool.not_false, if_true, List.filterMap_cons]
    cases m.payload? stderr with
    | none => rfl
    | some payload => rfl

/-- Nothing that comes behind the first message that ends the reading counts. -/
theorem outputOf_append_of_stop {ms : List Message} {m : Message} (h : ms.find? isStop = some m)
    (stderr : Bool) (more : List Message) : outputOf stderr (ms ++ more) = outputOf stderr ms := by
  induction ms with
  | nil => cases h
  | cons m' ms ih =>
    rw [List.cons_append, outputOf_cons, outputOf_cons]
    cases hm : m'.isStop with
    | true => rfl
    | false =>
      rw [List.find?_cons, hm] at h
      rw [ih h]

theorem outputOf_append {ms : List Message} (h : ms.find? isStop = none) (stderr : Bool)
    (more : List Message) :
    outputOf stderr (ms ++ more) = outputOf stderr ms ++ outputOf stderr more := by
  induction ms with
  | nil => rfl
  | cons m ms ih =>
    rw [List.cons_append, outputOf_cons, outputOf_cons]
    rw [List.find?_cons] at h
    split at h
    · cases h
    · rename_i hm
      rw [hm, ih h]
      simp only [Bool.false_eq_true, if_false, List.append_assoc]

theorem outputOf_prefix_append (stderr : Bool) (ms more : List Message) :
    outputOf stderr ms <+: outputOf stderr (ms ++ more) := by
  cases h : ms.find? isStop with
  | none =>
    rw [outputOf_append h]
    exact List.prefix_append _ _
  | some m =>
    exact (outputOf_append_of_stop h stderr more).symm ▸ List.prefix_rfl

theorem outputOf_singleton (stderr : Bool) (m : Message) :
    outputOf stderr [m] = (m.payload? stderr).getD [] := by
  rw [outputOf_cons]
  split
  · rename_i h
    rw [payload?_of_isStop h]
    rfl
  · exact List.append_nil _

theorem find?_append_singleton {ms : List Message} (h : ms.find? isStop = none) (m : Message) :
    (ms ++ [m]).find? isStop = if m.isStop then some m else none := by
  rw [List.find?_append, h, List.find?_cons]
  cases m.isStop <;> rfl

/-- Calling off is the outcome of no message. -/
theorem outcome_ne_cancelled (s : Serializer) (path : String) (m : Message) :
    m.outcome s path ≠ .error .cancelled := by
  intro h
  unfold outcome at h
  repeat' split at h
  all_goals cases h

/-- A payload that says nothing means success. -/
theorem outcome_of_isNothing (s : Serializer) (path : String) {payload : Bytes}
    (h : Serializer.isNothing payload = true) :
    (frame (3 :: payload)).outcome s path = .ok .succeeded := by
  have hdecode : s.decode Status payload = .ok none := by
    rw [Serializer.decode, if_pos h]
  simp only [outcome, hdecode]
  rfl

end Message

/-! ### Output -/

/-- The bytes that a reader gets. -/
def Received.toBytes : Received → Bytes
  | .bytes bs => bs
  | _ => []

namespace Output

/-- Takes the next chunk, or at most so many bytes. -/
def take (o : Output) (size : Option Nat) (ended : Bool) : Received × Output :=
  match size with
  | none => o.next ended
  | some n => o.read n ended

theorem toBytes_push (o : Output) (chunk : Bytes) :
    (o.push chunk).toBytes = o.toBytes ++ chunk := by
  rw [push]
  split
  · rename_i h
    rw [List.isEmpty_iff.mp h, List.append_nil]
  · simp [toBytes]

theorem exhausted_toBytes (ended : Bool) : (exhausted ended).toBytes = [] := by
  cases ended <;> rfl

theorem next_toBytes (o : Output) (ended : Bool) :
    (o.next ended).1.toBytes ++ (o.next ended).2.toBytes = o.toBytes := by
  obtain ⟨rest, chunks⟩ := o
  cases rest with
  | cons b rest => rfl
  | nil =>
    cases chunks with
    | nil => simp [next, exhausted_toBytes, toBytes]
    | cons chunk chunks => rfl

theorem readChunks_toBytes (n : Nat) (ended : Bool) (chunks : List Bytes) :
    (readChunks n ended chunks).1.toBytes ++ (readChunks n ended chunks).2.toBytes =
      chunks.flatten := by
  induction chunks with
  | nil => simp [readChunks, exhausted_toBytes, toBytes, empty]
  | cons chunk chunks ih =>
    rw [readChunks]
    split
    · rename_i h
      rw [ih, List.flatten_cons, List.isEmpty_iff.mp h, List.nil_append]
    · simp [Received.toBytes, toBytes, ← List.append_assoc]

/-- What is taken and what is left make up what was there. -/
theorem take_toBytes (o : Output) (size : Option Nat) (ended : Bool) :
    (o.take size ended).1.toBytes ++ (o.take size ended).2.toBytes = o.toBytes := by
  cases size with
  | none => exact o.next_toBytes ended
  | some n => exact readChunks_toBytes n ended (o.rest :: o.chunks)

theorem flatten_of_readChunks_ended {n : Nat} {ended : Bool} (chunks : List Bytes)
    (h : (readChunks n ended chunks).1 = .ended) : chunks.flatten = [] := by
  induction chunks with
  | nil => rfl
  | cons chunk chunks ih =>
    rw [readChunks] at h
    split at h
    · rename_i hempty
      rw [List.flatten_cons, List.isEmpty_iff.mp hempty, ih h]
      rfl
    · cases h

/-- Nothing is left where a reader comes to the end. -/
theorem toBytes_of_take_ended {o : Output} {size : Option Nat} {ended : Bool}
    (h : (o.take size ended).1 = .ended) : o.toBytes = [] := by
  obtain ⟨rest, chunks⟩ := o
  cases size with
  | some n => exact flatten_of_readChunks_ended (rest :: chunks) h
  | none =>
    cases rest with
    | cons b rest => cases h
    | nil =>
      cases chunks with
      | nil => rfl
      | cons chunk chunks => cases h

/-- In how many pieces the output is taken. -/
def pieces (o : Output) : Nat :=
  (if o.rest.isEmpty then 0 else 1) + o.chunks.length

/-- The next piece is taken, or nothing is left. -/
theorem next_pieces (o : Output) (ended : Bool) :
    (o.next ended = (exhausted ended, o) ∧ o.toBytes = []) ∨
      (o.next ended).2.pieces < o.pieces := by
  obtain ⟨rest, chunks⟩ := o
  cases rest with
  | cons b rest =>
    refine .inr ?_
    simp [next, pieces]
  | nil =>
    cases chunks with
    | nil => exact .inl ⟨rfl, rfl⟩
    | cons chunk chunks =>
      refine .inr ?_
      simp [next, pieces]

end Output

/-! ### One message -/

namespace Inbound

/-- The output for a reader. -/
def output (i : Inbound) (stderr : Bool) : Output :=
  if stderr then i.stderr else i.stdout

/-- Replaces the output for a reader. -/
def setOutput (i : Inbound) (stderr : Bool) (o : Output) : Inbound :=
  if stderr then { i with stderr := o } else { i with stdout := o }

theorem output_setOutput (i : Inbound) (stderr ofStderr : Bool) (o : Output) :
    (i.setOutput ofStderr o).output stderr = if ofStderr = stderr then o else i.output stderr := by
  cases ofStderr <;> cases stderr <;> rfl

theorem outcome_setOutput (i : Inbound) (stderr : Bool) (o : Output) :
    (i.setOutput stderr o).outcome = i.outcome := by
  cases stderr <;> rfl

variable {s : Serializer} {path : String} {i : Inbound}

theorem receive_of_ended (h : i.hasEnded = true) (m : Message) : i.receive s path m = i := by
  unfold Inbound.receive
  rw [if_pos h]

theorem hasEnded_eq_false (h : i.outcome = none) : i.hasEnded = false := by
  rw [hasEnded, h]
  rfl

/-- Output goes to its reader and to no other, and the reading goes on. -/
theorem receive_of_output (s : Serializer) (path : String) (h : i.outcome = none) {m : Message}
    (hm : m.isStop = false) :
    (i.receive s path m).outcome = none ∧
      ∀ stderr, ((i.receive s path m).output stderr).toBytes =
        (i.output stderr).toBytes ++ (m.payload? stderr).getD [] := by
  obtain ⟨ofStderr, payload, rfl⟩ := Message.eq_frame_of_isStop hm
  unfold Inbound.receive
  rw [if_neg (by rw [hasEnded_eq_false h]; exact Bool.false_ne_true)]
  refine ⟨?_, fun stderr => ?_⟩
  · cases ofStderr <;> exact h
  · rw [Message.payload?_frame]
    cases ofStderr <;> cases stderr
    case false.false => exact i.stdout.toBytes_push payload
    case true.true => exact i.stderr.toBytes_push payload
    all_goals exact (List.append_nil _).symm

/-- The first message that brings no output ends the reading. -/
theorem receive_of_stop (h : i.outcome = none) {m : Message} (hm : m.isStop = true) :
    i.receive s path m = i.finish (m.outcome s path) := by
  unfold Inbound.receive
  rw [if_neg (by rw [hasEnded_eq_false h]; exact Bool.false_ne_true)]
  cases m with
  | failure e => rfl
  | ended => rfl
  | frame bs =>
    cases bs with
    | nil => rfl
    | cons id payload =>
      obtain ⟨h₁, h₂⟩ := Message.ne_of_isStop hm
      simp only [Message.outcome, Channel.ofFrame, Channel.ofId, if_neg h₁, if_neg h₂]
      by_cases h₀ : id = 0
      · simp only [if_pos h₀]
        rfl
      by_cases h₃ : id = 3
      · simp only [if_neg h₀, if_pos h₃]
        rfl
      by_cases h₄ : id = 4
      · simp only [if_neg h₀, if_neg h₃, if_pos h₄]
        rfl
      · simp only [if_neg h₀, if_neg h₃, if_neg h₄]
        rfl

/-! ### Accounts -/

/-- How what the readers have got, what is left for them and the outcome go with the messages that
have come. -/
inductive Accounts (s : Serializer) (path : String) (ms : List Message) (got : Bool → Bytes)
    (i : Inbound) : Prop
  | reading : i.outcome = none → ms.find? Message.isStop = none →
      (∀ stderr, got stderr ++ (i.output stderr).toBytes = Message.outputOf stderr ms) →
      Accounts s path ms got i
  | stopped (m : Message) : i.outcome = some (m.outcome s path) →
      ms.find? Message.isStop = some m →
      (∀ stderr, got stderr ++ (i.output stderr).toBytes = Message.outputOf stderr ms) →
      Accounts s path ms got i
  | calledOff : i.outcome = some (.error .cancelled) →
      (∀ stderr, got stderr ++ (i.output stderr).toBytes <+: Message.outputOf stderr ms) →
      Accounts s path ms got i

variable {ms : List Message} {got : Bool → Bytes}

theorem accounts_start (s : Serializer) (path : String) :
    Accounts s path [] (fun _ => []) start :=
  .reading rfl rfl fun stderr => by cases stderr <;> rfl

theorem Accounts.isPrefix (h : Accounts s path ms got i) (stderr : Bool) :
    got stderr ++ (i.output stderr).toBytes <+: Message.outputOf stderr ms := by
  cases h with
  | reading _ _ hbytes => exact hbytes stderr ▸ List.prefix_rfl
  | stopped m _ _ hbytes => exact hbytes stderr ▸ List.prefix_rfl
  | calledOff _ hbytes => exact hbytes stderr

theorem hasEnded_of_outcome {o : Except ClientError Status} (h : i.outcome = some o) :
    i.hasEnded = true := by
  rw [hasEnded, h]
  rfl

theorem Accounts.receive (h : Accounts s path ms got i) (m : Message) :
    Accounts s path (ms ++ [m]) got (i.receive s path m) := by
  cases h with
  | reading hnone hfind hbytes =>
    cases hm : m.isStop with
    | false =>
      obtain ⟨houtcome, houtput⟩ := receive_of_output s path hnone hm
      refine .reading houtcome ?_ fun stderr => ?_
      · rw [Message.find?_append_singleton hfind, hm]
        rfl
      · rw [houtput, ← List.append_assoc, hbytes, Message.outputOf_append hfind,
          Message.outputOf_singleton]
    | true =>
      rw [receive_of_stop hnone hm]
      refine .stopped m rfl ?_ fun stderr => ?_
      · rw [Message.find?_append_singleton hfind, hm]
        rfl
      · have hsame : ((i.finish (m.outcome s path)).output stderr) = i.output stderr := rfl
        rw [hsame, hbytes, Message.outputOf_append hfind, Message.outputOf_singleton,
          Message.payload?_of_isStop hm]
        exact (List.append_nil _).symm
  | stopped m' houtcome hfind hbytes =>
    -- nobody listens any more, and nothing behind the first stop counts
    rw [receive_of_ended (hasEnded_of_outcome houtcome)]
    refine .stopped m' houtcome ?_ fun stderr => ?_
    · rw [List.find?_append, hfind]
      rfl
    · rw [hbytes, Message.outputOf_append_of_stop hfind]
  | calledOff houtcome hbytes =>
    rw [receive_of_ended (hasEnded_of_outcome houtcome)]
    exact .calledOff houtcome fun stderr =>
      (hbytes stderr).trans (Message.outputOf_prefix_append stderr ms [m])

theorem output_callOff (i : Inbound) (stderr : Bool) :
    i.callOff.output stderr = i.output stderr := by
  rw [callOff]
  split <;> rfl

theorem callOff_of_ended (h : i.hasEnded = true) : i.callOff = i := by
  rw [callOff, if_pos h]

theorem Accounts.callOff (h : Accounts s path ms got i) : Accounts s path ms got i.callOff := by
  cases hended : i.hasEnded with
  | true => exact (callOff_of_ended hended).symm ▸ h
  | false =>
    refine .calledOff ?_ fun stderr => ?_
    · rw [Inbound.callOff, hended]
      rfl
    · rw [output_callOff]
      exact h.isPrefix stderr

/-- A reader takes some of what is left for it. -/
theorem Accounts.take (h : Accounts s path ms got i) {got' : Bool → Bytes} {i' : Inbound}
    (houtcome : i'.outcome = i.outcome)
    (hbytes : ∀ stderr, got' stderr ++ (i'.output stderr).toBytes =
      got stderr ++ (i.output stderr).toBytes) : Accounts s path ms got' i' := by
  cases h with
  | reading hnone hfind hall =>
    exact .reading (houtcome.trans hnone) hfind fun stderr => (hbytes stderr).trans (hall stderr)
  | stopped m hsome hfind hall =>
    exact .stopped m (houtcome.trans hsome) hfind fun stderr => (hbytes stderr).trans (hall stderr)
  | calledOff hsome hall =>
    exact .calledOff (houtcome.trans hsome) fun stderr => (hbytes stderr).symm ▸ hall stderr

end Inbound
end KubeClient
