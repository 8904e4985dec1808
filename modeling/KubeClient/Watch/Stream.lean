import KubeClient.Client.Error
import KubeClient.Watch.Event
import KubeClient.Watch.LineBuffer

/-!
# The stream of a watch

The body of a watch never ends by itself. Its chunks are fed to a stream, which is polled for one
event after the other.

* `WatchStream` : what is known of a stream between two polls;
* `Feed` : what the body has brought and no poll has taken yet;
* `WatchStream.poll` : the next event, the end, or neither yet;
* `WatchStream.items` : all events up to the end.

An error event, an event that cannot be read and a failure of the network are each the last one.
-/

namespace KubeClient

/-- What the body of a watch has brought: chunks, failures, and `none` for its end. -/
abbrev Feed := List (Wait TransportError (Option Bytes))

/-- A body that has come as a whole. -/
def Body.feed (body : Body) : Feed :=
  body.map (fun
    | .ends outcome fired => .ends (outcome.map some) fired
    | .fires => .fires) ++ [.ends (.ok none) false]

/-- One for every wait, and one for every byte. -/
def Feed.weight (feed : Feed) : Nat :=
  (feed.map fun
    | .ends (.ok (some chunk)) _ => chunk.length + 1
    | _ => 1).sum

/-- What is known of a stream between two polls. -/
structure WatchStream where
  method : Method
  path : String
  serializer : Serializer
  /-- The body is still held. -/
  isOpen : Bool
  lines : LineBuffer
  deriving DecidableEq, Repr, Inhabited

/-- An event, or why there are no more. -/
abbrev WatchItem (α : Type) := Except ClientError (WatchEvent α)

/-- No item comes behind this one. -/
def WatchItem.isLast {α : Type} : WatchItem α → Bool
  | .ok e => e.isTerminal
  | .error _ => true

/-- What a poll comes to. -/
inductive Polled (α : Type)
  | item (item : WatchItem α)
  | ended
  | pending

namespace WatchStream

variable {α : Type} [Documented α]

/-- A stream of which nothing has come. -/
def start (method : Method) (path : String) (serializer : Serializer) : WatchStream :=
  ⟨method, path, serializer, true, .empty⟩

/-- Lets the body go. -/
def close (s : WatchStream) : WatchStream :=
  { s with isOpen := false }

/-- Lets the body go, and all lines with it. -/
def stop (s : WatchStream) : WatchStream :=
  { s with isOpen := false, lines := .empty }

/-- The item in a line, if there is one. -/
def itemOf (α : Type) [Documented α] (s : Serializer) (line : Bytes) : Option (WatchItem α) :=
  match WatchEvent.decode α s line with
  | .ok none => none
  | .ok (some e) => some (.ok e)
  | .error e => some (.error (.serialization e))

/-- Behind its last item a stream stops. -/
def settle (s : WatchStream) (item : WatchItem α) : WatchStream :=
  if item.isLast then s.stop else s

/-- The first item in the lines that have come. -/
def takeItem (α : Type) [Documented α] (s : Serializer) (lines : LineBuffer) :
    Option (WatchItem α) × LineBuffer :=
  match _h : lines.nextLine with
  | (none, lines) => (none, lines)
  | (some line, lines) =>
    match itemOf α s line with
    | some item => (some item, lines)
    | none => takeItem α s lines
termination_by lines.bytes.length
decreasing_by exact LineBuffer.length_lt_of_nextLine _h

/-- The end of the body has come: what is left is the last line. -/
def finish (α : Type) [Documented α] (s : WatchStream) : Polled α × WatchStream :=
  let (line, lines) := s.lines.finish
  let polled := match line.bind (itemOf α s.serializer) with
    | none => .ended
    | some item => .item item
  (polled, { s.close with lines })

/-- The next item, the end, or neither yet; `fired` says whether the caller has called off. A stream
must not be polled behind the end: the answer there is never asked for. -/
def poll (α : Type) [Documented α] (s : WatchStream) (fired : Bool) (feed : Feed) :
    Polled α × WatchStream × Bool × Feed :=
  match takeItem α s.serializer s.lines with
  | (some item, lines) => (.item item, { s with lines }.settle item, fired, feed)
  | (none, lines) =>
    let s := { s with lines }
    if !s.isOpen then (.ended, s, fired, feed)
    else if fired then (.ended, s.close, fired, feed)
    else match feed with
      | [] => (.pending, s, fired, [])
      | .fires :: feed => (.ended, s.close, true, feed)
      | .ends (.ok (some chunk)) fired :: feed =>
        poll α { s with lines := s.lines.push chunk } fired feed
      | .ends (.error e) fired :: feed =>
        (.item (.error (.transport s.method s.path e)), s.close, fired, feed)
      | .ends (.ok none) fired :: feed =>
        let (polled, s) := s.finish α
        (polled, s, fired, feed)
termination_by structural feed

theorem length_of_finish {s s' : WatchStream} {polled : Polled α}
    (h : s.finish α = (polled, s')) : s'.lines.bytes.length = 0 := by
  simp only [finish, LineBuffer.finish, Prod.mk.injEq] at h
  obtain ⟨-, rfl⟩ := h
  rfl

theorem length_le_of_takeItem {s : Serializer} {lines lines' : LineBuffer}
    {item : Option (WatchItem α)} (h : takeItem α s lines = (item, lines')) :
    lines'.bytes.length + (if item.isSome then 1 else 0) ≤ lines.bytes.length := by
  fun_induction takeItem α s lines with
  | case1 lines rest hn =>
    simp only [Prod.mk.injEq] at h
    obtain ⟨rfl, rfl⟩ := h
    simpa using LineBuffer.length_le_of_nextLine hn
  | case2 lines line rest hn item' hi =>
    simp only [Prod.mk.injEq] at h
    obtain ⟨rfl, rfl⟩ := h
    have := LineBuffer.length_lt_of_nextLine hn
    simp only [Option.isSome_some, if_true]
    omega
  | case3 lines line rest hn hi ih =>
    have := LineBuffer.length_lt_of_nextLine hn
    have := ih h
    omega

theorem weight_lt_of_poll {s s' : WatchStream} {fired fired' : Bool} {feed feed' : Feed}
    {item : WatchItem α} (h : s.poll α fired feed = (.item item, s', fired', feed')) :
    s'.lines.bytes.length + feed'.weight < s.lines.bytes.length + feed.weight := by
  fun_induction poll α s fired feed with
  | case1 feed s fired item' lines ht =>
    have := length_le_of_takeItem ht
    simp only [Prod.mk.injEq] at h
    obtain ⟨-, rfl, -, rfl⟩ := h
    simp only [Option.isSome_some, if_true] at this
    simp only [settle]
    split <;> simp only [stop, LineBuffer.empty, List.length_nil] <;> omega
  | case2 | case3 | case4 | case5 => simp at h
  | case6 s fired lines ht s₁ ho hf chunk fired₁ feed ih =>
    have := length_le_of_takeItem ht
    have := ih h
    simp only [s₁, LineBuffer.push, List.length_append, Feed.weight, List.map_cons,
      List.sum_cons, Option.isSome_none, Bool.false_eq_true, if_false] at *
    omega
  | case7 s fired lines ht s₁ ho hf e fired₁ feed =>
    have := length_le_of_takeItem ht
    simp only [Prod.mk.injEq] at h
    obtain ⟨-, rfl, -, rfl⟩ := h
    simp only [s₁, close, Feed.weight, List.map_cons, List.sum_cons, Option.isSome_none,
      Bool.false_eq_true, if_false] at *
    omega
  | case8 s fired lines ht s₁ ho hf fired₁ feed polled s₂ hs =>
    have := length_of_finish hs
    simp only [Prod.mk.injEq] at h
    obtain ⟨-, rfl, -, rfl⟩ := h
    simp only [Feed.weight, List.map_cons, List.sum_cons] at *
    omega

/-- All items up to the end, or up to where nothing more has come. -/
def items (α : Type) [Documented α] (s : WatchStream) (fired : Bool) (feed : Feed) :
    List (WatchItem α) :=
  match _h : s.poll α fired feed with
  | (.item item, s', fired', feed') => item :: items α s' fired' feed'
  | _ => []
termination_by s.lines.bytes.length + feed.weight
decreasing_by exact weight_lt_of_poll _h

end WatchStream
end KubeClient
