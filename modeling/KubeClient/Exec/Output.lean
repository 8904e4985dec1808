import KubeClient.Text.Utf8

/-!
# The output of a process

Output comes in chunks and is taken by chunks or by bytes.

* `Output` : what has come and was not taken yet;
* `Output.next` : the next chunk, or what is left of one;
* `Output.read` : at most so many bytes.
-/

namespace KubeClient

/-- What has come and was not taken yet: what is left of a chunk that was taken in part, and the
chunks behind it. -/
structure Output where
  rest : Bytes
  chunks : List Bytes
  deriving DecidableEq, Repr, Inhabited

/-- What a reader gets. -/
inductive Received
  | bytes (bytes : Bytes)
  | ended
  | pending
  deriving DecidableEq, Repr, Inhabited

namespace Output

/-- Nothing has come. -/
def empty : Output := ⟨[], []⟩

/-- A chunk comes; one without bytes is dropped. -/
def push (o : Output) (chunk : Bytes) : Output :=
  if chunk.isEmpty then o else { o with chunks := o.chunks ++ [chunk] }

/-- All bytes that were not taken yet. -/
def toBytes (o : Output) : Bytes :=
  o.rest ++ o.chunks.flatten

/-- What a reader gets where nothing is left. -/
def exhausted (ended : Bool) : Received :=
  if ended then .ended else .pending

/-- The next chunk, or what is left of one; `ended` says that no more will come. -/
def next (o : Output) (ended : Bool) : Received × Output :=
  if o.rest.isEmpty then
    match o.chunks with
    | [] => (exhausted ended, o)
    | chunk :: chunks => (.bytes chunk, { o with chunks })
  else (.bytes o.rest, { o with rest := [] })

/-- At most `n` bytes from the first chunk that has any. -/
def readChunks (n : Nat) (ended : Bool) : List Bytes → Received × Output
  | [] => (exhausted ended, empty)
  | chunk :: chunks =>
    if chunk.isEmpty then readChunks n ended chunks
    else (.bytes (chunk.take n), ⟨chunk.drop n, chunks⟩)

/-- At most `n` bytes; `ended` says that no more will come. -/
def read (o : Output) (n : Nat) (ended : Bool) : Received × Output :=
  readChunks n ended (o.rest :: o.chunks)

end Output
end KubeClient
