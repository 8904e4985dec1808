import KubeClient.Text.Blank
import KubeClient.Text.Utf8

/-!
# Lines of a stream

Chunks of any size come in, lines go out.

* `LineBuffer.push` : a chunk arrives;
* `LineBuffer.nextLine` : the next line whose line feed has arrived, if it is not blank;
* `LineBuffer.finish` : what is left when the stream has ended.

A line goes out without its line feed and without one carriage return in front of that.
-/

namespace KubeClient

/-- Bytes that have arrived, of which the first `scanned` are known to hold no line feed. -/
structure LineBuffer where
  bytes : Bytes
  scanned : Nat
  deriving DecidableEq, Repr, Inhabited

namespace LineBuffer

def lineFeed : UInt8 := 0x0A

def carriageReturn : UInt8 := 0x0D

/-- A buffer in which nothing has arrived. -/
def empty : LineBuffer := ⟨[], 0⟩

/-- A chunk arrives. -/
def push (b : LineBuffer) (chunk : Bytes) : LineBuffer :=
  { b with bytes := b.bytes ++ chunk }

/-- The number of bytes that have not gone out. -/
def pending (b : LineBuffer) : Nat :=
  b.bytes.length

/-- A line without one carriage return at its end. -/
def stripReturn (line : Bytes) : Bytes :=
  if line.getLast? = some carriageReturn then line.dropLast else line

/-- Nothing but blanks. -/
def isBlank (line : Bytes) : Bool :=
  line.all Blank.isAscii

/-- The offset of the first line feed behind the cursor. -/
def lineEnd? (b : LineBuffer) : Option Nat :=
  ((b.bytes.drop b.scanned).idxOf? lineFeed).map (b.scanned + ·)

theorem lineEnd?_lt {b : LineBuffer} {stop : Nat} (h : b.lineEnd? = some stop) :
    stop < b.bytes.length := by
  simp only [lineEnd?, Option.map_eq_some_iff] at h
  obtain ⟨i, hi, rfl⟩ := h
  have := (List.idxOf?_eq_some_iff.mp hi).1
  simp only [List.length_drop] at this
  omega

/-- The next line that is not blank and whose line feed has arrived. -/
def nextLine (b : LineBuffer) : Option Bytes × LineBuffer :=
  match _h : b.lineEnd? with
  | none => (none, { b with scanned := b.bytes.length })
  | some stop =>
    let line := stripReturn (b.bytes.take stop)
    let rest : LineBuffer := ⟨b.bytes.drop (stop + 1), 0⟩
    if isBlank line then nextLine rest else (some line, rest)
termination_by b.bytes.length
decreasing_by
  have := lineEnd?_lt _h
  simp only [List.length_drop]
  omega

theorem length_lt_of_nextLine {b b' : LineBuffer} {line : Bytes}
    (h : b.nextLine = (some line, b')) : b'.bytes.length < b.bytes.length := by
  fun_induction nextLine b with
  | case1 b h' => simp at h
  | case2 b stop hs line' rest hb ih =>
    have := lineEnd?_lt hs
    have := ih h
    simp only [rest, List.length_drop] at this
    omega
  | case3 b stop hs line' rest hb =>
    have := lineEnd?_lt hs
    simp only [Prod.mk.injEq, Option.some.injEq] at h
    obtain ⟨-, rfl⟩ := h
    simp only [rest, List.length_drop]
    omega

theorem length_le_of_nextLine {b b' : LineBuffer} {line : Option Bytes}
    (h : b.nextLine = (line, b')) : b'.bytes.length ≤ b.bytes.length := by
  fun_induction nextLine b with
  | case1 b h' =>
    simp only [Prod.mk.injEq] at h
    obtain ⟨-, rfl⟩ := h
    exact Nat.le_refl _
  | case2 b stop hs line' rest hb ih =>
    have := ih h
    simp only [rest, List.length_drop] at this
    omega
  | case3 b stop hs line' rest hb =>
    simp only [Prod.mk.injEq] at h
    obtain ⟨-, rfl⟩ := h
    simp only [rest, List.length_drop]
    omega

/-- What is left when the stream has ended, unless it is blank. -/
def finish (b : LineBuffer) : Option Bytes × LineBuffer :=
  (if isBlank b.bytes then none else some b.bytes, empty)

end LineBuffer
end KubeClient
