import KubeClient.Text.FixedPoint
import KubeClient.Scalar.Error

/-!
# Time spans

A span is a signed 64-bit count of nanoseconds, written as a sum of components: `1h30m`, `250ms`.

* `Duration.parse` : an optional sign, then one or more components `number unit`;
* `Duration.text` : below a second one unit, from there on hours, minutes and seconds;
* `Span` : an unsigned span of seconds and nanoseconds, with its own short text.
-/

namespace KubeClient

/-- A signed span of nanoseconds. -/
structure Duration where
  nanos : Int
  nanos_fits : Fits 64 nanos
  deriving DecidableEq, Repr

/-- An unsigned span: whole seconds, and nanoseconds below one second. -/
structure Span where
  seconds : Nat
  nanos : Nat
  deriving DecidableEq, Repr, Inhabited

namespace Span

/-- The span of `n` nanoseconds. -/
def ofNanos (n : Nat) : Span :=
  ⟨n / 10 ^ 9, n % 10 ^ 9⟩

/-- The length in nanoseconds. -/
def toNanos (s : Span) : Nat :=
  s.seconds * 10 ^ 9 + s.nanos

/-- In the largest unit that is not below one. -/
def text (s : Span) : String :=
  let n := s.toNanos
  let (places, unit) :=
    if 10 ^ 9 ≤ n then (9, "s") else if 10 ^ 6 ≤ n then (6, "ms")
    else if 10 ^ 3 ≤ n then (3, "µs") else (0, "ns")
  String.ofList (FixedPoint.text n places) ++ unit

end Span

namespace Duration

/-- Why a text is no span. -/
inductive Fault
  | empty
  | noNumber
  | noUnit
  | unknownUnit
  | range
  deriving DecidableEq, Repr

/-- The reason shown to a user. -/
def Fault.message : Fault → String
  | .empty => "empty duration"
  | .noNumber => "expected a number"
  | .noUnit => "missing unit"
  | .unknownUnit => "unknown unit"
  | .range => "value out of range"

/-- The nanoseconds of a unit. -/
def unitScale : List Char → Option Nat
  | ['n', 's'] => some 1
  | ['u', 's'] => some (10 ^ 3)
  | ['µ', 's'] => some (10 ^ 3)
  | ['μ', 's'] => some (10 ^ 3)
  | ['m', 's'] => some (10 ^ 6)
  | ['s'] => some (10 ^ 9)
  | ['m'] => some (60 * 10 ^ 9)
  | ['h'] => some (3600 * 10 ^ 9)
  | _ => none

/-- The value of fraction digits behind a unit of `place`; what is left of a nanosecond is cut at
every digit. -/
def fractionValue (place : Nat) : List Char → Nat
  | [] => 0
  | d :: ds =>
    if place / 10 = 0 then 0
    else (d.toNat - 48) * (place / 10) + fractionValue (place / 10) ds

/-- The digits before and after the point, and the text behind them. -/
def splitNumber (cs : List Char) : List Char × List Char × List Char :=
  let whole := Numeral.spanDigits cs
  if whole.2.head? = some '.' then (whole.1, Numeral.spanDigits whole.2.tail)
  else (whole.1, [], whole.2)

/-- A unit ends where a number can begin. -/
def inUnit (c : Char) : Bool :=
  !c.isDigit && c != '.'

/-- Totals are kept in an unsigned word of 128 bits. -/
def word? (n : Nat) : Except Fault Nat :=
  if n < 2 ^ 128 then .ok n else .error .range

/-- The nanoseconds of `whole` and `fraction` in a unit of `scale`. The fraction is added without a
check, so the word drops what it cannot hold of the sum. -/
def componentValue (scale : Nat) (whole fraction : List Char) : Except Fault Nat := do
  let n ← word? (Numeral.value whole)
  let n ← word? (n * scale)
  return (n + fractionValue scale fraction) % 2 ^ 128

/-- The nanoseconds of the component in front, and the text behind it. -/
def component (cs : List Char) : Except Fault (Nat × List Char) :=
  let number := splitNumber cs
  let rest := number.2.2
  if number.1 = [] ∧ number.2.1 = [] then .error .noNumber
  else if rest.takeWhile inUnit = [] then .error .noUnit
  else match unitScale (rest.takeWhile inUnit) with
    | none => .error .unknownUnit
    | some scale =>
      (componentValue scale number.1 number.2.1).map (·, rest.dropWhile inUnit)

theorem splitNumber_length (cs : List Char) : (splitNumber cs).2.2.length ≤ cs.length := by
  have h : (Numeral.spanDigits cs).2.length ≤ cs.length :=
    (List.dropWhile_sublist _).length_le
  unfold splitNumber
  dsimp only
  split
  · have := (List.dropWhile_sublist Char.isDigit (l := (Numeral.spanDigits cs).2.tail)).length_le
    have := (Numeral.spanDigits cs).2.length_tail
    simp only [Numeral.spanDigits] at *
    omega
  · simpa using h

theorem component_length {cs : List Char} {p : Nat × List Char} (h : component cs = .ok p) :
    p.2.length < cs.length := by
  have hs := splitNumber_length cs
  unfold component at h
  dsimp only at h
  split at h
  · cases h
  split at h
  · cases h
  rename_i hu
  split at h
  · cases h
  obtain ⟨n, rfl⟩ : ∃ n, (n, (splitNumber cs).2.2.dropWhile inUnit) = p := by
    revert h
    cases componentValue _ _ _ with
    | error => intro h; cases h
    | ok n => intro h; exact ⟨n, Except.ok.inj h⟩
  have happ := congrArg List.length
    (List.takeWhile_append_dropWhile (p := inUnit) (l := (splitNumber cs).2.2))
  have hpos := List.length_pos_iff.2 hu
  simp only [List.length_append] at happ
  simp only
  omega

/-- The sum of all components, added to `total`. -/
def components (total : Nat) (cs : List Char) : Except Fault Nat :=
  if cs = [] then .ok total
  else match _h : component cs with
    | .error e => .error e
    | .ok p =>
      match word? (total + p.1) with
      | .error e => .error e
      | .ok total => components total p.2
termination_by cs.length
decreasing_by exact component_length _h

/-- The sign in front of a span, and what follows it. -/
def splitSign : List Char → Bool × List Char
  | '-' :: cs => (true, cs)
  | '+' :: cs => (false, cs)
  | cs => (false, cs)

/-- The span of `n` nanoseconds, if a signed 64-bit word holds them. -/
def ofNanos? (n : Int) : Option Duration :=
  if h : Fits 64 n then some ⟨n, h⟩ else none

instance : Inhabited Duration := ⟨⟨0, by decide⟩⟩

/-- Reads the text of a span. -/
def parseChars (input : List Char) : Except Fault Duration :=
  let (negative, body) := splitSign input
  if body = [] then .error .empty
  else do
    let total ← components 0 body
    match ofNanos? (if negative then -(total : Int) else total) with
    | some d => .ok d
    | none => .error .range

/-- Reads the text of a span. -/
def parse (input : String) : Except ScalarError Duration :=
  (parseChars input.toList).mapError fun f => ⟨"duration", input, f.message⟩

/-- The text of a magnitude of `n` nanoseconds. -/
def magnitudeText (n : Nat) : List Char :=
  if n < 10 ^ 3 then FixedPoint.text n 0 ++ ['n', 's']
  else if n < 10 ^ 6 then FixedPoint.text n 3 ++ ['µ', 's']
  else if n < 10 ^ 9 then FixedPoint.text n 6 ++ ['m', 's']
  else
    let hours := n / (3600 * 10 ^ 9)
    let minutes := n % (3600 * 10 ^ 9) / (60 * 10 ^ 9)
    (if hours = 0 then [] else Nat.toDigits 10 hours ++ ['h']) ++
    (if hours = 0 ∧ minutes = 0 then [] else Nat.toDigits 10 minutes ++ ['m']) ++
    FixedPoint.text (n % (60 * 10 ^ 9)) 9 ++ ['s']

/-- The text of a span. -/
def chars (d : Duration) : List Char :=
  if d.nanos = 0 then ['0', 's']
  else (if d.nanos < 0 then ['-'] else []) ++ magnitudeText d.nanos.natAbs

/-- The text on the wire. -/
def text (d : Duration) : String :=
  String.ofList d.chars

/-- The unsigned span of the same length; a negative one has none. -/
def toSpan? (d : Duration) : Option Span :=
  if d.nanos < 0 then none else some (Span.ofNanos d.nanos.toNat)

/-- The signed span of the same length. -/
def ofSpan (s : Span) : Except ScalarError Duration :=
  match ofNanos? s.toNanos with
  | some d => .ok d
  | none => .error ⟨"duration", s.text, "exceeds i64 nanoseconds"⟩

end Duration
end KubeClient
