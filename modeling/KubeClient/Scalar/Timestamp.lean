import KubeClient.Scalar.Date
import KubeClient.Scalar.Error
import KubeClient.Text.Numeral

/-!
# RFC 3339 timestamps

* `Instant` : a second of universal time and the nanoseconds in it, a leap second being told by
  nanoseconds of a second or more;
* `Instant.parse` : a date, a time and an offset, normalised to universal time;
* `Instant.text` : written in universal time, with the fraction that is asked for;
* `Precision` : timestamps of whole seconds, and those of microseconds.
-/

namespace KubeClient

/-- A moment: seconds since 1 January 1970, and nanoseconds, up to two seconds in a leap second. -/
structure Instant where
  seconds : Int
  nanos : Nat
  deriving DecidableEq, Repr, Inhabited

namespace Instant

/-- Why a text is no timestamp. -/
inductive Fault
  | short
  | invalid
  | range
  | trailing
  deriving DecidableEq, Repr

/-- The reason shown to a user. -/
def Fault.message : Fault → String
  | .short => "premature end of input"
  | .invalid => "input contains invalid characters"
  | .range => "input is out of range"
  | .trailing => "trailing input"

/-- Exactly `n` digits in front. -/
def digits (n : Nat) (cs : List Char) : Except Fault (Nat × List Char) :=
  let ds := cs.take n
  if ds.length = n ∧ ds.all Char.isDigit then .ok (Numeral.value ds, cs.drop n)
  else .error .invalid

/-- One character of `allowed` in front. -/
def oneOf (allowed : List Char) : List Char → Except Fault (List Char)
  | [] => .error .short
  | c :: cs => if c ∈ allowed then .ok cs else .error .invalid

/-- The nanoseconds of a fraction, of which nine digits count. -/
def fraction : List Char → Except Fault (Nat × List Char)
  | '.' :: cs =>
    let ds := (cs.take 9).takeWhile Char.isDigit
    if cs = [] then .error .short
    else if ds = [] then .error .invalid
    else .ok (Numeral.value ds * 10 ^ (9 - ds.length), cs.dropWhile Char.isDigit)
  | cs => .ok (0, cs)

/-- The number of bytes that characters take. -/
def byteCount (cs : List Char) : Nat :=
  (cs.map Char.utf8Size).sum

/-- Two digits of an offset; the minutes end at 59. Less than two bytes are too short. -/
def offsetPart (limit : Nat) (cs : List Char) : Except Fault (Nat × List Char) :=
  if byteCount cs < 2 then .error .short
  else do
    let (n, cs) ← digits 2 cs
    if limit < n then .error .range else .ok (n, cs)

/-- The offset of local time in seconds, be it of a day or more. -/
def offset : List Char → Except Fault (Int × List Char)
  | [] => .error .short
  | c :: cs =>
    if c = 'Z' ∨ c = 'z' then .ok (0, cs)
    else if c = '+' ∨ c = '-' ∨ c = '−' then do
      let (hours, cs) ← offsetPart 99 cs
      let cs ← oneOf [':'] cs
      let (minutes, cs) ← offsetPart 59 cs
      let seconds : Int := hours * 3600 + minutes * 60
      return (if c = '+' then seconds else -seconds, cs)
    else .error .invalid

/-- The date in front. -/
def date (cs : List Char) : Except Fault (Date × List Char) := do
  let (year, cs) ← digits 4 cs
  let cs ← oneOf ['-'] cs
  let (month, cs) ← digits 2 cs
  let cs ← oneOf ['-'] cs
  let (day, cs) ← digits 2 cs
  let d : Date := ⟨year, month, day⟩
  if d.Valid then .ok (d, cs) else .error .range

/-- The time of day in front: a second of the day, and nanoseconds in it. -/
def timeOfDay (cs : List Char) : Except Fault (Nat × Nat × List Char) := do
  let (hour, cs) ← digits 2 cs
  let cs ← oneOf [':'] cs
  let (minute, cs) ← digits 2 cs
  let cs ← oneOf [':'] cs
  let (second, cs) ← digits 2 cs
  let (nanos, cs) ← fraction cs
  if 24 ≤ hour ∨ 60 ≤ minute ∨ 61 ≤ second then .error .range
  else if second = 60 then .ok (hour * 3600 + minute * 60 + 59, nanos + 10 ^ 9, cs)
  else .ok (hour * 3600 + minute * 60 + second, nanos, cs)

/-- The shortest text of a date and a time of day has this many bytes. -/
def minBytes : Nat := 19

/-- Offsets are shorter than this many seconds. -/
def maxOffset : Nat := 86400

/-- Reads a timestamp. What follows it is noticed before the length of the offset is. -/
def parseChars (cs : List Char) : Except Fault Instant :=
  if byteCount cs < minBytes then .error .short
  else do
    let (d, cs) ← date cs
    let cs ← oneOf ['T', 't', ' '] cs
    let (second, nanos, cs) ← timeOfDay cs
    let (offset, cs) ← offset cs
    if cs ≠ [] then .error .trailing
    else if maxOffset ≤ offset.natAbs then .error .range
    else .ok ⟨d.toDays * 86400 + second - offset, nanos⟩

/-- How much of the fraction of a second is written. -/
inductive Fraction
  /-- None. -/
  | none
  /-- Always six digits. -/
  | micros
  /-- No digits, or three, six or nine, as few as show it. -/
  | shortest
  deriving DecidableEq, Repr

/-- The fraction of a second with its point. -/
def Fraction.chars (f : Fraction) (nanos : Nat) : List Char :=
  match f with
  | .none => []
  | .micros => '.' :: Numeral.padded 6 (nanos / 10 ^ 3)
  | .shortest =>
    if nanos = 0 then []
    else if nanos % 10 ^ 6 = 0 then '.' :: Numeral.padded 3 (nanos / 10 ^ 6)
    else if nanos % 10 ^ 3 = 0 then '.' :: Numeral.padded 6 (nanos / 10 ^ 3)
    else '.' :: Numeral.padded 9 nanos

/-- Four digits; years outside `0 … 9999` carry a sign. -/
def yearChars (year : Int) : List Char :=
  if 0 ≤ year ∧ year ≤ 9999 then Numeral.padded 4 year.toNat
  else (if year < 0 then '-' else '+') :: Numeral.padded 4 year.natAbs

/-- The text of an instant in universal time. -/
def chars (f : Fraction) (t : Instant) : List Char :=
  let d := Date.ofDays (t.seconds / 86400)
  let s := (t.seconds % 86400).toNat
  let leap := 10 ^ 9 ≤ t.nanos
  yearChars d.year ++ '-' :: Numeral.padded 2 d.month ++ '-' :: Numeral.padded 2 d.day ++
  'T' :: Numeral.padded 2 (s / 3600) ++ ':' :: Numeral.padded 2 (s % 3600 / 60) ++
  ':' :: Numeral.padded 2 (if leap then s % 60 + 1 else s % 60) ++
  f.chars (if leap then t.nanos - 10 ^ 9 else t.nanos) ++ ['Z']

/-- The text of an instant in universal time. -/
def text (f : Fraction) (t : Instant) : String :=
  String.ofList (t.chars f)

/-- Instants in order; a leap second comes last in its second. -/
def compare (a b : Instant) : Ordering :=
  (Ord.compare a.seconds b.seconds).then (Ord.compare a.nanos b.nanos)

/-- Drops what is finer than `unit` nanoseconds. -/
def truncate (unit : Nat) (t : Instant) : Instant :=
  { t with nanos := t.nanos - t.nanos % unit }

end Instant

/-- The two kinds of timestamps on the wire. -/
inductive Precision
  | seconds
  | micros
  deriving DecidableEq, Repr

namespace Precision

/-- The nanoseconds of one unit. -/
def unit : Precision → Nat
  | .seconds => 10 ^ 9
  | .micros => 10 ^ 3

/-- The fraction that is written. -/
def fraction : Precision → Instant.Fraction
  | .seconds => .none
  | .micros => .micros

/-- The name of the kind. -/
def kind : Precision → String
  | .seconds => "timestamp"
  | .micros => "micro timestamp"

end Precision

/-- An instant that is kept with the given precision. -/
structure Timestamp (p : Precision) where
  instant : Instant
  deriving DecidableEq, Repr, Inhabited

namespace Timestamp

/-- The timestamp of an instant: what is finer is dropped. -/
def ofInstant (p : Precision) (t : Instant) : Timestamp p :=
  ⟨t.truncate p.unit⟩

/-- Reads a timestamp. -/
def parseChars (p : Precision) (cs : List Char) : Except Instant.Fault (Timestamp p) :=
  (Instant.parseChars cs).map (ofInstant p)

/-- Reads a timestamp. -/
def parse (p : Precision) (input : String) : Except ScalarError (Timestamp p) :=
  (parseChars p input.toList).mapError fun f => ⟨p.kind, input, f.message⟩

/-- The text on the wire. -/
def text {p : Precision} (t : Timestamp p) : String :=
  t.instant.text p.fraction

end Timestamp
end KubeClient
