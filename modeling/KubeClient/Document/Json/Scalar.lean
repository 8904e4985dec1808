import KubeClient.Document.Json.Cursor

/-!
# Numbers and strings of JSON text

An integer that a 64-bit word holds stays an integer; every other number becomes a double: its
first digits as far as they fit an unsigned 64-bit word, scaled by one power of ten.
-/

namespace KubeClient.Json.Reader

/-! ### Numbers -/

/-- An ASCII digit. -/
def isDigit (b : UInt8) : Bool :=
  0x30 ≤ b && b ≤ 0x39

/-- The value of a digit. -/
def digit (b : UInt8) : Nat :=
  b.toNat - 0x30

/-- An exponent starts with `e`. -/
def isExponent (b : Option UInt8) : Bool :=
  b == some 0x65 || b == some 0x45

/-- Appends digits to `n` while the result is below `bound`. -/
def appendDigits (bound n : Nat) : Bytes → Nat × Nat × Bytes
  | [] => (n, 0, [])
  | b :: bs =>
    if isDigit b && n * 10 + digit b < bound then
      let (n, count, rest) := appendDigits bound (n * 10 + digit b) bs
      (n, count + 1, rest)
    else (n, 0, b :: bs)

/-- Takes digits while they fit below `bound`: the number, and how many they were. -/
def takeDigits (bound n : Nat) : Reader (Nat × Nat) := fun c =>
  let (n, count, rest) := appendDigits bound n c.rest
  .ok (n, count) ⟨c.offset + count, rest⟩

/-- Steps over digits, counting them. -/
def countDigits : Reader Nat := fun c =>
  let n := (c.rest.takeWhile isDigit).length
  .ok n ⟨c.offset + n, c.rest.dropWhile isDigit⟩

/-- Some digit comes next. -/
def atDigit : Reader Bool := fun c =>
  .ok (c.rest.head?.any isDigit) c

/-- A power of ten as a double. -/
def powTen (n : Nat) : Float :=
  Float.ofScientific 1 false n

/-- Divides by `10 ^ n`, in steps of `10 ^ 308`. -/
def divide (f : Float) (n : Nat) : Float :=
  if n ≤ 308 then f / powTen n
  else if f == 0 then f
  else divide (f / powTen 308) (n - 308)
termination_by n
decreasing_by omega

/-- The double `significand * 10 ^ exponent` with its sign. -/
def scale (negative : Bool) (significand : Nat) (exponent : Int) : Reader Number := do
  let f := Float.ofNat significand
  let f ←
    if exponent < 0 then pure (divide f exponent.natAbs)
    else if exponent ≤ 308 then
      let f := f * powTen exponent.toNat
      if f.isInf then failHere .numberRange else pure f
    else if f == 0 then pure f
    else failHere .numberRange
  return .float (if negative then -f else f)

/-- Exponents stay below this bound; a larger one is decided by its sign. -/
def exponentBound : Nat := 2 ^ 31

/-- The exponent of a number, its `e` being next. -/
def exponentPart (negative : Bool) (significand : Nat) (start : Int) : Reader Number := do
  advance
  let sign ← peek
  if sign = some 0x2B ∨ sign = some 0x2D then advance
  match ← next with
  | none => failHere .endInValue
  | some b =>
    if !isDigit b then failHere .badNumber else
    let (e, _) ← takeDigits exponentBound (digit b)
    if ← atDigit then
      advance
      if significand ≠ 0 ∧ sign ≠ some 0x2D then failHere .numberRange
      let _ ← countDigits
      return .float (if negative then -0.0 else 0.0)
    scale negative significand (if sign = some 0x2D then start - e else start + e)

/-- The end of a number whose digits are all read. -/
def afterDigits (negative : Bool) (significand : Nat) (exponent : Int) : Reader Number := do
  if isExponent (← peek) then exponentPart negative significand exponent
  else scale negative significand exponent

/-- The fraction of a number, its point being next. -/
def fractionPart (negative : Bool) (significand : Nat) (start : Int) : Reader Number := do
  advance
  let (significand, count) ← takeDigits (2 ^ 64) significand
  if ← atDigit then
    let _ ← countDigits
    afterDigits negative significand (start - count)
  else if count = 0 then
    match ← peek with
    | some _ => failNext .badNumber
    | none => failHere .endInValue
  else afterDigits negative significand (start - count)

/-- An integer as it is kept. -/
def integer (negative : Bool) (significand : Nat) : Number :=
  if !negative then .int significand
  else if 0 < significand ∧ significand ≤ 2 ^ 63 then .int (-significand)
  else .float (-(Float.ofNat significand))

/-- What follows the digits of a number that an unsigned 64-bit word holds. -/
def numberTail (negative : Bool) (significand : Nat) : Reader Number := do
  let b ← peek
  if b = some 0x2E then fractionPart negative significand 0
  else if isExponent b then exponentPart negative significand 0
  else return integer negative significand

/-- A number behind its sign. -/
def unsignedNumber (negative : Bool) : Reader Number := do
  match ← next with
  | none => failHere .endInValue
  | some b =>
    if b = 0x30 then
      if ← atDigit then failNext .badNumber else numberTail negative 0
    else if !isDigit b then failHere .badNumber
    else
      let (significand, _) ← takeDigits (2 ^ 64) (digit b)
      if ← atDigit then
        let more ← countDigits
        if (← peek) = some 0x2E then fractionPart negative significand more
        else afterDigits negative significand more
      else numberTail negative significand

/-- A number, its first byte being next. -/
def number : Reader Number := do
  if (← peek) = some 0x2D then
    advance
    unsignedNumber true
  else unsignedNumber false

/-! ### Strings -/

/-- The value of a hexadecimal digit. -/
def hexValue? (b : UInt8) : Option Nat :=
  if isDigit b then some (digit b)
  else if 0x41 ≤ b ∧ b ≤ 0x46 then some (b.toNat - 0x37)
  else if 0x61 ≤ b ∧ b ≤ 0x66 then some (b.toNat - 0x57)
  else none

/-- Four hexadecimal digits. -/
def hexEscape : Reader Nat := fun c =>
  match c.rest with
  | a :: b :: d :: e :: rest =>
    let c' : Cursor := ⟨c.offset + 4, rest⟩
    match hexValue? a, hexValue? b, hexValue? d, hexValue? e with
    | some a, some b, some d, some e => .ok (((a * 16 + b) * 16 + d) * 16 + e) c'
    | _, _, _, _ => failHere .badEscape c'
  | rest => failHere .endInString ⟨c.offset + rest.length, []⟩

/-- The first or the second half of a pair of surrogates. -/
def isLead (n : Nat) : Bool := 0xD800 ≤ n && n ≤ 0xDBFF

/-- The second half of a pair of surrogates. -/
def isTrail (n : Nat) : Bool := 0xDC00 ≤ n && n ≤ 0xDFFF

/-- One more byte of an escape that needs a second half. -/
def pairByte (expected : UInt8) : Reader Unit := do
  match ← next with
  | none => failHere .endInString
  | some b => if b = expected then pure () else failHere .unfinishedEscape

/-- The character of an escape behind its `u`. -/
def unicodeEscape : Reader Char := do
  let n ← hexEscape
  if isTrail n then failHere .loneSurrogate
  else if isLead n then
    pairByte 0x5C
    pairByte 0x75
    let m ← hexEscape
    if isTrail m then return Char.ofNat (0x10000 + (n - 0xD800) * 0x400 + (m - 0xDC00))
    else failHere .loneSurrogate
  else return Char.ofNat n

/-- The byte that a short escape stands for. -/
def shortEscape? (b : UInt8) : Option UInt8 :=
  if b = 0x22 ∨ b = 0x5C ∨ b = 0x2F then some b
  else if b = 0x62 then some 0x08
  else if b = 0x66 then some 0x0C
  else if b = 0x6E then some 0x0A
  else if b = 0x72 then some 0x0D
  else if b = 0x74 then some 0x09
  else none

/-- The bytes of an escape behind its backslash. -/
def escaped : Reader Bytes := do
  match ← next with
  | none => failHere .endInString
  | some b =>
    match shortEscape? b with
    | some b => return [b]
    | none =>
      if b = 0x75 then return Utf8.encode (String.singleton (← unicodeEscape))
      else failHere .badEscape

/-- The bytes of a string up to its closing quote; `read` are those read so far, last one first. -/
def stringBytes (read : Bytes) : Nat → Reader Bytes
  | 0 => failHere .endInString
  | fuel + 1 => do
    match ← next with
    | none => failHere .endInString
    | some b =>
      if b = 0x22 then return read.reverse
      else if b = 0x5C then stringBytes ((← escaped).reverse ++ read) fuel
      else if b < 0x20 then failHere .controlCharacter
      else stringBytes (b :: read) fuel

/-- A string behind its opening quote. Ill-formed bytes are noticed behind the closing quote; their
place is told as if all bytes up to it stood for themselves. -/
def stringBody : Reader String := fun start =>
  match stringBytes [] (start.rest.length + 1) start with
  | .error f c => .error f c
  | .ok bs c =>
    match Utf8.decode? bs with
    | some s => .ok s c
    | none =>
      .error ⟨.text .badUnicode, some (c.offset - bs.length + Utf8.validLength bs)⟩ c

/-! ### Skipping -/

/-- Steps over the digits of an exponent and its sign, its `e` being next. -/
def skipExponent : Reader Unit := do
  advance
  let sign ← peek
  if sign = some 0x2B ∨ sign = some 0x2D then advance
  match ← next with
  | some b => if isDigit b then skipWhile isDigit else failHere .badNumber
  | none => failHere .badNumber

/-- Steps over a number behind its sign. -/
def skipNumber : Reader Unit := do
  match ← next with
  | none => failHere .badNumber
  | some b =>
    if b = 0x30 then
      if ← atDigit then failNext .badNumber
    else if isDigit b then skipWhile isDigit
    else failHere .badNumber
  if (← peek) = some 0x2E then
    advance
    if (← countDigits) = 0 then failNext .badNumber
    if isExponent (← peek) then skipExponent
  else if isExponent (← peek) then skipExponent

/-- Steps over a string behind its opening quote; what its escapes stand for is not looked at. -/
def skipString : Nat → Reader Unit
  | 0 => failHere .endInString
  | fuel + 1 => do
    match ← peek with
    | none => failHere .endInString
    | some b =>
      if b = 0x22 then advance
      else if b = 0x5C then
        advance
        match ← next with
        | none => failHere .endInString
        | some e =>
          if e = 0x75 then
            let _ ← hexEscape
            skipString fuel
          else if (shortEscape? e).isSome then skipString fuel
          else failHere .badEscape
      else if b < 0x20 then failHere .controlCharacter
      else
        advance
        skipString fuel

end KubeClient.Json.Reader
