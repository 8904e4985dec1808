import KubeClient.Number.Instance

/-!
# UTF-8

* `Utf8.encode` : the bytes of a text;
* `Utf8.decode?` : the text of well-formed bytes;
* `Utf8.decodeLossy` : every ill-formed part becomes U+FFFD; a part is a longest beginning of a
  well-formed sequence, or else one byte.
-/

namespace KubeClient

/-- Raw bytes. -/
abbrev Bytes := List UInt8

namespace Utf8

/-- The bytes of a text. -/
def encode (s : String) : Bytes :=
  s.toUTF8.data.toList

/-- The text of well-formed bytes. -/
def decode? (bs : Bytes) : Option String :=
  String.fromUTF8? ⟨bs.toArray⟩

theorem decode?_encode (s : String) : decode? (encode s) = some s := by
  rw [decode?, encode, String.fromUTF8?]
  exact dif_pos s.isValidUTF8

/-- The payload bits of a continuation byte. -/
def low (b : UInt8) : Nat :=
  b.toNat % 64

/-- The second byte of a sequence that starts with `lead`. -/
def second (lead b : UInt8) : Bool :=
  let min : UInt8 := if lead = 0xE0 then 0xA0 else if lead = 0xF0 then 0x90 else 0x80
  let max : UInt8 := if lead = 0xED then 0x9F else if lead = 0xF4 then 0x8F else 0xBF
  min ≤ b && b ≤ max

/-- A later byte of a sequence. -/
def later (b : UInt8) : Bool :=
  0x80 ≤ b && b ≤ 0xBF

/-- Stands for an ill-formed part. -/
def replacement : Char := Char.ofNat 0xFFFD

/-- The first character of `lead :: bs`, and the bytes behind it. -/
def step (lead : UInt8) (bs : Bytes) : Char × Bytes :=
  if lead < 0x80 then (Char.ofNat lead.toNat, bs)
  else if 0xC2 ≤ lead ∧ lead ≤ 0xDF then
    match bs with
    | b :: bs' =>
      if later b then (Char.ofNat (lead.toNat % 32 * 64 + low b), bs') else (replacement, bs)
    | [] => (replacement, [])
  else if 0xE0 ≤ lead ∧ lead ≤ 0xEF then
    match bs with
    | b :: bs' =>
      if second lead b then
        match bs' with
        | c :: bs'' =>
          if later c then (Char.ofNat (lead.toNat % 16 * 4096 + low b * 64 + low c), bs'')
          else (replacement, bs')
        | [] => (replacement, [])
      else (replacement, bs)
    | [] => (replacement, [])
  else if 0xF0 ≤ lead ∧ lead ≤ 0xF4 then
    match bs with
    | b :: bs' =>
      if second lead b then
        match bs' with
        | c :: bs'' =>
          if later c then
            match bs'' with
            | d :: bs''' =>
              if later d then
                (Char.ofNat (lead.toNat % 8 * 262144 + low b * 4096 + low c * 64 + low d), bs''')
              else (replacement, bs'')
            | [] => (replacement, [])
          else (replacement, bs')
        | [] => (replacement, [])
      else (replacement, bs)
    | [] => (replacement, [])
  else (replacement, bs)

theorem step_length (lead : UInt8) (bs : Bytes) : (step lead bs).2.length ≤ bs.length := by
  unfold step
  repeat' split
  all_goals simp
  all_goals omega

/-- The characters of any bytes. -/
def decodeLossyChars : Bytes → List Char
  | [] => []
  | lead :: bs => (step lead bs).1 :: decodeLossyChars (step lead bs).2
termination_by bs => bs.length
decreasing_by
  have := step_length lead bs
  simp only [List.length_cons]
  omega

/-- The number of bytes in front of the first ill-formed part. -/
def validLength : Bytes → Nat
  | [] => 0
  | lead :: bs =>
    let (c, rest) := step lead bs
    let n := bs.length + 1 - rest.length
    if encode (String.singleton c) = (lead :: bs).take n then n + validLength (step lead bs).2
    else 0
termination_by bs => bs.length
decreasing_by
  have := step_length lead bs
  simp only [List.length_cons]
  omega

/-- The text of any bytes. -/
def decodeLossy (bs : Bytes) : String :=
  String.ofList (decodeLossyChars bs)

end Utf8
end KubeClient
