import KubeClient.Text.Utf8

/-!
# Percent encoding

Every byte of a text is written in ASCII: letters, digits and `-_.~` as they are, any other byte
as `%` and two hexadecimal digits.

* `Percent.encode` : the written form of a text;
* `Percent.decode` : the bytes of a written form.
-/

namespace KubeClient.Percent

/-- The bytes that are written as they are. -/
def isPlain (b : UInt8) : Bool :=
  (0x30 ≤ b && b ≤ 0x39) || (0x41 ≤ b && b ≤ 0x5A) || (0x61 ≤ b && b ≤ 0x7A) ||
  b == 0x2D || b == 0x5F || b == 0x2E || b == 0x7E

/-- An upper-case hexadecimal digit. -/
def hexDigit (n : Nat) : Char :=
  (Nat.digitChar n).toUpper

/-- The value of a hexadecimal digit. -/
def hexValue? (c : Char) : Option Nat :=
  if '0' ≤ c ∧ c ≤ '9' then some (c.toNat - 48)
  else if 'A' ≤ c ∧ c ≤ 'F' then some (c.toNat - 55)
  else if 'a' ≤ c ∧ c ≤ 'f' then some (c.toNat - 87)
  else none

/-- The written form of one byte. -/
def encodeByte (b : UInt8) : List Char :=
  if isPlain b then [Char.ofNat b.toNat]
  else ['%', hexDigit (b.toNat / 16), hexDigit (b.toNat % 16)]

/-- The written form of bytes. -/
def encodeBytes (bs : Bytes) : List Char :=
  bs.flatMap encodeByte

/-- The written form of a text. -/
def encode (s : String) : String :=
  String.ofList (encodeBytes (Utf8.encode s))

/-- The bytes of a written form; a percent sign without two digits stands for itself. -/
def decode : List Char → Bytes
  | [] => []
  | '%' :: a :: b :: cs =>
    match hexValue? a, hexValue? b with
    | some m, some n => UInt8.ofNat (m * 16 + n) :: decode cs
    | _, _ => 0x25 :: decode (a :: b :: cs)
  | c :: cs => Utf8.encode (String.singleton c) ++ decode cs

end KubeClient.Percent
