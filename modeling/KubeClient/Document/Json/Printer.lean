import KubeClient.Document.Value
import KubeClient.Number.FloatText
import KubeClient.Text.Utf8

/-!
# Compact JSON

* `Json.print` : the bytes of a value, without blanks, members in the order they have;
* `Json.escape` : quotes, backslashes and controls are escaped, every other byte stands for itself.

Doubles that are no number, or not finite, are written as `null`.
-/

namespace KubeClient.Json

/-- The bytes of characters that are all ASCII. -/
def ascii (cs : List Char) : Bytes :=
  cs.map fun c => c.toNat.toUInt8

/-- A hexadecimal digit, in lower case. -/
def hexDigit (n : Nat) : UInt8 :=
  (if n < 10 then 48 + n else 87 + n).toUInt8

/-- The bytes that stand for one byte inside quotes. -/
def escape (b : UInt8) : Bytes :=
  if b = 0x22 ∨ b = 0x5C then [0x5C, b]
  else if b = 0x08 then ascii ['\\', 'b']
  else if b = 0x09 then ascii ['\\', 't']
  else if b = 0x0A then ascii ['\\', 'n']
  else if b = 0x0C then ascii ['\\', 'f']
  else if b = 0x0D then ascii ['\\', 'r']
  else if b < 0x20 then
    ascii ['\\', 'u', '0', '0'] ++ [hexDigit (b.toNat / 16), hexDigit (b.toNat % 16)]
  else [b]

/-- A string between quotes. -/
def printString (s : String) : Bytes :=
  0x22 :: (Utf8.encode s).flatMap escape ++ [0x22]

/-- A number. -/
def printNumber : Number → Bytes
  | .int n => ascii (Numeral.ofInt n)
  | .float x =>
    if x.isNaN || x.isInf then ascii ['n', 'u', 'l', 'l'] else ascii (FloatText.general true x)

mutual

/-- The bytes of a value. -/
def print : Value → Bytes
  | .null => ascii ['n', 'u', 'l', 'l']
  | .bool true => ascii ['t', 'r', 'u', 'e']
  | .bool false => ascii ['f', 'a', 'l', 's', 'e']
  | .number n => printNumber n
  | .string s => printString s
  | .list [] => ascii ['[', ']']
  | .list (v :: vs) => 0x5B :: print v ++ printItems vs
  | .object [] => ascii ['\x7b', '\x7d']
  | .object (m :: ms) => 0x7B :: printString m.1 ++ 0x3A :: print m.2 ++ printMembers ms

/-- The items behind the first one, and the bracket that ends them. -/
def printItems : List Value → Bytes
  | [] => [0x5D]
  | v :: vs => 0x2C :: print v ++ printItems vs

/-- The members behind the first one, and the brace that ends them. -/
def printMembers : List (String × Value) → Bytes
  | [] => [0x7D]
  | m :: ms => 0x2C :: printString m.1 ++ 0x3A :: print m.2 ++ printMembers ms

end

/-- The text of a value. -/
def text (v : Value) : String :=
  Utf8.decodeLossy (print v)

end KubeClient.Json
