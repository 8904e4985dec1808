/-!
# Blank space around a text

Two sets of blanks: the ASCII ones, for bytes, and the Unicode ones, for characters.
-/

namespace KubeClient.Blank

/-- Space, tab, line feed, form feed and carriage return. -/
def isAscii (b : UInt8) : Bool :=
  b == 0x20 || b == 0x09 || b == 0x0A || b == 0x0C || b == 0x0D

/-- The characters with the property `White_Space`. -/
def isUnicode (c : Char) : Bool :=
  let n := c.toNat
  (0x09 ≤ n && n ≤ 0x0D) || n == 0x20 || n == 0x85 || n == 0xA0 || n == 0x1680 ||
  (0x2000 ≤ n && n ≤ 0x200A) || n == 0x2028 || n == 0x2029 || n == 0x202F || n == 0x205F ||
  n == 0x3000

/-- Drops what satisfies `p` at both ends. -/
def trimBoth {α : Type} (p : α → Bool) (xs : List α) : List α :=
  ((xs.dropWhile p).reverse.dropWhile p).reverse

/-- Bytes without ASCII blanks at the ends. -/
def trimBytes : List UInt8 → List UInt8 :=
  trimBoth isAscii

/-- Characters without Unicode blanks at the ends. -/
def trimChars : List Char → List Char :=
  trimBoth isUnicode

/-- A text without Unicode blanks at the ends. -/
def trim (s : String) : String :=
  String.ofList (trimChars s.toList)

end KubeClient.Blank
