import KubeClient.Text.Utf8

/-!
# The text of a YAML stream

* `Yaml.Mark` : a place in the text;
* `Yaml.TextFault` : what is wrong with a text, where, and what was being read;
* `Yaml.Source` : the characters of a stream, and the fault that ends them early;
* `Yaml.Char` classes : blanks, breaks and printable characters.
-/

namespace KubeClient.Yaml

/-- A place in the text: the number of bytes in front of it, its line, and the number of characters
in front of it in this line. -/
structure Mark where
  index : Nat
  line : Nat
  column : Nat
  deriving DecidableEq, Repr, Inhabited

namespace Mark

/-- The beginning of a text. -/
def start : Mark := ⟨0, 0, 0⟩

/-- The place is at the very beginning. -/
def isStart (m : Mark) : Bool :=
  m.line == 0 && m.column == 0

/-- The number of bytes that characters take. -/
def bytes (cs : List Char) : Nat :=
  (cs.map Char.utf8Size).sum

/-- The place behind characters of the same line. -/
def behind (m : Mark) (cs : List Char) : Mark :=
  { m with index := m.index + bytes cs, column := m.column + cs.length }

/-- The place behind the characters that end the line. -/
def behindBreak (m : Mark) (cs : List Char) : Mark :=
  ⟨m.index + bytes cs, m.line + 1, 0⟩

/-- The words for a place. -/
def words (m : Mark) : String :=
  s!"line {m.line + 1} column {m.column + 1}"

end Mark

/-- What is wrong with a text. -/
inductive Problem
  /- Bytes and characters. -/
  | badLeadingOctet
  | badTrailingOctet
  | badOctetCount
  | badCharacter
  | unfinishedOctets
  | controlCharacter
  /- Tokens. -/
  | noColon
  | noToken
  | misplacedSequence
  | misplacedKey
  | misplacedValue
  | unknownDirective
  | noDirectiveName
  | badDirectiveName
  | longVersion
  | noVersion
  | noVersionPoint
  | noCommentOrBreak
  | noWhitespace
  | noWhitespaceOrBreak
  | badAnchorName
  | noTagEnd
  | noTagMark
  | noTagUri
  | noUriOctet
  | badUriLead
  | badUriTrail
  | zeroIndent
  | tabIndent
  | tabInPlain
  | documentInQuotes
  | endInQuotes
  | unknownEscape
  | noHexDigits
  | badEscapedCharacter
  | colonInPlain
  /- Events. -/
  | noDocumentStart
  | undefinedTagHandle
  | noContent
  | noEntry
  | noKey
  | noSequenceEnd
  | noMappingEnd
  | repeatedVersion
  | repeatedTag
  | wrongVersion
  deriving DecidableEq, Repr, Inhabited

/-- The words for a problem. -/
def Problem.words : Problem → String
  | .badLeadingOctet => "invalid leading UTF-8 octet"
  | .badTrailingOctet => "invalid trailing UTF-8 octet"
  | .badOctetCount => "invalid length of a UTF-8 sequence"
  | .badCharacter => "invalid Unicode character"
  | .unfinishedOctets => "incomplete UTF-8 octet sequence"
  | .controlCharacter => "control characters are not allowed"
  | .noColon => "could not find expected ':'"
  | .noToken => "found character that cannot start any token"
  | .misplacedSequence => "block sequence entries are not allowed in this context"
  | .misplacedKey => "mapping keys are not allowed in this context"
  | .misplacedValue => "mapping values are not allowed in this context"
  | .unknownDirective => "found unknown directive name"
  | .noDirectiveName => "could not find expected directive name"
  | .badDirectiveName => "found unexpected non-alphabetical character"
  | .longVersion => "found extremely long version number"
  | .noVersion => "did not find expected version number"
  | .noVersionPoint => "did not find expected digit or '.' character"
  | .noCommentOrBreak => "did not find expected comment or line break"
  | .noWhitespace => "did not find expected whitespace"
  | .noWhitespaceOrBreak => "did not find expected whitespace or line break"
  | .badAnchorName => "did not find expected alphabetic or numeric character"
  | .noTagEnd => "did not find the expected '>'"
  | .noTagMark => "did not find expected '!'"
  | .noTagUri => "did not find expected tag URI"
  | .noUriOctet => "did not find URI escaped octet"
  | .badUriLead => "found an incorrect leading UTF-8 octet"
  | .badUriTrail => "found an incorrect trailing UTF-8 octet"
  | .zeroIndent => "found an indentation indicator equal to 0"
  | .tabIndent => "found a tab character where an indentation space is expected"
  | .tabInPlain => "found a tab character that violates indentation"
  | .documentInQuotes => "found unexpected document indicator"
  | .endInQuotes => "found unexpected end of stream"
  | .unknownEscape => "found unknown escape character"
  | .noHexDigits => "did not find expected hexdecimal number"
  | .badEscapedCharacter => "found invalid Unicode character escape code"
  | .colonInPlain => "found unexpected ':'"
  | .noDocumentStart => "did not find expected <document start>"
  | .undefinedTagHandle => "found undefined tag handle"
  | .noContent => "did not find expected node content"
  | .noEntry => "did not find expected '-' indicator"
  | .noKey => "did not find expected key"
  | .noSequenceEnd => "did not find expected ',' or ']'"
  | .noMappingEnd => "did not find expected ',' or '\x7d'"
  | .repeatedVersion => "found duplicate %YAML directive"
  | .repeatedTag => "found duplicate %TAG directive"
  | .wrongVersion => "found incompatible YAML document"

/-- What was being read. -/
inductive Activity
  | simpleKey
  | nextToken
  | directive
  | versionDirective
  | tagDirectiveHandle
  | tagDirectiveName
  | tagDirective
  | tagDirectiveUri
  | tagUri
  | tag
  | anchor
  | alias
  | blockScalar
  | quotedScalar
  | escape
  | plainScalar
  | blockNode
  | flowNode
  | taggedNode
  | blockCollection
  | blockMapping
  | flowSequence
  | flowMapping
  deriving DecidableEq, Repr, Inhabited

/-- The words for what was being read. -/
def Activity.words : Activity → String
  | .simpleKey => "while scanning a simple key"
  | .nextToken => "while scanning for the next token"
  | .directive => "while scanning a directive"
  | .versionDirective => "while scanning a %YAML directive"
  | .tagDirectiveHandle => "while scanning a tag directive"
  | .tagDirectiveName => "while parsing a tag directive"
  | .tagDirective => "while scanning a %TAG directive"
  | .tagDirectiveUri => "while parsing a %TAG directive"
  | .tagUri => "while parsing a tag"
  | .tag => "while scanning a tag"
  | .anchor => "while scanning an anchor"
  | .alias => "while scanning an alias"
  | .blockScalar => "while scanning a block scalar"
  | .quotedScalar => "while scanning a quoted scalar"
  | .escape => "while parsing a quoted scalar"
  | .plainScalar => "while scanning a plain scalar"
  | .blockNode => "while parsing a block node"
  | .flowNode => "while parsing a flow node"
  | .taggedNode => "while parsing a node"
  | .blockCollection => "while parsing a block collection"
  | .blockMapping => "while parsing a block mapping"
  | .flowSequence => "while parsing a flow sequence"
  | .flowMapping => "while parsing a flow mapping"

/-- What is wrong with a text, where, and what was being read since when. -/
structure TextFault where
  problem : Problem
  mark : Mark
  context : Option (Activity × Mark) := none
  /-- The offset of a bad byte. -/
  octet : Nat := 0
  deriving DecidableEq, Repr, Inhabited

/-- The words for a fault; places at the very beginning are not told. -/
def TextFault.message (f : TextFault) : String :=
  let place :=
    if !f.mark.isStart then " at " ++ f.mark.words
    else if f.octet ≠ 0 then s!" at position {f.octet}"
    else ""
  let context := match f.context with
    | none => ""
    | some (a, m) =>
      let same := m.line == f.mark.line && m.column == f.mark.column
      ", " ++ a.words ++ if m.isStart || same then "" else " at " ++ m.words
  f.problem.words ++ place ++ context

/-! ### Characters -/

/-- A space or a tab. -/
def isBlank (c : Char) : Bool :=
  c == ' ' || c == '\t'

/-- A character that ends a line. -/
def isBreak (c : Char) : Bool :=
  c == '\n' || c == '\r' || c.toNat == 0x85 || c.toNat == 0x2028 || c.toNat == 0x2029

/-- Blank, break, or the end of the text. -/
def isBlankBreakEnd : Option Char → Bool
  | none => true
  | some c => isBlank c || isBreak c

/-- Break, or the end of the text. -/
def isBreakEnd : Option Char → Bool
  | none => true
  | some c => isBreak c

/-- Letters, digits, hyphen and underscore. -/
def isWord (c : Char) : Bool :=
  c.isAlphanum || c == '_' || c == '-'

/-- The mark that may open a text or a line. -/
def byteOrderMark : Char :=
  Char.ofNat 0xFEFF

/-- Characters that a stream may contain. -/
def isAllowed (c : Char) : Bool :=
  let n := c.toNat
  n == 0x09 || n == 0x0A || n == 0x0D || (0x20 ≤ n && n ≤ 0x7E) || n == 0x85 ||
  (0xA0 ≤ n && n ≤ 0xD7FF) || (0xE000 ≤ n && n ≤ 0xFFFD) || 0x10000 ≤ n

/-! ### Bytes -/

/-- The characters of a stream, and the fault that ends them early. -/
structure Source where
  chars : List Char
  tail : Option TextFault
  deriving Repr, Inhabited

namespace Source

/-- A fault of the byte at `offset`. -/
def octetFault (p : Problem) (offset : Nat) : TextFault :=
  { problem := p, mark := .start, octet := offset }

/-- The number of bytes of a character, by its first one. -/
def width (lead : UInt8) : Nat :=
  if lead < 0x80 then 1
  else if 0xC0 ≤ lead ∧ lead < 0xE0 then 2
  else if 0xE0 ≤ lead ∧ lead < 0xF0 then 3
  else if 0xF0 ≤ lead ∧ lead < 0xF8 then 4
  else 0

/-- The payload bits of the first byte of a character. -/
def leadBits (lead : UInt8) (width : Nat) : Nat :=
  if width = 1 then lead.toNat else lead.toNat % 2 ^ (7 - width)

/-- The first later byte that is none, by its place behind the first byte. -/
def badTrail? (bs : Bytes) : Option Nat :=
  bs.findIdx? fun b => b < 0x80 || 0xC0 ≤ b

/-- The least number that takes `width` bytes. -/
def leastOfWidth : Nat → Nat
  | 2 => 0x80
  | 3 => 0x800
  | 4 => 0x10000
  | _ => 0

/-- The character in `width` bytes at `offset`. -/
def character (offset width : Nat) (lead : UInt8) (trail : Bytes) : Except TextFault Char :=
  match badTrail? trail with
  | some k => .error (octetFault .badTrailingOctet (offset + 1 + k))
  | none =>
    let n := trail.foldl (fun n b => n * 64 + b.toNat % 64) (leadBits lead width)
    if n < leastOfWidth width then .error (octetFault .badOctetCount offset)
    else if (0xD800 ≤ n ∧ n ≤ 0xDFFF) ∨ 0x10FFFF < n then
      .error (octetFault .badCharacter offset)
    else if isAllowed (Char.ofNat n) then .ok (Char.ofNat n)
    else .error (octetFault .controlCharacter offset)

/-- Decodes bytes from `offset` on; `chars` are the characters so far, last one first. An
unfinished character at the end is noticed only when it is asked for. -/
def decode (offset : Nat) (chars : List Char) (bs : Bytes) : Except TextFault Source :=
  match bs with
  | [] => .ok ⟨chars.reverse, none⟩
  | lead :: rest =>
    let w := width lead
    if w = 0 then .error (octetFault .badLeadingOctet offset)
    else if rest.length < w - 1 then
      .ok ⟨chars.reverse, some (octetFault .unfinishedOctets offset)⟩
    else
      match character offset w lead (rest.take (w - 1)) with
      | .error f => .error f
      | .ok c => decode (offset + w) (c :: chars) (rest.drop (w - 1))
termination_by bs.length
decreasing_by
  simp only [List.length_drop, List.length_cons]
  omega

/-- The characters of a stream. -/
def ofBytes (bs : Bytes) : Except TextFault Source :=
  decode 0 [] bs

end Source
end KubeClient.Yaml
