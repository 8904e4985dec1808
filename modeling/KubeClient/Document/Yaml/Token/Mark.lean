import KubeClient.Document.Yaml.Token.Scalar

/-!
# Directives, anchors, aliases and tags of YAML
-/

namespace KubeClient.Yaml.Scan

/-! ### Anchors and aliases -/

/-- What may follow the name of an anchor. -/
def endsAnchor : Option Char → Bool
  | none => true
  | some c => isBlank c || isBreak c || c ∈ ['?', ':', ',', ']', '}', '%', '@', '\x60']

/-- An anchor or an alias, its indicator being next. -/
def anchor (activity : Activity) (kind : List Char → TokenKind) : Scan Token := do
  let start ← mark
  skip 1
  let name ← takeWhile isWord
  let stop ← mark
  if name.isEmpty || !endsAnchor (← peek) then failIn activity start .badAnchorName
  return ⟨kind name, start, stop⟩

/-! ### Tags -/

/-- Where a tag stands. -/
inductive TagPlace
  | directive
  | node
  deriving DecidableEq, Repr

/-- What is being read while the URI of a tag is. -/
def TagPlace.activity : TagPlace → Activity
  | .directive => .tagDirectiveUri
  | .node => .tagUri

/-- The handle of a tag: exclamation marks, with a name between two of them. -/
def tagHandle (place : TagPlace) (start : Mark) : Scan (List Char) := do
  if !(← at_ '!') then
    failIn (if place = .directive then .tagDirectiveHandle else .tag) start .noTagMark
  skip 1
  let name ← takeWhile isWord
  if ← at_ '!' then
    skip 1
    return '!' :: name ++ ['!']
  else if place = .directive ∧ name ≠ [] then failIn .tagDirectiveName start .noTagMark
  else return '!' :: name

/-- Characters of a URI; `verbatim` ones may also be commas and brackets. -/
def isUriChar (verbatim : Bool) (c : Char) : Bool :=
  isWord c ||
  c ∈ [';', '/', '?', ':', '@', '&', '=', '+', '$', '.', '%', '!', '~', '*', '\'', '(', ')'] ||
  (verbatim && c ∈ [',', '[', ']'])

/-- The octets of one escaped character; `more` of them are still expected. -/
def uriOctets (place : TagPlace) (start : Mark) (octets : List Char) (more : Option Nat) :
    Nat → Scan (List Char)
  | 0 => return octets
  | fuel + 1 => do
    need 3
    let digits := ((← get).rest.drop 1).take 2 |>.filterMap hexValue?
    let fail (p : Problem) : Scan (List Char) := failIn place.activity start p
    match ← peek, digits with
    | some '%', [a, b] =>
      let octet := a * 16 + b
      let left := more.getD (Source.width octet.toUInt8)
      if more.isNone ∧ left = 0 then fail .badUriLead
      else if more.isSome ∧ (octet < 0x80 ∨ 0xC0 ≤ octet) then fail .badUriTrail
      else
        skip 3
        let octets := octets ++ [Char.ofNat octet]
        if left ≤ 1 then return octets else uriOctets place start octets (some (left - 1)) fuel
    | _, _ => fail .noUriOctet

/-- The characters of a URI behind `text`. -/
def uriChars (place : TagPlace) (verbatim : Bool) (start : Mark) (text : List Char) :
    Nat → Scan (List Char)
  | 0 => return text
  | fuel + 1 => do
    match ← peek with
    | some '%' =>
      let octets ← uriOctets place start [] none 5
      uriChars place verbatim start (text ++ octets) fuel
    | some c =>
      if isUriChar verbatim c then
        skip 1
        uriChars place verbatim start (text ++ [c]) fuel
      else return text
    | none => return text

/-- A null character ends the URI of a tag early. -/
def upToNull (text : List Char) : List Char :=
  text.takeWhile (·.toNat ≠ 0)

/-- The URI of a tag; `head` was read as if it were a handle. -/
def tagUri (place : TagPlace) (verbatim : Bool) (head : List Char) (start : Mark) :
    Scan (List Char) := do
  let before := (← mark).index
  let text ← uriChars place verbatim start (head.drop 1) ((← remaining) + 1)
  if head.isEmpty ∧ (← mark).index = before then failIn place.activity start .noTagUri
  return upToNull text

/-- Handle and suffix of a tag. -/
def tagParts (start : Mark) : Scan (List Char × List Char) := do
  if (← peekAt 1) = some '<' then
    skip 2
    let suffix ← tagUri .node true [] start
    if !(← at_ '>') then failIn .tag start .noTagEnd
    skip 1
    return ([], suffix)
  else
    let handle ← tagHandle .node start
    if handle.length ≥ 2 ∧ handle.getLast? = some '!' then
      return (handle, ← tagUri .node false [] start)
    else
      let suffix ← tagUri .node false handle start
      return if suffix = [] then ([], ['!']) else (['!'], suffix)

/-- A tag, its exclamation mark being next. -/
def tag : Scan Token := do
  let start ← mark
  let (handle, suffix) ← tagParts start
  let c ← peek
  if !((← get).inFlow && c == some ',') && !isBlankBreakEnd c then
    failIn .tag start .noWhitespaceOrBreak
  return ⟨.tag handle suffix, start, ← mark⟩

/-! ### Directives -/

/-- A number of a version. -/
def versionNumber (start : Mark) : Scan Nat := do
  let digits := ((← get).rest.takeWhile Char.isDigit)
  if 9 < digits.length then
    skip 9
    failIn .versionDirective start .longVersion
  skip digits.length
  if digits = [] then failIn .versionDirective start .noVersion
  return Nat.ofDigitChars 10 digits 0

/-- What follows the name of a version directive. -/
def versionDirective (start : Mark) : Scan TokenKind := do
  skipWhile isBlank
  let major ← versionNumber start
  if !(← at_ '.') then failIn .versionDirective start .noVersionPoint
  skip 1
  return .version major (← versionNumber start)

/-- What follows the name of a tag directive. -/
def tagDirective (start : Mark) : Scan TokenKind := do
  skipWhile isBlank
  let handle ← tagHandle .directive start
  if !(← peek).any isBlank then failIn .tagDirective start .noWhitespace
  skipWhile isBlank
  let uri ← tagUri .directive true [] start
  if !isBlankBreakEnd (← peek) then failIn .tagDirective start .noWhitespaceOrBreak
  return .tagDirective handle uri

/-- A directive, its percent sign being next. -/
def directive : Scan Token := do
  let start ← mark
  skip 1
  let name ← takeWhile isWord
  if name = [] then failIn .directive start .noDirectiveName
  if !isBlankBreakEnd (← peek) then failIn .directive start .badDirectiveName
  let kind ←
    if name = ['Y', 'A', 'M', 'L'] then versionDirective start
    else if name = ['T', 'A', 'G'] then tagDirective start
    else failIn .directive start .unknownDirective
  let stop ← mark
  skipWhile isBlank
  skipComment
  if !isBreakEnd (← peek) then failIn .directive start .noCommentOrBreak
  skipBreak
  return ⟨kind, start, stop⟩

end KubeClient.Yaml.Scan
