import KubeClient.Document.Yaml.Token

/-!
# Scalars of YAML

Block, quoted and plain scalars. Lines are folded: a single break inside a scalar stands for a
space, unless the scalar is literal; a break that is followed by empty lines stands for those.

`Folding` holds what was read behind the last character of a line: blanks, or a break and the
breaks of empty lines.
-/

namespace KubeClient.Yaml.Scan

/-- What was read behind the last character of a line. -/
structure Folding where
  blanks : List Char := []
  /-- The break that ends the line, if it was reached. -/
  lead : Option (List Char) := none
  breaks : List Char := []

namespace Folding

/-- Nothing was read behind the line. -/
def none : Folding := {}

/-- What the folded part stands for. -/
def text (f : Folding) : List Char :=
  match f.lead with
  | .none => f.blanks
  | some lead =>
    if lead = ['\n'] then (if f.breaks = [] then [' '] else f.breaks)
    else lead ++ f.breaks

end Folding

/-! ### Block scalars -/

/-- How the end of a block scalar is kept. -/
inductive Chomping
  | strip
  | clip
  | keep
  deriving DecidableEq, Repr

/-- The indicator for the end of a block scalar. -/
def chomping? : Scan (Option Chomping) := do
  match ← peek with
  | some '+' =>
    skip 1
    return some .keep
  | some '-' =>
    skip 1
    return some .strip
  | _ => return none

/-- The indicator for the indentation of a block scalar. -/
def increment? (start : Mark) : Scan (Option Nat) := do
  match ← peek with
  | some '0' => failIn .blockScalar start .zeroIndent
  | some c =>
    if c.isDigit then
      skip 1
      return some (c.toNat - 48)
    else return none
  | none => return none

/-- The indicators of a block scalar in either order. -/
def blockIndicators (start : Mark) : Scan (Chomping × Option Nat) := do
  match ← chomping? with
  | some chomping => return (chomping, ← increment? start)
  | none =>
    match ← increment? start with
    | none => return (.clip, none)
    | some n => return ((← chomping?).getD .clip, some n)

/-- Empty lines in front of a line of a block scalar. Steps over the indentation, as far as it
goes or up to column `indent`; answers the breaks, the largest column, and the end. -/
def blockBreaks (start : Mark) (indent : Option Nat) (breaks : List Char) (widest : Nat)
    (stop : Mark) : Nat → Scan (List Char × Nat × Mark)
  | 0 => return (breaks, widest, stop)
  | fuel + 1 => do
    let column := (← mark).column
    let spaces := ((← get).rest.takeWhile (· == ' ')).length
    skip (match indent with
      | none => spaces
      | some n => min spaces (n - column))
    let column := (← mark).column
    let widest := max widest column
    let c ← peek
    if (indent.all (column < ·)) && c == some '\t' then failIn .blockScalar start .tabIndent
    else if c.any isBreak then
      let b ← takeBreak
      blockBreaks start indent (breaks ++ b) widest (← mark) fuel
    else return (breaks, widest, stop)

/-- The lines of a block scalar whose indentation is known. `text` is what was read so far, `lead`
the break of the last line, `breaks` those of the empty lines behind it. -/
def blockLines (start : Mark) (isLiteral : Bool) (indent : Nat) (text lead breaks : List Char)
    (afterBlank : Bool) (stop : Mark) : Nat → Scan (List Char × List Char × List Char × Mark)
  | 0 => return (text, lead, breaks, stop)
  | fuel + 1 => do
    let c ← peek
    if (← mark).column ≠ indent ∨ c.isNone then return (text, lead, breaks, stop)
    let blank := c.any isBlank
    let folded := !isLiteral && lead == ['\n'] && !afterBlank && !blank
    let joint := if folded then (if breaks.isEmpty then [' '] else []) else lead
    let line ← takeWhile (!isBreak ·)
    let lead ← takeBreak
    let (breaks', _, stop) ← blockBreaks start (some indent) [] 0 (← mark) ((← remaining) + 1)
    blockLines start isLiteral indent (text ++ joint ++ breaks ++ line) lead breaks' blank stop fuel

/-- A block scalar, its indicator being next. -/
def blockScalar (isLiteral : Bool) : Scan Token := do
  let start ← mark
  skip 1
  let (chomping, increment) ← blockIndicators start
  skipWhile isBlank
  skipComment
  if !isBreakEnd (← peek) then failIn .blockScalar start .noCommentOrBreak
  skipBreak
  let block := (← get).indent
  let indent := increment.map fun n => if 0 ≤ block then block.toNat + n else n
  let (breaks, widest, stop) ← blockBreaks start indent [] 0 (← mark) ((← remaining) + 1)
  let indent := indent.getD (max (max widest (block + 1).toNat) 1)
  let (text, lead, breaks, stop) ←
    blockLines start isLiteral indent [] [] breaks false stop ((← remaining) + 1)
  let text := text ++ (if chomping = .strip then [] else lead) ++
    (if chomping = .keep then breaks else [])
  return ⟨.scalar text (if isLiteral then .literal else .folded), start, stop⟩

/-! ### Quoted scalars -/

/-- The character of a short escape. -/
def shortEscape? (c : Char) : Option Char :=
  match c with
  | '0' => some (Char.ofNat 0x00)
  | 'a' => some (Char.ofNat 0x07)
  | 'b' => some (Char.ofNat 0x08)
  | 't' => some '\t'
  | '\t' => some '\t'
  | 'n' => some '\n'
  | 'v' => some (Char.ofNat 0x0B)
  | 'f' => some (Char.ofNat 0x0C)
  | 'r' => some '\r'
  | 'e' => some (Char.ofNat 0x1B)
  | ' ' => some ' '
  | '"' => some '"'
  | '/' => some '/'
  | '\\' => some '\\'
  | 'N' => some (Char.ofNat 0x85)
  | '_' => some (Char.ofNat 0xA0)
  | 'L' => some (Char.ofNat 0x2028)
  | 'P' => some (Char.ofNat 0x2029)
  | _ => none

/-- The number of digits of a long escape. -/
def longEscape? : Char → Option Nat
  | 'x' => some 2
  | 'u' => some 4
  | 'U' => some 8
  | _ => none

/-- The value of a hexadecimal digit. -/
def hexValue? (c : Char) : Option Nat :=
  if c.isDigit then some (c.toNat - 48)
  else if 'a' ≤ c ∧ c ≤ 'f' then some (c.toNat - 87)
  else if 'A' ≤ c ∧ c ≤ 'F' then some (c.toNat - 55)
  else none

/-- An escape, its backslash being next. -/
def escape (start : Mark) : Scan Char := do
  let c := (← peekAt 1).getD (Char.ofNat 0)
  match shortEscape? c, longEscape? c with
  | some c, _ =>
    skip 2
    return c
  | none, some width =>
    skip 2
    need width
    let digits := ((← get).rest.take width).filterMap hexValue?
    if digits.length < width then failIn .escape start .noHexDigits
    let n := digits.foldl (fun n d => n * 16 + d) 0
    if (0xD800 ≤ n ∧ n ≤ 0xDFFF) ∨ 0x10FFFF < n then failIn .escape start .badEscapedCharacter
    skip width
    return Char.ofNat n
  | none, none => failIn .escape start .unknownEscape

/-- Characters up to the next blank or break, or the closing quote; answers whether an escaped
break was read. -/
def quotedRun (single : Bool) (start : Mark) (text : List Char) : Nat → Scan (List Char × Bool)
  | 0 => return (text, false)
  | fuel + 1 => do
    match ← peek with
    | none => return (text, false)
    | some c =>
      if isBlank c || isBreak c then return (text, false)
      else if single then
        if c = '\'' then
          if (← peekAt 1) = some '\'' then
            skip 2
            quotedRun single start ('\'' :: text) fuel
          else return (text, false)
        else
          skip 1
          quotedRun single start (c :: text) fuel
      else if c = '"' then return (text, false)
      else if c = '\\' then
        if (← peekAt 1).any isBreak then
          skip 1
          skipBreak
          return (text, true)
        else quotedRun single start ((← escape start) :: text) fuel
      else
        skip 1
        quotedRun single start (c :: text) fuel

/-- Blanks and breaks inside a scalar; blanks behind a break are dropped. A tab there must not
come before column `indent`. -/
def whitespace (start : Mark) (indent : Int) (f : Folding) : Nat → Scan Folding
  | 0 => return f
  | fuel + 1 => do
    match ← peek with
    | none => return f
    | some c =>
      if isBlank c then
        if f.lead.isSome && (← mark).column < indent && c == '\t' then
          failIn .plainScalar start .tabInPlain
        skip 1
        whitespace start indent
          (if f.lead.isSome then f else { f with blanks := f.blanks ++ [c] }) fuel
      else if isBreak c then
        let b ← takeBreak
        match f.lead with
        | none => whitespace start indent { blanks := [], lead := some b, breaks := f.breaks } fuel
        | some _ => whitespace start indent { f with breaks := f.breaks ++ b } fuel
      else return f

/-- The lines of a quoted scalar behind its quote; `text` is reversed. -/
def quotedLines (single : Bool) (start : Mark) (text : List Char) : Nat → Scan (List Char)
  | 0 => failIn .quotedScalar start .endInQuotes
  | fuel + 1 => do
    need 4
    if ← atAnyDocumentMark then failIn .quotedScalar start .documentInQuotes
    if (← peek).isNone then failIn .quotedScalar start .endInQuotes
    let (text, escapedBreak) ← quotedRun single start text ((← remaining) + 1)
    if ← at_ (if single then '\'' else '"') then return text.reverse
    let f : Folding := if escapedBreak then { lead := some [] } else {}
    let f ← whitespace start 0 f ((← remaining) + 1)
    quotedLines single start (f.text.reverse ++ text) fuel

/-- A quoted scalar, its quote being next. -/
def quotedScalar (single : Bool) : Scan Token := do
  let start ← mark
  skip 1
  let text ← quotedLines single start [] ((← remaining) + 1)
  skip 1
  return ⟨.scalar text (if single then .singleQuoted else .doubleQuoted), start, ← mark⟩

/-! ### Plain scalars -/

/-- Brackets, braces and commas end a plain scalar inside brackets or braces. -/
def isFlowIndicator (c : Char) : Bool :=
  c == ',' || c == '[' || c == ']' || c == '{' || c == '}'

/-- Characters of a plain scalar up to the next blank or break, or its end; `text` is reversed. -/
def plainRun (start : Mark) (inFlow : Bool) (text : List Char) : Nat → Scan (List Char)
  | 0 => return text
  | fuel + 1 => do
    match ← peek with
    | none => return text
    | some c =>
      if isBlank c || isBreak c then return text
      let next ← if c = ':' then peekAt 1 else pure (some c)
      if c = ':' ∧ inFlow ∧ next.any (fun d => isFlowIndicator d || d == '?') then
        failIn .plainScalar start .colonInPlain
      else if (c = ':' ∧ isBlankBreakEnd next) ∨ (inFlow ∧ isFlowIndicator c) then return text
      else
        skip 1
        plainRun start inFlow (c :: text) fuel

/-- The lines of a plain scalar; `text` is reversed, `f` is what was read behind it, and `stop` is
the end of its last character. -/
def plainLines (start : Mark) (indent : Int) (text : List Char) (f : Folding) (stop : Mark) :
    Nat → Scan (List Char × Folding × Mark)
  | 0 => return (text, f, stop)
  | fuel + 1 => do
    need 4
    if ← atAnyDocumentMark then return (text, f, stop)
    if ← at_ '#' then return (text, f, stop)
    let inFlow := (← get).inFlow
    let before ← mark
    let run ← plainRun start inFlow [] ((← remaining) + 1)
    let after ← mark
    let grown := before ≠ after
    let text := if grown then run ++ f.text.reverse ++ text else text
    let stop := if grown then after else stop
    let f : Folding := if grown then {} else f
    if !(← peek).any (fun c => isBlank c || isBreak c) then return (text, f, stop)
    let f ← whitespace start indent f ((← remaining) + 1)
    if !inFlow ∧ (← mark).column < indent then return (text, f, stop)
    plainLines start indent text f stop fuel

/-- A plain scalar; behind its last line a key may begin. -/
def plainScalar : Scan Token := do
  let start ← mark
  let (text, f, stop) ←
    plainLines start ((← get).indent + 1) [] {} start ((← remaining) + 1)
  if f.lead.isSome then modify fun s => { s with keyAllowed := true }
  return ⟨.scalar text.reverse .plain, start, stop⟩

end KubeClient.Yaml.Scan
