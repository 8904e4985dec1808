import KubeClient.Document.Yaml.Token.Mark

/-!
# The stream of YAML tokens

Tokens are made one by one. A colon may show that a key began earlier; then the token of the key,
and if need be that of its block, is put in front of the tokens that were made since. So a token
is given out only when no possible key begins at it.

* `Scan.fetch` : makes the next tokens;
* `Scan.token` : the next token, which stays;
* `Scan.take` : steps over it.
-/

namespace KubeClient.Yaml.Scan

/-! ### Tokens that wait -/

/-- Adds a token behind those that wait. -/
def push (t : Token) : Scan Unit :=
  modify fun s => { s with waiting := s.waiting ++ [t] }

/-- Adds a token of no length at `m`. -/
def pushAt (kind : TokenKind) (m : Mark) : Scan Unit :=
  push ⟨kind, m, m⟩

/-- Adds a token in front of the one with the given number. -/
def insert (number : Nat) (t : Token) : Scan Unit :=
  modify fun s =>
    let n := number - s.taken
    { s with waiting := s.waiting.take n ++ t :: s.waiting.drop n }

/-- Steps over the next `n` characters, which are a token. -/
def indicator (kind : TokenKind) (n : Nat) : Scan Unit := do
  let start ← mark
  skip n
  push ⟨kind, start, ← mark⟩

/-! ### Possible keys -/

/-- A possible key ends with its line, and with its 1024th character. -/
def isStale (now : Mark) (k : SimpleKey) : Bool :=
  k.mark.line < now.line || k.mark.index + 1024 < now.index

/-- Gives up a possible key that has ended. -/
def checkKey (now : Mark) (k : Option SimpleKey) : Scan (Option SimpleKey) := do
  match k with
  | none => return none
  | some k =>
    if isStale now k then
      if k.required then failIn .simpleKey k.mark .noColon
      return none
    else return some k

/-- Gives up all possible keys that have ended, those of the outer levels first. -/
def dropStaleKeys : Scan Unit := do
  let s ← get
  let outer ← s.outerKeys.reverse.mapM (checkKey s.mark)
  let inner ← checkKey s.mark s.key
  modify fun s => { s with outerKeys := outer.reverse, key := inner }

/-- Gives up the possible key of this level. -/
def dropKey : Scan Unit := do
  match (← get).key with
  | some k => if k.required then failIn .simpleKey k.mark .noColon
  | none => pure ()
  modify fun s => { s with key := none }

/-- A key may begin here. -/
def saveKey : Scan Unit := do
  let s ← get
  if s.keyAllowed then
    dropKey
    modify fun s => { s with key := some {
      required := !s.inFlow && s.indent == s.mark.column
      number := s.taken + s.waiting.length
      mark := s.mark } }

/-- Whether a key may begin behind the next token. -/
def allowKey (allowed : Bool) : Scan Unit :=
  modify fun s => { s with keyAllowed := allowed }

/-! ### Blocks -/

/-- Opens a block at `column`, unless one is open there; its token comes before the token
`number`, or last. -/
def openBlock (column : Nat) (number : Option Nat) (kind : TokenKind) (m : Mark) :
    Scan Unit := do
  let s ← get
  if !s.inFlow ∧ s.indent < column then
    set { s with outer := s.indent :: s.outer, indent := (column : Int) }
    match number with
    | none => pushAt kind m
    | some n => insert n ⟨kind, m, m⟩

/-- Closes blocks that are open to the right of `column`. -/
def closeBlocks (column : Int) : Scan Unit := do
  let s ← get
  if !s.inFlow then
    let columns := s.indent :: s.outer
    let closed := columns.takeWhile (column < ·)
    let left := columns.drop closed.length
    let ends : List Token := closed.map fun _ => ⟨.blockEnd, s.mark, s.mark⟩
    set { s with
      waiting := s.waiting ++ ends
      indent := left.headD (-1)
      outer := left.tail }

/-! ### Single tokens -/

/-- The beginning of the stream. -/
def fetchStreamStart : Scan Unit := do
  modify fun s => { s with started := true }
  pushAt .streamStart (← mark)

/-- The end of the stream, which is the beginning of a line. -/
def fetchStreamEnd : Scan Unit := do
  modify fun s =>
    if s.mark.column = 0 then s
    else { s with mark := { s.mark with line := s.mark.line + 1, column := 0 } }
  closeBlocks (-1)
  dropKey
  allowKey false
  modify fun s => { s with ended := true }
  pushAt .streamEnd (← mark)

/-- A directive. -/
def fetchDirective : Scan Unit := do
  closeBlocks (-1)
  dropKey
  allowKey false
  push (← directive)

/-- A document mark. -/
def fetchDocumentMark (kind : TokenKind) : Scan Unit := do
  closeBlocks (-1)
  dropKey
  allowKey false
  indicator kind 3

/-- An opening bracket or brace. -/
def fetchFlowStart (kind : TokenKind) : Scan Unit := do
  saveKey
  modify fun s => { s with outerKeys := s.key :: s.outerKeys, key := none }
  allowKey true
  indicator kind 1

/-- A closing bracket or brace. -/
def fetchFlowEnd (kind : TokenKind) : Scan Unit := do
  dropKey
  modify fun s =>
    match s.outerKeys with
    | k :: ks => { s with key := k, outerKeys := ks }
    | [] => s
  allowKey false
  indicator kind 1

/-- A comma. -/
def fetchFlowEntry : Scan Unit := do
  dropKey
  allowKey true
  indicator .flowEntry 1

/-- A hyphen in front of an item. -/
def fetchBlockEntry : Scan Unit := do
  let s ← get
  if !s.inFlow then
    if !s.keyAllowed then fail .misplacedSequence none
    openBlock s.mark.column none .blockSequenceStart s.mark
  dropKey
  allowKey true
  indicator .blockEntry 1

/-- A question mark in front of a key. -/
def fetchKey : Scan Unit := do
  let s ← get
  if !s.inFlow then
    if !s.keyAllowed then fail .misplacedKey none
    openBlock s.mark.column none .blockMappingStart s.mark
  dropKey
  allowKey (!s.inFlow)
  indicator .key 1

/-- A colon in front of a value. -/
def fetchValue : Scan Unit := do
  let s ← get
  match s.key with
  | some k =>
    insert k.number ⟨.key, k.mark, k.mark⟩
    openBlock k.mark.column (some k.number) .blockMappingStart k.mark
    modify fun s => { s with key := none }
    allowKey false
  | none =>
    if !s.inFlow then
      if !s.keyAllowed then fail .misplacedValue none
      openBlock s.mark.column none .blockMappingStart s.mark
    allowKey (!s.inFlow)
  indicator .value 1

/-- A token at which a key may begin. -/
def fetchContent (read : Scan Token) : Scan Unit := do
  saveKey
  allowKey false
  push (← read)

/-- A block scalar. -/
def fetchBlockScalar (isLiteral : Bool) : Scan Unit := do
  dropKey
  allowKey true
  push (← blockScalar isLiteral)

/-! ### The next token -/

/-- Steps over blanks, comments and breaks in front of a token. A tab counts as a blank where no
key may begin. -/
def skipToToken : Nat → Scan Unit
  | 0 => return ()
  | fuel + 1 => do
    if (← mark).column = 0 ∧ (← at_ byteOrderMark) then skip 1
    let s ← get
    let tabs := s.inFlow || !s.keyAllowed
    skipWhile fun c => c == ' ' || (tabs && c == '\t')
    skipComment
    if (← peek).any isBreak then
      skipBreak
      if !(← get).inFlow then allowKey true
      skipToToken fuel

/-- A plain scalar may begin with `c`, with `next` behind it. -/
def startsPlain (inFlow : Bool) (c : Char) (next : Option Char) : Bool :=
  let indicators := ['-', '?', ':', ',', '[', ']', '{', '}', '#', '&', '*', '!', '|', '>', '\'',
    '"', '%', '@', '\x60']
  !(isBlank c || isBreak c || c ∈ indicators) ||
  (c == '-' && !next.any isBlank) ||
  (!inFlow && (c == '?' || c == ':') && !isBlankBreakEnd next)

/-- The token that begins with `c`. -/
def fetchAt (c : Char) : Scan Unit := do
  let s ← get
  let next ← peekAt 1
  let separated := s.inFlow || isBlankBreakEnd next
  if s.mark.column = 0 ∧ c = '%' then fetchDirective
  else if ← atDocumentMark '-' then fetchDocumentMark .documentStart
  else if ← atDocumentMark '.' then fetchDocumentMark .documentEnd
  else if c = '[' then fetchFlowStart .flowSequenceStart
  else if c = '{' then fetchFlowStart .flowMappingStart
  else if c = ']' then fetchFlowEnd .flowSequenceEnd
  else if c = '}' then fetchFlowEnd .flowMappingEnd
  else if c = ',' then fetchFlowEntry
  else if c = '-' ∧ isBlankBreakEnd next then fetchBlockEntry
  else if c = '?' ∧ separated then fetchKey
  else if c = ':' ∧ separated then fetchValue
  else if c = '*' then fetchContent (anchor .alias .alias)
  else if c = '&' then fetchContent (anchor .anchor .anchor)
  else if c = '!' then fetchContent tag
  else if c = '|' ∧ !s.inFlow then fetchBlockScalar true
  else if c = '>' ∧ !s.inFlow then fetchBlockScalar false
  else if c = '\'' then fetchContent (quotedScalar true)
  else if c = '"' then fetchContent (quotedScalar false)
  else if startsPlain s.inFlow c next then fetchContent plainScalar
  else failIn .nextToken s.mark .noToken

/-- Makes the next tokens. -/
def fetchNext : Scan Unit := do
  if !(← get).started then
    need 1
    fetchStreamStart
  else
    skipToToken ((← remaining) + 1)
    dropStaleKeys
    closeBlocks (← mark).column
    need 4
    match ← peek with
    | none => fetchStreamEnd
    | some c => fetchAt c

/-- A possible key begins at the token that is next. -/
def keyBeginsNext (s : Scanner) : Bool :=
  (s.key :: s.outerKeys).any fun k => k.any fun k => k.number == s.taken

/-- Makes tokens until the next one is certain. -/
def fetch : Nat → Scan Unit
  | 0 => return ()
  | fuel + 1 => do
    if (← get).waiting.isEmpty then
      fetchNext
      fetch fuel
    else
      dropStaleKeys
      if keyBeginsNext (← get) then
        fetchNext
        fetch fuel

/-- The next token, which stays. -/
def token : Scan Token := do
  let s ← get
  if s.ended && s.waiting.isEmpty then return ⟨.streamEnd, s.mark, s.mark⟩
  fetch (s.rest.length + 4)
  let s ← get
  return s.waiting.headD ⟨.streamEnd, s.mark, s.mark⟩

/-- Steps over the next token. -/
def take : Scan Unit :=
  modify fun s => { s with waiting := s.waiting.tail, taken := s.taken + 1 }

end KubeClient.Yaml.Scan
