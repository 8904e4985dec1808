import KubeClient.Document.Yaml.Token.Stream

/-!
# Events of YAML

A document as a sequence of events: scalars, aliases, and the beginnings and ends of sequences and
mappings.

* `Yaml.Event` : an event and the place where it begins;
* `Yaml.Outline` : what is expected next, and what is expected behind it;
* `Yaml.Outline.next` : the next event.
-/

namespace KubeClient.Yaml

/-- What may be said about a node in front of it. -/
structure Properties where
  anchor : Option (List Char) := none
  tag : Option (List Char) := none
  deriving DecidableEq, Repr, Inhabited

/-- What an event is. -/
inductive EventKind
  | documentStart
  | documentEnd
  | streamEnd
  | alias (name : List Char)
  | scalar (properties : Properties) (text : List Char) (style : ScalarStyle)
  | sequenceStart (properties : Properties)
  | sequenceEnd
  | mappingStart (properties : Properties)
  | mappingEnd
  deriving DecidableEq, Repr, Inhabited

/-- An event and the place where it begins. -/
structure Event where
  kind : EventKind
  mark : Mark
  deriving DecidableEq, Repr, Inhabited

/-- What is expected. -/
inductive Goal
  | streamStart
  | document (bare : Bool)
  | content
  | documentEnd
  | bareContent
  | blockItem (first : Bool)
  | indentlessItem
  | blockKey (first : Bool)
  | blockValue
  | flowItem (first : Bool)
  | pairKey
  | pairValue
  | pairEnd
  | flowKey (first : Bool)
  | flowValue (isEmpty : Bool)
  | finished
  deriving DecidableEq, Repr, Inhabited

/-- A short form of tags: a handle, and what it stands for. -/
abbrev TagForm := List Char × List Char

/-- What is expected next and behind it, and the places where open collections began. -/
structure Outline where
  scanner : Scanner
  goal : Goal
  later : List Goal
  begins : List Mark
  tags : List TagForm
  deriving Repr, Inhabited

/-- Actions on an outline. -/
abbrev Parse := EStateM TextFault Outline

namespace Outline

variable {α : Type}

/-- Before the first event. -/
def ofSource (s : Source) : Outline :=
  { scanner := .ofSource s, goal := .streamStart, later := [], begins := [], tags := [] }

/-- Runs an action on the scanner. -/
def scan (a : Scan α) : Parse α := fun s =>
  match a s.scanner with
  | .ok a scanner => .ok a { s with scanner }
  | .error f scanner => .error f { s with scanner }

/-- The next token, which stays. -/
def token : Parse Token :=
  scan Scan.token

/-- Steps over the next token, and answers the one behind it. -/
def advance : Parse Token := do
  scan Scan.take
  token

/-- Steps over the next token. -/
def take : Parse Unit :=
  scan Scan.take

/-- Sets what is expected next. -/
def expect (g : Goal) : Parse Unit :=
  modify fun s => { s with goal := g }

/-- Sets what is expected behind the next node. -/
def expectLater (g : Goal) : Parse Unit :=
  modify fun s => { s with later := g :: s.later }

/-- Goes on with what was expected behind. -/
def resume : Parse Unit :=
  modify fun s => { s with goal := s.later.headD .finished, later := s.later.tail }

/-- Fails at `m`. -/
def failAt (m : Mark) (p : Problem) : Parse α :=
  throw { problem := p, mark := m }

/-- Fails at `m`, in a collection that began at the last open place. -/
def failInCollection (activity : Activity) (m : Mark) (p : Problem) : Parse α := do
  throw { problem := p, mark := m, context := some (activity, (← get).begins.headD .start) }

/-- A collection begins with the next token; steps over it. -/
def begin_ : Parse Unit := do
  let t ← token
  modify fun s => { s with begins := t.start :: s.begins }
  take

/-- The innermost collection ends with the token `t`. -/
def end_ (kind : EventKind) (t : Token) : Parse Event := do
  resume
  modify fun s => { s with begins := s.begins.tail }
  take
  return ⟨kind, t.start⟩

/-- A scalar without text at `m`. -/
def empty (m : Mark) : Event :=
  ⟨.scalar {} [] .plain, m⟩

/-! ### Documents -/

/-- The short forms of tags that are always known. -/
def builtinTags : List TagForm :=
  [(['!'], ['!']), (['!', '!'], "tag:yaml.org,2002:".toList)]

/-- Reads directives; `versioned` tells that the version was told. -/
def directives (versioned : Bool) : Nat → Parse Unit
  | 0 => return ()
  | fuel + 1 => do
    let t ← token
    match t.kind with
    | .version major minor =>
      if versioned then failAt t.start .repeatedVersion
      if major ≠ 1 ∨ (minor ≠ 1 ∧ minor ≠ 2) then failAt t.start .wrongVersion
      take
      directives true fuel
    | .tagDirective handle start =>
      if (← get).tags.any fun f => f.1 == handle then failAt t.start .repeatedTag
      modify fun s => { s with tags := s.tags ++ [(handle, start)] }
      take
      directives versioned fuel
    | _ =>
      modify fun s =>
        { s with tags := s.tags ++ builtinTags.filter fun f => s.tags.all fun g => f.1 != g.1 }

/-- Steps over document ends. -/
def skipDocumentEnds : Nat → Parse Unit
  | 0 => return ()
  | fuel + 1 => do
    if (← token).kind = .documentEnd then
      take
      skipDocumentEnds fuel

/-- A directive or a mark stands in front of the document, or there is none. -/
def isMarked : TokenKind → Bool
  | .version .. | .tagDirective .. | .documentStart | .streamEnd => true
  | _ => false

/-- The beginning of a document, or the end of the stream; a bare document needs no mark. -/
def document (bare : Bool) : Parse Event := do
  let fuel := (← get).scanner.rest.length + 4
  if !bare then skipDocumentEnds fuel
  let t ← token
  if bare && !isMarked t.kind then
    directives false fuel
    expectLater .documentEnd
    expect .bareContent
    return ⟨.documentStart, t.start⟩
  else if t.kind = .streamEnd then
    expect .finished
    take
    return ⟨.streamEnd, t.start⟩
  else
    directives false fuel
    let u ← token
    if u.kind ≠ .documentStart then failAt u.start .noDocumentStart
    expectLater .documentEnd
    expect .content
    take
    return ⟨.documentStart, t.start⟩

/-- The end of a document. -/
def documentEnd : Parse Event := do
  let t ← token
  if t.kind = .documentEnd then take
  modify fun s => { s with tags := [] }
  expect (.document false)
  return ⟨.documentEnd, t.start⟩

/-! ### Nodes -/

/-- The full form of a tag. -/
def fullTag (start place : Mark) (handle suffix : List Char) : Parse (List Char) := do
  if handle = [] then return suffix
  match (← get).tags.find? fun f => f.1 == handle with
  | some f => return f.2 ++ suffix
  | none => throw { problem := .undefinedTagHandle, mark := place,
                    context := some (.taggedNode, start) }

/-- Anchor and tag in either order, and the token behind them. -/
def properties (t : Token) : Parse (Properties × Token) := do
  match t.kind with
  | .anchor name =>
    let u ← advance
    match u.kind with
    | .tag handle suffix =>
      let v ← advance
      return ({ anchor := some name, tag := some (← fullTag t.start u.start handle suffix) }, v)
    | _ => return ({ anchor := some name }, u)
  | .tag handle suffix =>
    let u ← advance
    match u.kind with
    | .anchor name =>
      let v ← advance
      return ({ anchor := some name, tag := some (← fullTag t.start t.start handle suffix) }, v)
    | _ => return ({ tag := some (← fullTag t.start t.start handle suffix) }, u)
  | _ => return ({}, t)

/-- A node. Blocks are allowed outside of brackets and braces; `indentless` ones begin at the
column of the mapping around them. -/
def node (block indentless : Bool) : Parse Event := do
  let t ← token
  match t.kind with
  | .alias name =>
    resume
    take
    return ⟨.alias name, t.start⟩
  | _ =>
    let (p, u) ← properties t
    let m := t.start
    if indentless && u.kind == .blockEntry then
      expect .indentlessItem
      return ⟨.sequenceStart p, m⟩
    match u.kind, block with
    | .scalar text style, _ =>
      resume
      take
      return ⟨.scalar p text style, m⟩
    | .flowSequenceStart, _ =>
      expect (.flowItem true)
      return ⟨.sequenceStart p, m⟩
    | .flowMappingStart, _ =>
      expect (.flowKey true)
      return ⟨.mappingStart p, m⟩
    | .blockSequenceStart, true =>
      expect (.blockItem true)
      return ⟨.sequenceStart p, m⟩
    | .blockMappingStart, true =>
      expect (.blockKey true)
      return ⟨.mappingStart p, m⟩
    | _, _ =>
      if p.anchor.isSome || p.tag.isSome then
        resume
        return ⟨.scalar p [] .plain, m⟩
      else
        throw { problem := .noContent, mark := u.start,
                context := some (if block then .blockNode else .flowNode, m) }

/-! ### Blocks -/

/-- An item of a sequence behind its hyphen, or no text. -/
def itemOr (ends : TokenKind → Bool) (g : Goal) (t : Token) : Parse Event := do
  let u ← advance
  if ends u.kind then
    expect g
    return empty t.stop
  else
    expectLater g
    node true false

/-- An item of a block sequence, or its end. -/
def blockItem (first : Bool) : Parse Event := do
  if first then begin_
  let t ← token
  match t.kind with
  | .blockEntry => itemOr (fun k => k == .blockEntry || k == .blockEnd) (.blockItem false) t
  | .blockEnd => end_ .sequenceEnd t
  | _ => failInCollection .blockCollection t.start .noEntry

/-- What ends a node in a block mapping. -/
def endsBlockNode (k : TokenKind) : Bool :=
  k == .key || k == .value || k == .blockEnd

/-- An item of a block sequence at the column of the mapping around it, or its end. -/
def indentlessItem : Parse Event := do
  let t ← token
  match t.kind with
  | .blockEntry => itemOr (fun k => k == .blockEntry || endsBlockNode k) .indentlessItem t
  | _ =>
    resume
    return ⟨.sequenceEnd, t.start⟩

/-- A key of a block mapping, or its end. -/
def blockKey (first : Bool) : Parse Event := do
  if first then begin_
  let t ← token
  match t.kind with
  | .key =>
    let u ← advance
    if endsBlockNode u.kind then
      expect .blockValue
      return empty t.stop
    else
      expectLater .blockValue
      node true true
  | .blockEnd => end_ .mappingEnd t
  | _ => failInCollection .blockMapping t.start .noKey

/-- A value of a block mapping. -/
def blockValue : Parse Event := do
  let t ← token
  match t.kind with
  | .value =>
    let u ← advance
    if endsBlockNode u.kind then
      expect (.blockKey false)
      return empty t.stop
    else
      expectLater (.blockKey false)
      node true true
  | _ =>
    expect (.blockKey false)
    return empty t.start

/-! ### Brackets and braces -/

/-- A node inside brackets or braces, or no text before what ends it. -/
def flowNodeOr (close : TokenKind) (ends : List TokenKind) (g : Goal) (t : Token) :
    Parse Event := do
  if t.kind = close ∨ t.kind = .flowEntry ∨ t.kind ∈ ends then
    expect g
    return empty t.start
  else
    expectLater g
    node false false

/-- The comma in front of an item, unless it is the first one. -/
def comma (first : Bool) (activity : Activity) (p : Problem) (t : Token) : Parse Token := do
  if first then return t
  else if t.kind = .flowEntry then advance
  else failInCollection activity t.start p

/-- An item between brackets, or their end. -/
def flowItem (first : Bool) : Parse Event := do
  if first then begin_
  let t ← token
  if t.kind = .flowSequenceEnd then end_ .sequenceEnd t
  else
    let t ← comma first .flowSequence .noSequenceEnd t
    match t.kind with
    | .key =>
      expect .pairKey
      take
      return ⟨.mappingStart {}, t.start⟩
    | .flowSequenceEnd => end_ .sequenceEnd t
    | _ =>
      expectLater (.flowItem false)
      node false false

/-- The key of a single pair between brackets. -/
def pairKey : Parse Event := do
  let t ← token
  if t.kind = .value ∨ t.kind = .flowEntry ∨ t.kind = .flowSequenceEnd then
    take
    expect .pairValue
    return empty t.stop
  else
    expectLater .pairValue
    node false false

/-- The value of a single pair between brackets. -/
def pairValue : Parse Event := do
  let t ← token
  if t.kind = .value then flowNodeOr .flowSequenceEnd [] .pairEnd (← advance)
  else
    expect .pairEnd
    return empty t.start

/-- The end of a single pair between brackets. -/
def pairEnd : Parse Event := do
  let t ← token
  expect (.flowItem false)
  return ⟨.mappingEnd, t.start⟩

/-- A key between braces, or their end. -/
def flowKey (first : Bool) : Parse Event := do
  if first then begin_
  let t ← token
  if t.kind = .flowMappingEnd then end_ .mappingEnd t
  else
    let t ← comma first .flowMapping .noMappingEnd t
    match t.kind with
    | .key => flowNodeOr .flowMappingEnd [.value] (.flowValue false) (← advance)
    | .flowMappingEnd => end_ .mappingEnd t
    | _ =>
      expectLater (.flowValue true)
      node false false

/-- A value between braces. -/
def flowValue (isEmpty : Bool) : Parse Event := do
  let t ← token
  if t.kind = .value ∧ !isEmpty then
    flowNodeOr .flowMappingEnd [] (.flowKey false) (← advance)
  else
    expect (.flowKey false)
    return empty t.start

/-- The next event. -/
def next : Parse Event := do
  match (← get).goal with
  | .streamStart =>
    let _ ← token
    take
    document true
  | .document bare => document bare
  | .content =>
    let t ← token
    if isMarked t.kind || t.kind == .documentEnd then
      resume
      return empty t.start
    else node true false
  | .documentEnd => documentEnd
  | .bareContent => node true false
  | .blockItem first => blockItem first
  | .indentlessItem => indentlessItem
  | .blockKey first => blockKey first
  | .blockValue => blockValue
  | .flowItem first => flowItem first
  | .pairKey => pairKey
  | .pairValue => pairValue
  | .pairEnd => pairEnd
  | .flowKey first => flowKey first
  | .flowValue isEmpty => flowValue isEmpty
  | .finished => return ⟨.streamEnd, (← get).scanner.mark⟩

end Outline
end KubeClient.Yaml
