import KubeClient.Shell.Script

/-!
# Reading shell scripts

A script is read command by command, since what stands in front of a fault has run when the fault
is noticed. Every step gets `fuel`, which bounds how deep scripts nest and is never used up, being
larger than the text is long.

* `Shell.Source` : what is left of a script;
* `Shell.SyntaxFault` : why a script makes no sense;
* `Shell.Source.nextCommands` : the commands that come next.
-/

namespace KubeClient.Shell

/-- What is read as one. -/
inductive Token
  | ending
  | newline
  | mark (text : String)
  | keyword (text : String)
  | redirect (stream : Nat) (direction : Direction) (stripTabs : Bool)
  | word (word : Word)
  deriving Inhabited

/-- What is left of a script. -/
structure Source where
  rest : Text
  line : Nat
  /-- The lines behind this one that were already taken out. -/
  taken : Nat
  /-- A token that was put back. -/
  pending : Option Token

/-- Why a script makes no sense, and where that is noticed. -/
structure SyntaxFault where
  line : Nat
  words : String
  deriving DecidableEq, Repr, Inhabited

/-- Reads something at the front of a script. -/
abbrev Reader := EStateM SyntaxFault Source

/-- A script of its own. -/
def Source.ofText (text : Text) (line : Nat) : Source :=
  ⟨text, line, 0, none⟩

/-! ### Characters -/

/-- Characters that end a word unless they are quoted. -/
def isMeta (c : Char) : Bool :=
  c ∈ [' ', '\t', '\n', ';', '&', '|', '<', '>', '(', ')']

/-- Characters that names begin with. -/
def beginsName (c : Char) : Bool :=
  c.isAlpha || c == '_'

/-- Characters of names. -/
def isName (c : Char) : Bool :=
  c.isAlphanum || c == '_'

/-- Parameters that have a character for a name. -/
def isSpecial (c : Char) : Bool :=
  c.isDigit || c ∈ ['#', '?', '$', '!', '-', '*', '@']

/-- A name that may be given to a variable. -/
def isGoodName (name : Text) : Bool :=
  name.head?.any beginsName && name.all isName

namespace Reader

/-- Fails at the current line. -/
def fail {α : Type} (words : String) : Reader α := do
  throw ⟨(← get).line, words⟩

/-- The next character. -/
def peek : Reader (Option Char) := do
  return (← get).rest.head?

/-- Drops the next character. -/
def drop : Reader Unit :=
  modify fun s => { s with
    line := if s.rest.head? = some '\n' then s.line + 1 else s.line
    rest := s.rest.tail }

/-- The number of backslashes in front that join a line and the next one. -/
def joints : Text → Nat
  | '\\' :: '\n' :: cs => joints cs + 1
  | _ => 0

/-- The next character; lines may be joined in front of it. -/
def peekJoined : Reader (Option Char) := do
  let n := joints (← get).rest
  modify fun s => { s with rest := s.rest.drop (2 * n), line := s.line + n }
  peek

/-- Takes the character if it comes next. -/
def take? (c : Char) : Reader Bool := do
  if (← peekJoined) = some c then
    drop
    return true
  else return false

/-- Characters as long as they pass a test. -/
def takeWhile (p : Char → Bool) : Reader Text := do
  let cs := (← get).rest.takeWhile p
  modify fun s => { s with
    line := s.line + cs.count '\n'
    rest := s.rest.drop cs.length }
  return cs

/-- Characters of a name, between which lines may be joined. -/
def takeName (p : Char → Bool) : Nat → Reader Text
  | 0 => return []
  | fuel + 1 => do
    match ← peekJoined with
    | some c =>
      if p c then
        drop
        return c :: (← takeName p fuel)
      else return []
    | none => return []

/-- Steps over blanks and comments. -/
def blanks : Nat → Reader Unit
  | 0 => return ()
  | fuel + 1 => do
    match ← peekJoined with
    | some ' ' | some '\t' =>
      drop
      blanks fuel
    | some '#' =>
      let _ ← takeWhile (· ≠ '\n')
      blanks fuel
    | _ => return ()

/-- Steps over the end of a line, and over the lines behind it that were already taken out. -/
def endLine : Reader Unit :=
  modify fun s => { s with rest := s.rest.tail, line := s.line + 1 + s.taken, taken := 0 }

/-! ### Redirections -/

/-- The stream that is named in front of a redirection. -/
def stream? : Reader (Option Nat) := do
  match (← get).rest with
  | d :: cs =>
    let n := joints cs
    if d.isDigit && ((cs.drop (2 * n)).head?.any fun c => c == '<' || c == '>') then
      modify fun s => { s with rest := cs.drop (2 * n), line := s.line + n }
      return some (d.toNat - 48)
    else return none
  | [] => return none

/-- What a redirection does, the stream it is about, and whether tabs are dropped. -/
def redirection? : Reader (Option Token) := do
  let named ← stream?
  if ← take? '>' then
    let stream := named.getD 1
    if ← take? '>' then return some (.redirect stream .append false)
    else if ← take? '|' then return some (.redirect stream (.write true) false)
    else if ← take? '&' then return some (.redirect stream .duplicate false)
    else return some (.redirect stream (.write false) false)
  else if ← take? '<' then
    let stream := named.getD 0
    if ← take? '<' then return some (.redirect stream .here (← take? '-'))
    else if ← take? '&' then return some (.redirect stream .duplicate false)
    else if ← take? '>' then return some (.redirect stream .readMade false)
    else return some (.redirect stream .read false)
  else return none

/-- The lines up to one that is the mark, what follows them, and the number of lines. -/
def linesUpTo (stripTabs : Bool) (mark cs : Text) : Text × Text × Nat :=
  let whole := cs.takeWhile (· ≠ '\n')
  let line := if stripTabs then whole.dropWhile (· = '\t') else whole
  match h : cs.dropWhile (· ≠ '\n') with
  | [] => (if line = mark then [] else line, [], 0)
  | c :: rest =>
    have : rest.length < cs.length := by
      have := (cs.dropWhile_suffix (· ≠ '\n')).length_le
      rw [h] at this
      exact this
    if line = mark then ([], rest, 1)
    else
      let (body, rest, n) := linesUpTo stripTabs mark rest
      (line ++ c :: body, rest, n + 1)
termination_by cs.length

/-- Takes the lines behind the current one up to the mark. -/
def takeHere (stripTabs : Bool) (mark : Text) : Reader Text := do
  let s ← get
  let line := s.rest.takeWhile (· ≠ '\n')
  let (body, rest, n) := linesUpTo stripTabs mark (s.rest.drop (line.length + 1))
  set { s with rest := line ++ '\n' :: rest, taken := s.taken + n }
  return body

/-- The mark behind which lines are taken, and whether some of it is quoted. -/
def hereMark (text : Text) (quoted : Bool) : Nat → Reader (Text × Bool)
  | 0 => return (text, quoted)
  | fuel + 1 => do
    match ← peek with
    | none => return (text, quoted)
    | some c =>
      if isMeta c then return (text, quoted)
      else
        drop
        if c = '\'' ∨ c = '"' then
          let inner ← takeWhile (· ≠ c)
          if (← peek).isNone then fail "Unterminated quoted string"
          drop
          hereMark (text ++ inner) true fuel
        else if c = '\\' then
          let next := (← peek).toList
          drop
          hereMark (text ++ next) true fuel
        else hereMark (text ++ [c]) (quoted || c == '`') fuel

/-! ### Tokens -/

/-- Words that have a meaning where a command begins. -/
def keywords : List String :=
  ["!", "case", "do", "done", "elif", "else", "esac", "fi", "for", "if", "in", "then", "until",
    "while", "\x7b", "\x7d"]

/-- Tokens that end a list of commands. -/
def endsList : Token → Bool
  | .ending => true
  | .mark text => text ∈ [")", ";;"]
  | .keyword text =>
    text ∈ ["do", "done", "elif", "else", "esac", "fi", "then", "\x7d"]
  | _ => false

/-- What a token is called. -/
def tokenName : Token → String
  | .ending => "end of file"
  | .newline => "newline"
  | .mark text | .keyword text => "\"" ++ text ++ "\""
  | .redirect .. => "redirection"
  | .word _ => "word"

/-- Fails at a token, where something else may be the only thing that can stand there. -/
def unexpected {α : Type} (t : Token) (expected : Option String) : Reader α :=
  fail ("Syntax error: " ++ String.ofList ((tokenName t ++ " unexpected" ++
    match expected with
    | some e => " (expecting " ++ e ++ ")"
    | none => "").toList.take 63))

/-- Puts a token back. -/
def putBack (t : Token) : Reader Unit :=
  modify ({ · with pending := some t })

/-- A word of which nothing is quoted. -/
def bare? (w : Word) : Option Text :=
  w.foldr (fun part text =>
    match part, text with
    | .literal cs false, some text => some (cs ++ text)
    | _, _ => none) (some [])

/-- A word as a keyword, if it is one. -/
def keyword? (w : Word) : Option String :=
  (bare? w).bind fun text =>
    let s := String.ofList text
    if s ∈ keywords then some s else none

/-- The word that a token is. -/
def wordOf : Token → Word
  | .word w => w
  | .keyword text => text.toList.map fun c => .literal [c] false
  | _ => []

/-- The name and the value of a word that is an assignment. -/
def assignment? : Word → Option (Text × Word)
  | .literal [c] false :: more =>
    if c = '=' then some ([], more)
    else if isName c then (assignment? more).map fun a => (c :: a.1, a.2)
    else none
  | _ => none

/-- The text up to a backquote; a backslash in front of one goes away. -/
def backquoted (quoted : Bool) : Text → Option (Text × Text)
  | [] => none
  | '`' :: cs => some ([], cs)
  | '\\' :: c :: cs =>
    let kept :=
      if c = '\n' then []
      else if c = '`' ∨ c = '\\' ∨ c = '$' ∨ (quoted ∧ c = '"') then [c] else ['\\', c]
    (backquoted quoted cs).map fun r => (kept ++ r.1, r.2)
  | c :: cs => (backquoted quoted cs).map fun r => (c :: r.1, r.2)

/-- Names that no function may have. -/
def reservedNames : List String :=
  [".", ":", "break", "continue", "eval", "exec", "exit", "export", "readonly", "return", "set",
    "shift", "times", "trap", "unset"]

/-- What ends the parts that are being read. -/
inductive Close
  /-- A double quote. -/
  | quote
  /-- The end of the text, where double quotes mean nothing. -/
  | text
  /-- A closing brace, between double quotes. -/
  | brace
  /-- Two closing parentheses. -/
  | formula
  deriving DecidableEq, Repr

/-- What is missing if the text ends too early. -/
def Close.missing : Close → String
  | .quote | .text => "Syntax error: Unterminated quoted string"
  | .brace => "Syntax error: Missing '\x7d'"
  | .formula => "Syntax error: Missing '))'"

/-- What a backslash and the character behind it stand for between double quotes. -/
def Close.escaped (close : Close) (c : Char) : Text :=
  if c = '\n' then []
  else if c ∈ ['\\', '`', '$'] ∨ (c = '"' ∧ close ≠ .text) ∨ (c = '\x7d' ∧ close = .brace) then [c]
  else ['\\', c]

mutual

/-- What follows a dollar sign. -/
def dollar (quoted : Bool) : Nat → Reader Part
  | 0 => fail ""
  | fuel + 1 => do
    match ← peekJoined with
    | some '(' =>
      drop
      if ← take? '(' then return .arithmetic (← quotedParts .formula 0 fuel) quoted
      else
        let body ← list true fuel
        match ← readToken false false fuel with
        | .mark ")" => return .output body quoted
        | t => unexpected t (some "\")\"")
    | some '\x7b' =>
      drop
      braces quoted fuel
    | some c =>
      if beginsName c then return .parameter (← takeName isName fuel) .value quoted
      else if isSpecial c then
        drop
        return .parameter [c] .value quoted
      else return .literal ['$'] quoted
    | none => return .literal ['$'] quoted
termination_by structural fuel => fuel

/-- What follows a dollar sign and an opening brace. -/
def braces (quoted : Bool) : Nat → Reader Part
  | 0 => fail ""
  | fuel + 1 => do
    let senseless : Reader Part := do
      let _ ← inBraces quoted fuel
      return .parameter [] .senseless quoted
    match ← peekJoined with
    | none => senseless
    | some c =>
      if beginsName c then use (← takeName isName fuel) quoted fuel
      else if c.isDigit then use (← takeName Char.isDigit fuel) quoted fuel
      else if c = '#' then
        drop
        match ← peekJoined with
        | some d =>
          if isName d then
            let name ← takeName (if d.isDigit then Char.isDigit else isName) fuel
            if ← take? '\x7d' then return .parameter name .length quoted else senseless
          else if d ≠ '\x7d' ∧ isSpecial d ∧ (← get).rest[1]? = some '\x7d' then
            drop
            drop
            return .parameter [d] .length quoted
          else use ['#'] quoted fuel
        | none => senseless
      else if isSpecial c then
        drop
        use [c] quoted fuel
      else senseless
termination_by structural fuel => fuel

/-- What follows the name of a parameter between braces. -/
def use (name : Text) (quoted : Bool) : Nat → Reader Part
  | 0 => fail ""
  | fuel + 1 => do
    if ← take? '\x7d' then return .parameter name .value quoted
    let ifEmpty ← take? ':'
    match ← peekJoined with
    | some '-' =>
      drop
      return .parameter name (.orElse ifEmpty (← inBraces quoted fuel)) quoted
    | some '=' =>
      drop
      return .parameter name (.assigned ifEmpty (← inBraces quoted fuel)) quoted
    | some '?' =>
      drop
      return .parameter name (.demanded ifEmpty (← inBraces quoted fuel)) quoted
    | some '+' =>
      drop
      return .parameter name (.instead ifEmpty (← inBraces quoted fuel)) quoted
    | some c =>
      if (c = '%' ∨ c = '#') ∧ !ifEmpty then
        drop
        let longest ← take? c
        return .parameter name (.trimmed (c = '%') longest (← bareParts true fuel)) quoted
      else if c = '\x7d' then
        drop
        let _ ← inBraces quoted fuel
        return .parameter name .value quoted
      else
        let _ ← inBraces quoted fuel
        return .parameter name .senseless quoted
    | none => fail Close.brace.missing
termination_by structural fuel => fuel

/-- The parts up to a closing brace. -/
def inBraces (quoted : Bool) : Nat → Reader Word
  | 0 => fail ""
  | fuel + 1 => if quoted then quotedParts .brace 0 fuel else bareParts true fuel
termination_by structural fuel => fuel

/-- What follows a backquote. -/
def backquote (quoted : Bool) : Nat → Reader Part
  | 0 => fail ""
  | fuel + 1 => do
    let s ← get
    match backquoted quoted s.rest with
    | none => fail "Syntax error: EOF in backquote substitution"
    | some (text, rest) =>
      set (Source.ofText text 1)
      let body ← list true fuel
      set { s with rest, line := s.line + (s.rest.count '\n' - rest.count '\n') }
      return .output body quoted
termination_by structural fuel => fuel

/-- The parts between double quotes; `depth` parentheses are open. -/
def quotedParts (close : Close) (depth : Nat) : Nat → Reader Word
  | 0 => fail ""
  | fuel + 1 => do
    match ← peek with
    | none => if close = .text then return [] else fail close.missing
    | some c =>
      drop
      match c with
      | '"' =>
        if close = .quote then return []
        else if close = .brace then
          return (← quotedParts .quote 0 fuel) ++ (← quotedParts close depth fuel)
        else return .literal [c] true :: (← quotedParts close depth fuel)
      | '\x7d' =>
        if close = .brace then return []
        else return .literal [c] true :: (← quotedParts close depth fuel)
      | '(' =>
        return .literal [c] true ::
          (← quotedParts close (if close = .formula then depth + 1 else 0) fuel)
      | ')' =>
        if close = .formula ∧ depth = 0 then
          if ← take? ')' then return []
        return .literal [c] true :: (← quotedParts close (depth - 1) fuel)
      | '$' => return (← dollar true fuel) :: (← quotedParts close depth fuel)
      | '`' => return (← backquote true fuel) :: (← quotedParts close depth fuel)
      | '\\' =>
        match ← peek with
        | none => return .literal ['\\'] true :: (← quotedParts close depth fuel)
        | some c =>
          drop
          return .literal (close.escaped c) true :: (← quotedParts close depth fuel)
      | c => return .literal [c] true :: (← quotedParts close depth fuel)
termination_by structural fuel => fuel

/-- The parts up to the end of a word, or up to a closing brace. -/
def bareParts (braced : Bool) : Nat → Reader Word
  | 0 => fail ""
  | fuel + 1 => do
    match ← peek with
    | none => if braced then fail Close.brace.missing else return []
    | some c =>
      if !braced && isMeta c then return []
      drop
      match c with
      | '\x7d' =>
        if braced then return [] else return .literal [c] false :: (← bareParts braced fuel)
      | '\'' =>
        let text ← takeWhile (· ≠ '\'')
        if (← peek).isNone then fail Close.quote.missing
        drop
        return .literal text true :: (← bareParts braced fuel)
      | '"' =>
        let inner ← quotedParts .quote 0 fuel
        let inner := if inner.isEmpty then [.literal [] true] else inner
        return inner ++ (← bareParts braced fuel)
      | '$' => return (← dollar false fuel) :: (← bareParts braced fuel)
      | '`' => return (← backquote false fuel) :: (← bareParts braced fuel)
      | '\\' =>
        match ← peek with
        | none => return [.literal ['\\'] true]
        | some c =>
          drop
          if c = '\n' then bareParts braced fuel
          else return .literal [c] true :: (← bareParts braced fuel)
      | c => return .literal [c] false :: (← bareParts braced fuel)
termination_by structural fuel => fuel

/-- The next token, without regard to keywords. -/
def token : Nat → Reader Token
  | 0 => fail ""
  | fuel + 1 => do
    if let some t := (← get).pending then
      modify ({ · with pending := none })
      return t
    blanks fuel
    match ← peek with
    | none => return .ending
    | some '\n' =>
      endLine
      return .newline
    | some '&' =>
      drop
      return .mark (if ← take? '&' then "&&" else "&")
    | some '|' =>
      drop
      return .mark (if ← take? '|' then "||" else "|")
    | some ';' =>
      drop
      return .mark (if ← take? ';' then ";;" else ";")
    | some '(' =>
      drop
      return .mark "("
    | some ')' =>
      drop
      return .mark ")"
    | some _ =>
      match ← redirection? with
      | some t => return t
      | none => return .word (← bareParts false fuel)
termination_by structural fuel => fuel

/-- The next token; ends of lines may be skipped, and words be taken for keywords. -/
def readToken (asKeyword skipLines : Bool) : Nat → Reader Token
  | 0 => fail ""
  | fuel + 1 => do
    match ← token fuel with
    | .newline => if skipLines then readToken asKeyword skipLines fuel else return .newline
    | .word w =>
      match if asKeyword then keyword? w else none with
      | some text => return .keyword text
      | none => return .word w
    | t => return t
termination_by structural fuel => fuel

/-- The keyword has to come next. -/
def expect (text : String) (skipLines : Bool) : Nat → Reader Unit
  | 0 => fail ""
  | fuel + 1 => do
    match ← readToken true skipLines fuel with
    | .keyword t =>
      if t = text then return () else unexpected (.keyword t) (some ("\"" ++ text ++ "\""))
    | t => unexpected t (some ("\"" ++ text ++ "\""))
termination_by structural fuel => fuel

/-- The redirection that a token begins. -/
def redirect (stream : Nat) (direction : Direction) (stripTabs : Bool) : Nat → Reader Redirect
  | 0 => fail ""
  | fuel + 1 => do
    if direction = .here then
      blanks fuel
      let s ← get
      if s.rest.head?.all isMeta then unexpected (← token fuel) none
      let (mark, quoted) ← hereMark [] false fuel
      let body ← takeHere stripTabs mark
      if quoted then return .mk stream direction [.literal body true]
      else
        let after ← get
        set (Source.ofText body (after.line + 1))
        let word ← quotedParts .text 0 fuel
        set after
        return .mk stream direction word
    else
      match ← readToken false false fuel with
      | .word w => return .mk stream direction w
      | t => unexpected t none
termination_by structural fuel => fuel

/-- The redirections behind a command. -/
def redirects : Nat → Reader (List Redirect)
  | 0 => fail ""
  | fuel + 1 => do
    match ← readToken true false fuel with
    | .redirect stream direction stripTabs =>
      let r ← redirect stream direction stripTabs fuel
      return r :: (← redirects fuel)
    | t =>
      putBack t
      return []
termination_by structural fuel => fuel

/-- Words up to another token, which is taken too. -/
def wordsUpTo : Nat → Reader (List Word × Token)
  | 0 => fail ""
  | fuel + 1 => do
    match ← readToken false false fuel with
    | .word w =>
      let (ws, t) ← wordsUpTo fuel
      return (w :: ws, t)
    | t => return ([], t)
termination_by structural fuel => fuel

/-- What stands in a simple command behind what was read of it. -/
def simple (line : Nat) (assignments : List (Text × Word)) (words : List Word)
    (redirects : List Redirect) : Nat → Reader Command
  | 0 => fail ""
  | fuel + 1 => do
    match ← readToken false false fuel with
    | .word w =>
      match if words = [] then (assignment? w).filter (isGoodName ·.1) else none with
      | some a => simple line (assignments ++ [a]) words redirects fuel
      | none => simple line assignments (words ++ [w]) redirects fuel
    | .keyword text =>
      simple line assignments (words ++ [wordOf (.keyword text)]) redirects fuel
    | .redirect stream direction stripTabs =>
      let r ← redirect stream direction stripTabs fuel
      simple line assignments words (redirects ++ [r]) fuel
    | t =>
      match t, assignments, words, redirects with
      | .mark "(", [], [name], [] =>
        match ← readToken false false fuel with
        | .mark ")" =>
          let name := (bare? name).getD []
          if !isGoodName name || String.ofList name ∈ reservedNames then
            fail "Syntax error: Bad function name"
          let line := (← get).line
          putBack (← readToken true true fuel)
          return .function line name (← command fuel)
        | t => unexpected t (some "\")\"")
      | t, assignments, words, redirects =>
        putBack t
        return .simple line assignments words redirects
termination_by structural fuel => fuel

/-- The branches behind `if` or `elif`. -/
def branches : Nat → Reader Command
  | 0 => fail ""
  | fuel + 1 => do
    let condition ← list false fuel
    expect "then" false fuel
    let body ← list false fuel
    match ← readToken true false fuel with
    | .keyword "elif" => return .choice condition body [← branches fuel]
    | .keyword "else" => return .choice condition body (← list false fuel)
    | t =>
      putBack t
      return .choice condition body []
termination_by structural fuel => fuel

/-- Patterns with bars between them, up to a closing parenthesis. -/
def patterns (first : Token) : Nat → Reader (List Word)
  | 0 => fail ""
  | fuel + 1 => do
    match ← readToken false false fuel with
    | .mark "|" => return wordOf first :: (← patterns (← readToken false false fuel) fuel)
    | .mark ")" => return [wordOf first]
    | t => unexpected t (some "\")\"")
termination_by structural fuel => fuel

/-- The cases behind `in`, up to `esac`. -/
def cases : Nat → Reader (List (List Word × Script))
  | 0 => fail ""
  | fuel + 1 => do
    match ← readToken true true fuel with
    | .keyword "esac" => return []
    | t =>
      let first ← match t with
        | .mark "(" => readToken false false fuel
        | t => pure t
      let patterns ← patterns first fuel
      let body ← list true fuel
      match ← readToken true true fuel with
      | .keyword "esac" => return [(patterns, body)]
      | .mark ";;" => return (patterns, body) :: (← cases fuel)
      | t => unexpected t (some "\";;\"")
termination_by structural fuel => fuel

/-- The body of a loop. -/
def loopBody (skipLines : Bool) : Nat → Reader Script
  | 0 => fail ""
  | fuel + 1 => do
    expect "do" skipLines fuel
    let body ← list false fuel
    expect "done" false fuel
    return body
termination_by structural fuel => fuel

/-- What follows the variable of a loop. -/
def each (line : Nat) (name : Text) : Nat → Reader Command
  | 0 => fail ""
  | fuel + 1 => do
    match ← readToken true true fuel with
    | .keyword "in" =>
      let (words, t) ← wordsUpTo fuel
      match t with
      | .newline | .mark ";" => return .each line name words (← loopBody true fuel)
      | t => unexpected t none
    | t =>
      match t with
      | .mark ";" => pure ()
      | t => putBack t
      return .each line name [[.parameter ['@'] .value true]] (← loopBody true fuel)
termination_by structural fuel => fuel

/-- A command. -/
def command : Nat → Reader Command
  | 0 => fail ""
  | fuel + 1 => do
    let line := (← get).line
    let finish (c : Command) : Reader Command := do
      match ← redirects fuel with
      | [] => return c
      | rs => return .redirected line c rs
    match ← readToken true false fuel with
    | .keyword "if" =>
      let c ← branches fuel
      expect "fi" false fuel
      finish c
    | .keyword "while" =>
      let condition ← list false fuel
      finish (.loop true condition (← loopBody false fuel))
    | .keyword "until" =>
      let condition ← list false fuel
      finish (.loop false condition (← loopBody false fuel))
    | .keyword "for" =>
      match ← readToken false false fuel with
      | .word w =>
        match (bare? w).filter isGoodName with
        | some name => finish (← each line name fuel)
        | none => fail "Syntax error: Bad for loop variable"
      | _ => fail "Syntax error: Bad for loop variable"
    | .keyword "case" =>
      match ← readToken false false fuel with
      | .word w =>
        expect "in" true fuel
        finish (.select line w (← cases fuel))
      | t => unexpected t (some "word")
    | .keyword "\x7b" =>
      let body ← list false fuel
      expect "\x7d" false fuel
      finish (.group body)
    | .mark "(" =>
      let body ← list false fuel
      match ← readToken true false fuel with
      | .mark ")" => finish (.subshell line body)
      | t => unexpected t (some "\")\"")
    | .word w =>
      putBack (.word w)
      simple line [] [] [] fuel
    | .redirect stream direction stripTabs =>
      putBack (.redirect stream direction stripTabs)
      simple line [] [] [] fuel
    | t => unexpected t none
termination_by structural fuel => fuel

/-- The commands behind bars. -/
def piped : Nat → Reader (List Command)
  | 0 => fail ""
  | fuel + 1 => do
    match ← readToken false false fuel with
    | .mark "|" =>
      putBack (← readToken true true fuel)
      let c ← command fuel
      return c :: (← piped fuel)
    | t =>
      putBack t
      return []
termination_by structural fuel => fuel

/-- Commands with bars between them. -/
def pipeline : Nat → Reader Command
  | 0 => fail ""
  | fuel + 1 => do
    let negated ← match ← readToken true false fuel with
      | .keyword "!" => pure true
      | t =>
        putBack t
        pure false
    let c ← command fuel
    let more ← piped fuel
    let p := if more.isEmpty then c else .pipeline (c :: more)
    return if negated then .negated p else p
termination_by structural fuel => fuel

/-- What follows a pipeline behind `&&` or `||`. -/
def joined (first : Command) : Nat → Reader Command
  | 0 => fail ""
  | fuel + 1 => do
    match ← readToken false false fuel with
    | .mark "&&" =>
      putBack (← readToken true true fuel)
      joined (.both first (← pipeline fuel)) fuel
    | .mark "||" =>
      putBack (← readToken true true fuel)
      joined (.either first (← pipeline fuel)) fuel
    | t =>
      putBack t
      return first
termination_by structural fuel => fuel

/-- Commands inside of others; there may be none if `mayBeEmpty` is set. -/
def list (mayBeEmpty : Bool) : Nat → Reader Script
  | 0 => fail ""
  | fuel + 1 => do
    let t ← readToken true true fuel
    putBack t
    match t with
    | .ending => return []
    | t =>
      if mayBeEmpty && endsList t then return []
      let c ← joined (← pipeline fuel) fuel
      match ← readToken false false fuel with
      | .mark "&" => return .background c :: (← list true fuel)
      | .mark ";" => return c :: (← list true fuel)
      | .newline => return c :: (← list true fuel)
      | t =>
        putBack t
        return [c]
termination_by structural fuel => fuel

end

/-- The commands of a line, or nothing at the end of the script. -/
def lineOfCommands (first : Bool) : Nat → Reader (Option Script)
  | 0 => return none
  | fuel + 1 => do
    match ← readToken true false fuel with
    | .newline => return some []
    | .ending =>
      putBack .ending
      return if first then none else some []
    | t =>
      putBack t
      let c ← joined (← pipeline fuel) fuel
      let more (c : Command) : Reader (Option Script) := do
        return some (c :: ((← lineOfCommands false fuel).getD []))
      match ← readToken false false fuel with
      | .mark "&" => more (.background c)
      | .mark ";" => more c
      | .newline => return some [c]
      | .ending =>
        putBack .ending
        return some [c]
      | t => unexpected t none

end Reader

/-- The commands that come next, and what is left; nothing at the end of the script. -/
def Source.nextCommands (s : Source) : Except SyntaxFault (Option (Script × Source)) :=
  match Reader.lineOfCommands true (8 * s.rest.length + 64) s with
  | .error fault _ => .error fault
  | .ok none _ => .ok none
  | .ok (some script) s => .ok (some (script, s))

end KubeClient.Shell
