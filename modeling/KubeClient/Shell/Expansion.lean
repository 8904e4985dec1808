import KubeClient.Shell.Builtin

/-!
# What words stand for

* `Shell.Manner` : what is done with a word;
* `Shell.withTildes` : the homes of users in a word;
* `Shell.State.parameter?`, `Shell.State.parameterAtoms?` : what parameters are set to;
* `Shell.trimmed` : a text without what fits a pattern.
-/

namespace KubeClient.Shell

/-- What is done with a word. -/
structure Manner where
  /-- It is split into fields. -/
  splits : Bool
  /-- What is not quoted may end a field. -/
  loose : Bool
  /-- It is given to a variable. -/
  assigns : Bool
  deriving DecidableEq, Repr, Inhabited

namespace Manner

/-- A word is taken as one text. -/
def text : Manner := ⟨false, false, false⟩

/-- A word is given to a variable. -/
def value : Manner := ⟨false, false, true⟩

/-- A word is split into fields. -/
def fields : Manner := ⟨true, false, false⟩

/-- A word takes the place of a parameter. -/
def inside (m : Manner) (quoted : Bool) : Manner := ⟨m.splits, !quoted, false⟩

end Manner

/-! ### Tildes -/

/-- The home of a user. -/
def State.homeOf? (s : State) (user : Text) : Option Text :=
  if user.isEmpty then s.get? "HOME".toList
  else if user = "root".toList then some "/root".toList
  else none

/-- The name of the user behind a tilde, unless something is quoted there. -/
def userName? (assigns : Bool) : Word → Option Text
  | [] => some []
  | .literal [c] false :: more =>
    if c = '/' ∨ (assigns ∧ c = ':') then some []
    else (userName? assigns more).map (c :: ·)
  | _ => none

/-- The part is this character, not quoted. -/
def Part.isBare (part : Part) (c : Char) : Bool :=
  match part with
  | .literal [d] false => c == d
  | _ => false

/-- The homes of users where tildes stand: at the start, and behind colons if the word is given to
a variable. So many parts are left out first. -/
def withTildes (home : Text → Option Text) (assigns : Bool) : Bool → Nat → Word → Word
  | _, _, [] => []
  | _, n + 1, _ :: more => withTildes home assigns false n more
  | start, 0, part :: more =>
    let user := if start && part.isBare '~' then userName? assigns more else none
    match user.bind fun user => (home user).map ((user.length, ·)) with
    | some (n, text) => .literal text true :: withTildes home assigns false n more
    | none => part :: withTildes home assigns (assigns && part.isBare ':') 0 more

/-! ### Parameters -/

/-- The letters of the options that are set. -/
def State.optionLetters (s : State) : Text :=
  ((optionNames.map (·.2)).reverse.filter fun c => ' ' < c && s.has c)

/-- What a parameter with a text is set to. -/
def State.parameter? (s : State) (name : Text) : Option Text :=
  match name with
  | ['?'] => some (digitsOf s.status)
  | ['#'] => some (digitsOf s.arguments.length)
  | ['$'] => some (digitsOf s.process)
  | ['!'] => s.lastJob.map (digitsOf ·)
  | ['-'] => some s.optionLetters
  | name =>
    match nat? name with
    | some 0 => some s.name
    | some (n + 1) => s.arguments[n]?
    | none => s.get? name

/-- A text that came from a parameter or a script. -/
def atomsOf (quoted : Bool) (text : Text) : List Atom :=
  (if quoted then [.quote] else []) ++ Atom.ofText quoted (!quoted) text

/-- What a parameter is set to. All arguments are put together with a separator, but stay fields of
their own if they are quoted one by one. -/
def State.parameterAtoms? (s : State) (name : Text) (m : Manner) (quoted : Bool) :
    Option (List Atom) :=
  let between : List Atom :=
    if name = ['@'] && quoted && m.splits then [.border]
    else match s.separators with
      | c :: _ => Atom.ofText quoted (!quoted) [c]
      | [] => if m.splits && !quoted then [.border] else []
  let all := between.intercalate (s.arguments.map (atomsOf quoted))
  match name with
  | ['@'] => some all
  | ['*'] => some (if quoted then .quote :: all else all)
  | name => (s.parameter? name).map (atomsOf quoted)

/-- The number of characters of what a parameter is set to. -/
def Atom.size (atoms : List Atom) : Nat :=
  atoms.countP (· ≠ .quote)

/-- A text without the beginning or the end that fits a pattern. -/
def trimmed (atEnd longest : Bool) (pattern : List Glyph) (text : Text) : Text :=
  if atEnd then trimEnd longest pattern text else trimStart longest pattern text

/-! ### Formulas -/

/-- The value of a formula, which may set variables. -/
def calculate (formula : Text) : Run Text := do
  let s ← get
  match Formula.value s.get formula with
  | .error fault => refuse (fault.words formula)
  | .ok (n, changes) =>
    for (name, value) in changes do assignVariable name (digitsOf value)
    return digitsOf n

end KubeClient.Shell
