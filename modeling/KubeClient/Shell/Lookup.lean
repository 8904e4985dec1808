import KubeClient.File.System
import KubeClient.Shell.Builtin

/-!
# What names of commands stand for

* `Shell.State.resolve` : the path of a program;
* `Shell.imageOf` : what stands at the path of a program;
* `Shell.Call.of` : what the words of a command call;
* `Shell.describe` : what a name stands for, in words.
-/

namespace KubeClient.Shell

/-! ### Programs -/

/-- The directories in which programs are looked for. -/
def State.searchPath (s : State) : List Text :=
  match s.get? "PATH".toList with
  | some path => splitAt ':' path
  | none => []

/-- The path of the first file of a name in the directories; if there is none, why not. -/
def findIn (s : State) (name : Text) (e : FileError) : List Text → Except FileError Text
  | [] => .error e
  | directory :: more =>
    let path := if directory.isEmpty then name else directory ++ '/' :: name
    match s.files.find? (s.fullPath path.decoded) with
    | .ok (.file ..) => .ok path
    | .ok .directory => findIn s name .notPermitted more
    | .error .notFound | .error .notDirectory => findIn s name e more
    | .error e => findIn s name e more

/-- The path of a program that is told by its name or by its path. -/
def State.resolve (s : State) (name : Text) : Except FileError Text :=
  if name.contains '/' then .ok name else findIn s name .notFound s.searchPath

/-- The path of a program that another program starts: some directories are always known. -/
def State.resolveAlone (s : State) (name : Text) : Except FileError Text :=
  if (s.get? "PATH".toList).isSome then s.resolve name
  else (s.assign "PATH".toList "/bin:/usr/bin".toList).resolve name

/-- What stands at the path of a program. -/
inductive Image
  | program (name : String)
  /-- A script for a program that its first line tells, with an argument of that line. -/
  | script (interpreter : Text) (options : List Text)
  /-- A script for the shell. -/
  | plain
  deriving Repr, Inhabited

/-- What the first line of a script tells. -/
def interpreterOf (line : Text) : Image :=
  let blank (c : Char) := c = ' ' || c = '\t'
  let words := ((line.dropWhile blank).reverse.dropWhile blank).reverse
  let interpreter := words.takeWhile (!blank ·)
  let option := (words.drop interpreter.length).dropWhile blank
  .script interpreter (if option.isEmpty then [] else [option])

/-- What stands at a path, if it can be run. -/
def imageOf (files : FileTree) (path : String) : Except FileError Image := do
  let place ← files.placeOf path
  match files.nodeAt? place with
  | some (.file content true) =>
    match Text.ofBytes content, place.getLast? with
    | [], some name =>
      return if place.dropLast ∈ [["bin"], ["usr", "bin"]] ∧ name ∈ FileTree.programNames
        then .program name else .plain
    | '#' :: '!' :: text, _ => return interpreterOf (text.takeWhile (· ≠ '\n'))
    | _, _ => return .plain
  | _ => throw .notPermitted

/-- Why a program cannot be run. -/
def runWords (e : FileError) : String :=
  openFailure "not found" e

/-- The status if a program cannot be run. -/
def runStatus : FileError → Nat
  | .notFound | .notDirectory | .nameTooLong => 127
  | _ => 126

/-! ### Commands -/

/-- What runs a command. -/
inductive Callee
  /-- There is nothing to run. -/
  | nothing
  | function (body : Command)
  | own (utility : String)
  | program
  deriving Inhabited

/-- What a name stands for. -/
def State.calleeOf (s : State) (functions : Bool) (name : Text) : Callee :=
  match if functions then s.functions.lookup name else none with
  | some body => .function body
  | none =>
    let utility := String.ofList name
    if utility ∈ specialUtilities ∨ utility ∈ ownUtilities then .own utility else .program

/-- What a command calls, and the words that are given to it. -/
structure Call where
  callee : Callee
  words : List Text
  /-- Its failure ends the shell, and what it sets stays set. -/
  special : Bool
  deriving Inhabited

namespace Call

/-- The words behind `command`, unless it is asked what they stand for. -/
def behindCommand? : List Text → Option (List Text)
  | [] => none
  | word :: words =>
    match word with
    | ['-', '-'] => if words.isEmpty then none else some words
    | '-' :: c :: cs => if (c :: cs).all (· = 'p') then behindCommand? words else none
    | _ => some (word :: words)

/-- Leaves out `command` in front; tells whether it was there. -/
def withoutCommand (found : Bool) : Nat → List Text → Bool × List Text
  | fuel + 1, word :: words =>
    if word = "command".toList then
      match behindCommand? words with
      | some words => withoutCommand true fuel words
      | none => (found, word :: words)
    else (found, word :: words)
  | _, words => (found, words)

/-- What the words of a command call. -/
def of (s : State) (words : List Text) : Call :=
  let (viaCommand, words) := withoutCommand false words.length words
  match words with
  | [] => ⟨.nothing, [], false⟩
  | name :: _ =>
    let callee := s.calleeOf (!viaCommand) name
    let special := match callee with
      | .own utility => !viaCommand && utility ∈ specialUtilities
      | _ => false
    ⟨callee, words, special⟩

/-- Words like assignments that are given to this are not split. -/
def takesAssignments (c : Call) : Bool :=
  match c.callee with
  | .own utility => utility ∈ ["alias", "export", "local", "readonly"]
  | _ => false

/-- What is set for this is set for this only. -/
def isTemporary (c : Call) : Bool :=
  !c.words.isEmpty && !c.special

end Call

/-! ### Descriptions -/

/-- Says what a name stands for; `verbose` does so in a sentence. -/
def describe (verbose : Bool) (name : Text) : Run Unit := do
  let s ← get
  let utility := String.ofList name
  let tell (bare : Text) (sentence : String) : Run Unit :=
    write 1 ((if verbose then name ++ sentence.toList else bare) ++ ['\n'])
  let missing : Run Unit := do
    if verbose then write 1 (name ++ ": not found\n".toList)
    leave 127
  if utility ∈ Reader.keywords then tell name " is a shell keyword"
  else match s.calleeOf true name with
    | .function _ => tell name " is a shell function"
    | .own utility =>
      tell name (if utility ∈ specialUtilities then " is a special shell builtin"
        else " is a shell builtin")
    | _ =>
      match s.resolve name with
      | .error _ => missing
      | .ok path =>
        if name.contains '/' && (s.files.find? (s.fullPath name.decoded)).toOption.isNone then missing
        else tell path (" is " ++ String.ofList path)

/-- Says what names stand for. -/
def describeAll (verbose : Bool) (names : List Text) : Run Unit := do
  leave 0
  for name in names do describe verbose name

/-- Says what the names behind an option of `command` stand for. -/
def describeNamed (args : List Text) : Run Unit := do
  leave 0
  match args with
  | ['-', 'v'] :: names => describeAll false (names.take 1)
  | ['-', 'V'] :: names => describeAll true (names.take 1)
  | ('-' :: c :: _) :: _ => if c ≠ '-' ∧ c ≠ 'p' then refuse ("Illegal option -" ++ String.ofList [c])
  | _ => return

end KubeClient.Shell
