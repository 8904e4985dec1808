import KubeClient.Shell.Condition
import KubeClient.Shell.Signal
import KubeClient.Shell.State

/-!
# Utilities of the shell

The utilities that are part of a shell, as far as they run no other commands.

* `Shell.specialUtilities`, `Shell.ownUtilities` : their names;
* `Shell.runOwn` : what they do.
-/

namespace KubeClient.Shell

/-- Utilities whose failure ends the shell. -/
def specialUtilities : List String :=
  [".", ":", "break", "continue", "eval", "exec", "exit", "export", "local", "readonly", "return",
    "set", "shift", "times", "trap", "unset"]

/-- All other utilities that are part of the shell. -/
def ownUtilities : List String :=
  ["[", "alias", "cd", "chdir", "command", "echo", "false", "getopts", "hash", "jobs", "kill",
    "printf", "pwd", "read", "test", "true", "type", "ulimit", "umask", "unalias", "wait"]

/-! ### Variables -/

/-- Sets a variable, unless it cannot be changed. -/
def assignVariable (name value : Text) : Run Unit := do
  if ((← get).binding name).fixed then refuse (name.decoded ++ ": is read only")
  modify (·.assign name value)

/-- Takes a variable away, unless it cannot be changed. -/
def dropVariable (name : Text) : Run Unit := do
  if ((← get).binding name).fixed then refuse (name.decoded ++ ": is read only")
  modify fun s => { s with bindings := s.bindings.filter (·.name ≠ name) }

/-- A text between single quotes. -/
def quotedText (text : Text) : Text :=
  '\'' :: text.flatMap (fun c => if c = '\'' then ['\'', '"', '\'', '"', '\''] else [c]) ++ ['\'']

/-- A name in front of an equals sign, and what stands behind it if there is one. -/
def splitAssignment (arg : Text) : Text × Option Text :=
  let name := arg.takeWhile (· ≠ '=')
  (name, if name.length < arg.length then some (arg.drop (name.length + 1)) else none)

/-- Variables as commands that would set them. -/
def listed (verb : String) (bindings : List Binding) : Text :=
  (bindings.mergeSort fun a b => a.name ≤ b.name).flatMap fun v =>
    let value := match v.value with
      | some value => '=' :: quotedText value
      | none => []
    verb.toList ++ v.name ++ value ++ ['\n']

/-- Marks variables, which may be set too. -/
def markVariables (mark : Binding → Binding) (args : List Text) : Run Unit := do
  leave 0
  for arg in args do
    let (name, value) := splitAssignment arg
    if !isGoodName name then refuse (name.decoded ++ ": bad variable name")
    if let some value := value then assignVariable name value
    modify fun s => s.put (mark (s.binding name))

/-- Variables that are put back when the function ends. -/
def localVariables (args : List Text) : Run Unit := do
  leave 0
  if (← get).locals.isEmpty then refuse "not in a function"
  for arg in args do
    let (name, value) := splitAssignment arg
    if !isGoodName name then refuse (name.decoded ++ ": bad variable name")
    modify fun s =>
      match s.locals with
      | saved :: outer =>
        if saved.any (·.name = name) then s
        else { s with locals := (s.binding name :: saved) :: outer }
      | [] => s
    if let some value := value then assignVariable name value

/-- Takes variables or functions away. -/
def unsetNames (args : List Text) : Run Unit := do
  leave 0
  let (functions, names) := match args with
    | ['-', 'f'] :: names => (true, names)
    | ['-', 'v'] :: names => (false, names)
    | names => (false, names)
  for name in names do
    if functions then modify fun s => { s with functions := s.functions.filter (·.1 ≠ name) }
    else
      if !isGoodName name then refuse (name.decoded ++ ": bad variable name")
      dropVariable name

/-! ### Options and arguments -/

/-- The options by their names. -/
def optionNames : List (String × Char) :=
  [("errexit", 'e'), ("noglob", 'f'), ("ignoreeof", 'I'), ("interactive", 'i'), ("monitor", 'm'),
    ("noexec", 'n'), ("stdin", 's'), ("xtrace", 'x'), ("verbose", 'v'), ("vi", 'V'),
    ("emacs", 'E'), ("noclobber", 'C'), ("allexport", 'a'), ("notify", 'b'), ("nounset", 'u'),
    ("nolog", '\x01'), ("debug", '\x02')]

/-- Sets or clears an option. -/
def setOption (on : Bool) (option : Char) : Run Unit :=
  modify fun s =>
    let others := s.options.filter (· ≠ option)
    { s with options := if on then others ++ [option] else others }

/-- Prints the options, as a table or as commands that would set them. -/
def showOptions (table : Bool) : Run Unit := do
  let s ← get
  let row (option : String × Char) : String :=
    if table then
      option.1.pushn ' ' (16 - option.1.length) ++ if s.has option.2 then "on\n" else "off\n"
    else "set " ++ (if s.has option.2 then "-o " else "+o ") ++ option.1 ++ "\n"
  if table then write 1 "Current option settings\n".toList
  for option in optionNames do write 1 (row option).toList

/-- Sets options, and the arguments if there are any. -/
def setOptions : Nat → List Text → Run Unit
  | 0, _ => return ()
  | _, [] => return ()
  | fuel + 1, arg :: args => do
    match arg with
    | ['-', '-'] => modify ({ · with arguments := args })
    | ['-'] =>
      setOption false 'x'
      if !args.isEmpty then modify ({ · with arguments := args })
    | sign :: letters =>
      if sign ≠ '-' ∧ sign ≠ '+' then modify ({ · with arguments := arg :: args })
      else
        let on := sign == '-'
        let mut rest := args
        for letter in letters do
          if letter = 'o' then
            match rest with
            | name :: more =>
              match optionNames.lookup (String.ofList name) with
              | some option => setOption on option
              | none => refuse ("Illegal option " ++ String.ofList [sign] ++ "o " ++ name.decoded)
              rest := more
            | [] => showOptions on
          else if optionNames.any (·.2 = letter) then setOption on letter
          else refuse ("Illegal option " ++ String.ofList [sign, letter])
        setOptions fuel rest
    | [] => modify ({ · with arguments := arg :: args })

/-- A number among the arguments of a utility. -/
def numberArgument (arg : Text) : Run Nat :=
  match Formula.decimal? arg with
  | some (.ofNat n) => if n < 2 ^ 31 then return n else refuse ("Illegal number: " ++ arg.decoded)
  | _ => refuse ("Illegal number: " ++ arg.decoded)

/-- Drops arguments of the shell. -/
def shiftArguments (args : List Text) : Run Unit := do
  let n ← match args with
    | [] => pure 1
    | arg :: _ => numberArgument arg
  let s ← get
  if s.arguments.length < n then refuse "can't shift that many"
  set { s with arguments := s.arguments.drop n }
  leave 0

/-- Looks for the next option among arguments. -/
def nextOption (args : List Text) : Run Unit := do
  match args with
  | letters :: name :: args =>
    let s ← get
    let words := if args.isEmpty then s.arguments else args
    let index := (nat? (s.get "OPTIND".toList)).getD 1
    let inside := (nat? (s.get "OPTPOS".toList)).getD 0
    let place (index inside : Nat) : Run Unit := do
      modify (·.assign "OPTIND".toList (digitsOf index))
      modify (·.assign "OPTPOS".toList (digitsOf inside))
    let finish (index : Nat) : Run Unit := do
      place index 0
      modify (·.assign name ['?'])
      leave 1
    match words[index - 1]? with
    | none => finish index
    | some word =>
      if word = ['-', '-'] then finish (index + 1)
      else if word.length < 2 ∨ word.head? ≠ some '-' then finish index
      else
        let at_ := if inside = 0 then 1 else inside
        let letter := word.getD at_ '?'
        let quiet := letters.head? = some ':'
        let more := word.length ≤ at_ + 1
        let after : Run Unit := if more then place (index + 1) 0 else place index (at_ + 1)
        leave 0
        match letters.findIdx? (· = letter) with
        | some i =>
          if letters[i + 1]? = some ':' then
            let inWord := word.drop (at_ + 1)
            let value := if inWord.isEmpty then words[index]? else some inWord
            match value with
            | some value =>
              place (if inWord.isEmpty then index + 2 else index + 1) 0
              modify (·.assign "OPTARG".toList value)
              modify (·.assign name [letter])
            | none =>
              place (index + 1) 0
              if quiet then
                modify (·.assign "OPTARG".toList [letter])
                modify (·.assign name [':'])
              else
                dropVariable "OPTARG".toList
                writeLine 2 ("No arg for -" ++ String.ofList [letter] ++ " option")
                modify (·.assign name ['?'])
          else
            after
            dropVariable "OPTARG".toList
            modify (·.assign name [letter])
        | none =>
          after
          if quiet then modify (·.assign "OPTARG".toList [letter])
          else
            dropVariable "OPTARG".toList
            writeLine 2 ("Illegal option -" ++ String.ofList [letter])
          modify (·.assign name ['?'])
  | _ => refuse "Usage: getopts optstring var [arg...]"

/-! ### Input -/

/-- Joins a line that ends in a backslash with the next one. -/
def readJoined : Nat → Run (List (Char × Bool) × Bool)
  | 0 => return ([], false)
  | fuel + 1 => do
    match ← readLine? 0 with
    | none => return ([], false)
    | some (line, ended) =>
      let rec unescape : Text → List (Char × Bool) × Bool
        | '\\' :: c :: cs =>
          let (more, joins) := unescape cs
          ((c, true) :: more, joins)
        | ['\\'] => ([], true)
        | c :: cs =>
          let (more, joins) := unescape cs
          ((c, false) :: more, joins)
        | [] => ([], false)
      let (cs, joins) := unescape line
      if joins ∧ ended then
        let (more, ended) ← readJoined fuel
        return (cs ++ more, ended)
      else return (cs, ended)

/-- The first field of a line and what follows its separators. -/
def firstField (separators : Text) (line : List (Char × Bool)) :
    List (Char × Bool) × List (Char × Bool) :=
  let ends (c : Char × Bool) : Bool := !c.2 && c.1 ∈ separators
  let blank (c : Char × Bool) : Bool := ends c && c.1 ∈ defaultSeparators
  let line := line.dropWhile blank
  let field := line.takeWhile (!ends ·)
  let rest := (line.drop field.length).dropWhile blank
  let rest := match rest with
    | c :: more => if ends c && (line.drop field.length).head?.any ends then more.dropWhile blank
        else rest
    | [] => []
  (field, rest)

/-- The last variable takes all that is left of a line, without separators at its end. -/
def lastField (separators : Text) (line : List (Char × Bool)) : List (Char × Bool) :=
  let blank (c : Char × Bool) : Bool := !c.2 && c.1 ∈ separators && c.1 ∈ defaultSeparators
  let line := line.dropWhile blank
  let line := (line.reverse.dropWhile blank).reverse
  let (field, rest) := firstField separators line
  if rest.isEmpty then field else line

/-- Sets variables to the fields of a line. -/
def assignFields (separators : Text) (line : List (Char × Bool)) : List Text → Run Unit
  | [] => return ()
  | [name] => assignVariable name ((lastField separators line).map (·.1))
  | name :: names => do
    let (field, rest) := firstField separators line
    assignVariable name (field.map (·.1))
    assignFields separators rest names

/-- Reads a line into variables. -/
def readInto (args : List Text) : Run Unit := do
  let rec options (raw : Bool) : List Text → Bool × List Text
    | ['-', 'r'] :: args => options true args
    | ['-', 'p'] :: _ :: args => options raw args
    | args => (raw, args)
  let (raw, names) := options false args
  if names.isEmpty then refuse "arg count"
  let (line, ended) ← if raw then do
      match ← readLine? 0 with
      | some (line, ended) => pure (line.map fun c => (c, false), ended)
      | none => pure ([], false)
    else readJoined ((← inputLength) + 1)
  assignFields (← get).separators line names
  leave (if ended then 0 else 1)
where
  /-- The number of characters that are left to be read. -/
  inputLength : Run Nat := do
    match (← get).channel? 0 with
    | some (.source rest _) => return rest.length
    | _ => return 0

/-! ### Directories -/

/-- Goes to another directory. -/
def changeDirectory (args : List Text) : Run Unit := do
  let s ← get
  let args := args.filter fun a => a ≠ ['-', 'L'] ∧ a ≠ ['-', 'P'] ∧ a ≠ ['-', '-']
  let target := match args with
    | [] => s.get "HOME".toList
    | ['-'] :: _ => s.get "OLDPWD".toList
    | arg :: _ => arg
  let path := target.decoded
  match if path.isEmpty then .ok s.directory else s.files.placeOf (s.fullPath path) with
  | .ok place =>
    if s.files.isDirectoryAt place then
      let before := Text.ofString (State.pathOf s.directory)
      let after := Text.ofString (State.pathOf place)
      set { s with directory := place }
      modify (·.assign "OLDPWD".toList before)
      modify (·.assign "PWD".toList after)
      if args.head? = some ['-'] then write 1 (after ++ ['\n'])
      leave 0
    else refuse ("can't cd to " ++ path)
  | .error _ => refuse ("can't cd to " ++ path)

/-! ### Signals and jobs -/

/-- Sets what is done at signals. -/
def setTraps (args : List Text) : Run Unit := do
  leave 0
  let args := if args.head? = some ['-', '-'] then args.tail else args
  match args with
  | [] =>
    for (n, action) in (← get).traps.mergeSort fun a b => a.1 ≤ b.1 do
      write 1 ("trap -- ".toList ++ quotedText action ++ ' ' :: ((signalName? n).getD "").toList ++
        ['\n'])
  | first :: more =>
    let (action, signals) :=
      if more.isEmpty ∨ (nat? first).isSome then (none, first :: more)
      else (if first = ['-'] then none else some first, more)
    for word in signals do
      match signalNumber? word with
      | none =>
        writeLine 2 ("trap: " ++ word.decoded ++ ": bad trap")
        leave 1
        return
      | some n =>
        modify fun s =>
          let others := s.traps.filter (·.1 ≠ n)
          { s with traps := match action with
              | some action => (n, action) :: others
              | none => others }

/-- A signal ends a process that runs beside the shell. -/
def endJob (number signal : Nat) : Run Unit :=
  modify fun s => { (s.takeBack number) with
    holds := s.holds.filter (·.1 ≠ number)
    jobs := s.jobs.map fun j =>
      if j.number = number then { j with ends := s.elapsed, status := 128 + signal } else j }

/-- Sends a signal to a process. -/
def sendSignal (signal : Nat) (target : Text) : Run Unit := do
  let s ← get
  match Formula.decimal? target with
  | none => refuse ("Illegal number: " ++ target.decoded)
  | some n =>
    if n = s.process ∨ n = s.self then
      leave 0
      deliver n.toNat signal
    else match s.jobs.find? fun j => n = j.number with
      | some job =>
        leave 0
        if s.elapsed < job.ends && !isHarmless signal then endJob job.number signal
      | none =>
        warn "No such process\n"
        leave 1

/-- Sends a signal to processes, or tells the names of signals. -/
def sendSignals (args : List Text) : Run Unit := do
  match args with
  | ['-', 's'] :: word :: targets => send (signalNumber? word) word targets
  | [['-', 'l']] =>
    write 1 (("0" :: signalNames.drop 1).flatMap fun name => name.toList ++ ['\n'])
    leave 0
  | ['-', 'l'] :: word :: _ =>
    match (nat? word).bind fun n => signalName? (n % 128) with
    | some name =>
      write 1 (name.toList ++ ['\n'])
      leave 0
    | none => refuse ("Illegal number: " ++ word.decoded)
  | ['-', '-'] :: targets => send (some 15) [] targets
  | ('-' :: word) :: targets =>
    match signalNumber? word with
    | some n => send (some n) word targets
    | none => refuse ("Illegal option -" ++ String.ofList (word.take 1))
  | targets => send (some 15) [] targets
where
  /-- Sends a signal, if there is one and somebody to get it. -/
  send (signal : Option Nat) (word : Text) (targets : List Text) : Run Unit := do
    match signal with
    | none => refuse ("invalid signal number or name: " ++ word.decoded)
    | some n =>
      if targets.isEmpty then
        refuse ("Usage: kill [-s sigspec | -signum | -sigspec] [pid | job]... or\n" ++
          "kill -l [exitstatus]")
      for target in targets do sendSignal n target

/-- Waits for processes that run beside the shell. -/
def awaitJobs (args : List Text) : Run Unit := do
  let until_ (time : Nat) : Run Unit := do
    let s ← get
    pass (time - s.elapsed)
  leave 0
  match args with
  | [] =>
    for job in (← get).jobs do until_ job.ends
    modify ({ · with jobs := [] })
  | args =>
    for arg in args do
      let number ← numberArgument arg
      match (← get).jobs.find? (·.number = number) with
      | none => leave 127
      | some job =>
        until_ job.ends
        if 128 < job.status then
          if let some report := signalReport (job.status - 128) then writeLine 2 report
        leave job.status

/-! ### All of them -/

/-- Says whether a condition holds. -/
def judge (args : List Text) : Run Unit := do
  let s ← get
  match Condition.holds ⟨s.files, s.fullPath⟩ (args.length + 1) args with
  | .ok b => leave (if b then 0 else 1)
  | .error reason => refuse reason

/-- Prints a format that is filled in with arguments. -/
def printFormat (args : List Text) : Run Unit := do
  let args := if args.head? = some ['-', '-'] then args.tail else args
  match args with
  | [] => refuse "usage: printf format [arg ...]"
  | form :: args =>
    let p := printed form args
    write 1 p.text
    for complaint in p.complaints do warn complaint
    if let some fault := p.fault then refuse fault
    leave (if p.complaints.isEmpty then 0 else 1)

/-- Ends so many loops, or all if there are less. -/
def endTurns (again : Bool) (args : List Text) : Run Unit := do
  let n ← match args with
    | [] => pure 1
    | arg :: _ => numberArgument arg
  if n = 0 then refuse ("Illegal number: 0")
  leave 0
  let loops := (← get).loops
  if loops ≠ 0 then throw (.turn again (min n loops))

/-- The status that is asked for, if there is one. -/
def statusArgument (args : List Text) : Run (Option Nat) := do
  match args with
  | [] => return none
  | arg :: _ => return some (← numberArgument arg)

/-- A utility that is part of the shell; tells whether there is one of this name. -/
def runOwn (name : String) (args : List Text) : Run Bool := do
  match name with
  | ":" | "true" | "hash" | "jobs" | "alias" | "unalias" => leave 0
  | "false" => leave 1
  | "echo" =>
    leave 0
    if ((← get).streams.lookup 1).isNone then
      warn "echo: I/O error"
      leave 1
    write 1 (echoed true args)
  | "printf" => printFormat args
  | "test" => judge args
  | "[" => if args.getLast? = some [']'] then judge args.dropLast else refuse "missing ]"
  | "cd" | "chdir" => changeDirectory args
  | "pwd" =>
    write 1 (Text.ofString (State.pathOf (← get).directory) ++ ['\n'])
    leave 0
  | "export" =>
    if args.isEmpty ∨ args = [['-', 'p']] then
      write 1 (listed "export " ((← get).bindings.filter (·.exported)))
      leave 0
    else markVariables ({ · with exported := true }) args
  | "readonly" =>
    if args.isEmpty ∨ args = [['-', 'p']] then
      write 1 (listed "readonly " ((← get).bindings.filter (·.fixed)))
      leave 0
    else markVariables ({ · with fixed := true }) args
  | "local" => localVariables args
  | "unset" => unsetNames args
  | "set" =>
    leave 0
    if args.isEmpty then write 1 (listed "" ((← get).bindings.filter (·.value.isSome)))
    setOptions (args.length + 1) args
  | "shift" => shiftArguments args
  | "getopts" => nextOption args
  | "read" => readInto args
  | "trap" => setTraps args
  | "kill" => sendSignals args
  | "wait" => awaitJobs args
  | "umask" =>
    if args.isEmpty then write 1 "0022\n".toList
    leave 0
  | "ulimit" =>
    write 1 "unlimited\n".toList
    leave 0
  | "times" =>
    write 1 "0m0.000000s 0m0.000000s\n0m0.000000s 0m0.000000s\n".toList
    leave 0
  | "break" => endTurns false args
  | "continue" => endTurns true args
  | "exit" =>
    if let some status ← statusArgument args then modify ({ · with askedStatus := some status })
    throw .exit
  | "return" =>
    if let some status ← statusArgument args then leave status
    throw .returned
  | _ => return false
  return true

end KubeClient.Shell
