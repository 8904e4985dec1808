import KubeClient.Shell.Expansion
import KubeClient.Shell.Fork
import KubeClient.Shell.Lookup
import KubeClient.Shell.Program

/-!
# Running scripts

A script changes the state of a shell. Every step gets `fuel`, which bounds how deep scripts and
the processes that they start nest. A process that needs more is taken for one that does not end in
time, and so is a loop that takes too many turns.

* `Shell.runText`, `Shell.runCommand` : scripts and their commands;
* `Shell.execute` : a program.

Scripts are run for helpers only. No result is stated about the shell: what is proved of credentials
holds of any run of a helper.
-/

namespace KubeClient.Shell

/-! ### Loops -/

/-- How deep functions may nest. -/
def maxCalls : Nat := 1000

/-- How many turns a loop may take. -/
def maxTurns : Nat := 100000

/-- Runs the turn of a loop; tells whether the loop goes on. -/
def runTurn (run : Run Unit) : Run Bool := do
  try
    run
    return true
  catch
    | .turn again levels =>
      if levels ≤ 1 then return again else throw (.turn again (levels - 1))
    | e => throw e

/-- Runs turns as long as a loop goes on. A turn gets the status of the one before. -/
def repeatTurns (turn : Nat → Run Bool) : Nat → Nat → Run Unit
  | 0, _ => runOut
  | count + 1, status => do
    if ← turn status then repeatTurns turn count (← get).status else return

/-- Runs the body of a loop. -/
def inLoop (run : Run Unit) : Run Unit := do
  modify fun s => { s with loops := s.loops + 1 }
  undoing (modify fun s => { s with loops := s.loops - 1 }) run

/-! ### Variables of commands -/

/-- Keeps a variable as it is, to be put back behind the command. -/
def keepVariable (name : Text) : Run Unit :=
  modify fun s =>
    match s.locals with
    | saved :: outer =>
      { s with locals := (s.binding name :: saved) :: outer }
    | [] => s

/-- Puts the variables back that were kept for a command. -/
def restoreVariables : Run Unit :=
  modify fun s =>
    let others := { s with locals := s.locals.tail }
    (s.locals.headD []).foldl State.put others

/-- Sets a variable for a command. -/
def assignFor (isTemporary exported : Bool) (name value : Text) : Run Unit := do
  if isTemporary then keepVariable name
  assignVariable name value
  if isTemporary || exported then
    modify fun s => s.put { s.binding name with exported := true }

/-- Shows a command that is about to run. -/
def trace (streams : List (Nat × Nat)) (assignments : List (Text × Text)) (words : List Text) :
    Run Unit := do
  let s ← get
  if s.has 'x' then
    let shown := assignments.map (fun a => a.1 ++ '=' :: a.2) ++ words
    let line := s.get "PS4".toList ++ joinWith [' '] shown ++ ['\n']
    set { { s with streams }.write 2 line with streams := s.streams }

/-! ### Shells -/

/-- The state of a shell that was just started, as a program of this name. -/
def State.asShell (s : State) (name : Text) : State :=
  let given := s.bindings.filter fun v => v.exported && isGoodName v.name
  let path := if given.any (·.name = "PATH".toList) then [] else
    [("PATH", "/usr/local/sbin:/usr/local/bin:/usr/sbin:/usr/bin:/sbin:/bin")]
  let own := path ++ [("IFS", " \t\n"), ("OPTIND", "1"), ("PS1", "# "), ("PS2", "> "),
    ("PS4", "+ "), ("PPID", toString (s.self - 1))]
  let bare := { s with
    bindings := given
    functions := []
    name
    arguments := []
    options := []
    traps := s.traps.filter (·.2.isEmpty)
    status := 0
    outputStatus := 0
    askedStatus := none
    line := 0
    utility := none
    loops := 0
    calls := 0
    depth := s.depth + 1
    isLast := false
    locals := []
    process := s.self
    jobs := []
    lastJob := none }
  let t := own.foldl (fun t v => t.assign v.1.toList v.2.toList) bare
  t.put { name := "PWD".toList, value := some (.ofString (State.pathOf s.directory)), exported := true }

/-- Sets the options of a shell that is started; tells whether a script is among the arguments, and
what is left of these. -/
def startOptions (script : Bool) : Nat → List Text → Run (Bool × List Text)
  | fuel + 1, (sign :: c :: cs) :: args => do
    if sign ≠ '-' ∧ sign ≠ '+' then return (script, (sign :: c :: cs) :: args)
    else if sign = '-' ∧ c = '-' ∧ cs.isEmpty then return (script, args)
    else
      let mut script := script
      let mut rest := args
      for letter in c :: cs do
        if letter = 'c' then script := true
        else if letter = 'o' then
          match rest with
          | name :: more =>
            match optionNames.lookup (String.ofList name) with
            | some option => setOption (sign == '-') option
            | none => refuse ("Illegal option -o " ++ name.decoded)
            rest := more
          | [] => pure ()
        else if letter = 'l' then pure ()
        else if optionNames.any (·.2 = letter) then setOption (sign == '-') letter
        else refuse ("Illegal option " ++ String.ofList [sign, letter])
      startOptions script fuel rest
  | _, args => return (script, args)

/-- The script that a shell is started with. -/
def startScript (args : List Text) : Run Text := do
  let (hasScript, args) ← startOptions false (args.length + 1) args
  match hasScript, args with
  | true, [] => refuse "-c requires an argument"
  | true, [text] => return text
  | true, text :: name :: args =>
    modify ({ · with name, arguments := args })
    return text
  | false, [] =>
    setOption true 's'
    readAll 0
  | false, path :: args =>
    let s ← get
    if s.has 's' then
      set { s with arguments := path :: args }
      readAll 0
    else match s.files.read (s.fullPath path.decoded) with
      | .ok bytes =>
        set { s with name := path, arguments := args }
        return .ofBytes bytes
      | .error .isDirectory => return []
      | .error e => refuse ("cannot open " ++ path.decoded ++ ": " ++ openFailure "No such file" e)

/-- The variables that a program is started with are changed. What is left of the arguments names
the program. -/
def changeEnvironment : List Text → Run (Except String (List Text))
  | [] => return .ok []
  | ['-'] :: args | ['-', 'i'] :: args => do
    modify ({ · with bindings := [] })
    changeEnvironment args
  | ['-', 'u'] :: name :: args => do
    modify fun s => { s with bindings := s.bindings.filter (·.name ≠ name) }
    changeEnvironment args
  | ['-', '-'] :: args => changeEnvironment args
  | ('-' :: 'u' :: name) :: args => do
    modify fun s => { s with bindings := s.bindings.filter (·.name ≠ name) }
    changeEnvironment args
  | ('-' :: c :: _) :: _ => return .error ("invalid option -- '" ++ Text.decoded [c] ++ "'")
  | arg :: args => do
    match splitAssignment arg with
    | (_, none) => return .ok (arg :: args)
    | (name, some value) =>
      modify fun s => s.put { name, value := some value, exported := true }
      changeEnvironment args

/-! ### Scripts -/

mutual

/-- What a part of a word stands for. -/
def expandPart (part : Part) (m : Manner) : Nat → Run (List Atom)
  | 0 => runOut
  | fuel + 1 => do
    match part with
    | .literal text quoted =>
      return (if quoted then [.quote] else []) ++ Atom.ofText quoted (m.loose && !quoted) text
    | .output script quoted =>
      let run := inShell (runText · false fuel) (runList script false fuel)
      return atomsOf quoted (← captured run)
    | .arithmetic formula quoted =>
      return atomsOf quoted (← calculate (← textOf formula fuel))
    | .parameter name use quoted =>
      let s ← get
      let atoms? := s.parameterAtoms? name m quoted
      let nothing : List Atom := if quoted then [.quote] else []
      let isMissing (ifEmpty : Bool) : Bool :=
        match atoms? with
        | some atoms => ifEmpty && Atom.size atoms = 0
        | none => true
      let other (word : Word) : Run (List Atom) := do
        return nothing ++ (← expandWord word (m.inside quoted) fuel)
      let value : Run (List Atom) :=
        match atoms? with
        | some atoms => return atoms
        | none =>
          if s.has 'u' then refuse (name.decoded ++ ": parameter not set") else return nothing
      match use with
      | .value => value
      | .length => return atomsOf quoted (digitsOf (Atom.size (← value)))
      | .orElse ifEmpty word =>
        if isMissing ifEmpty then other word else return atoms?.getD []
      | .instead ifEmpty word =>
        if isMissing ifEmpty then return nothing else other word
      | .assigned ifEmpty word =>
        if isMissing ifEmpty then
          let text ← textOf word fuel
          if !isGoodName name then refuse (name.decoded ++ ": bad variable name")
          assignVariable name text
          return atomsOf quoted text
        else return atoms?.getD []
      | .demanded ifEmpty word =>
        if isMissing ifEmpty then
          let text ← textOf word fuel
          let reason := if !word.isEmpty then text.decoded
            else if ifEmpty then "parameter not set or null"
            else "parameter not set"
          refuse (name.decoded ++ ": " ++ reason)
        else return atoms?.getD []
      | .trimmed atEnd longest word =>
        let text := Atom.text (← value)
        let pattern := Atom.glyphs (← expandWord word .text fuel)
        return atomsOf quoted (trimmed atEnd longest pattern text)
      | .senseless => refuse "Bad substitution"
termination_by structural fuel => fuel

/-- What a word stands for. -/
def expandWord (word : Word) (m : Manner) : Nat → Run (List Atom)
  | 0 => runOut
  | fuel + 1 => do
    let s ← get
    let atoms ← (withTildes s.homeOf? m.assigns true 0 word).mapM fun part =>
      expandPart part m fuel
    return atoms.flatten
termination_by structural fuel => fuel

/-- What a word stands for, as one text. -/
def textOf (word : Word) : Nat → Run Text
  | 0 => runOut
  | fuel + 1 => do return Atom.text (← expandWord word .text fuel)
termination_by structural fuel => fuel

/-- The fields that a word stands for. -/
def fieldsFrom (word : Word) : Nat → Run (List Text)
  | 0 => runOut
  | fuel + 1 => do
    let atoms ← expandWord word .fields fuel
    let s ← get
    let fields := fieldsOf s.separators atoms
    if s.has 'f' then return fields.map (·.map (·.char))
    else return fields.flatMap (filesOf s.files s.directory)
termination_by structural fuel => fuel

/-- The fields that the words of a command stand for. -/
def wordsFrom (words : List Word) : Nat → Run (List Text)
  | 0 => runOut
  | fuel + 1 => do
    let mut fields : List Text := []
    for word in words do
      let assigns := (Call.of (← get) fields).takesAssignments &&
        (Reader.assignment? word).any (isGoodName ·.1)
      let more ← if assigns then do pure [Atom.text (← expandWord word .value fuel)]
        else fieldsFrom word fuel
      fields := fields ++ more
    return fields
termination_by structural fuel => fuel

/-- Sends streams elsewhere as long as that is possible; tells whether it was. -/
def openAll (redirects : List Redirect) : Nat → Run Bool
  | 0 => runOut
  | fuel + 1 => do
    let opened ← redirects.mapM fun
      | .mk stream direction target => do
        return (stream, direction, ← textOf target fuel)
    for (stream, direction, text) in opened do
      if !(← redirect stream direction text) then return false
    return true
termination_by structural fuel => fuel

/-- A program that was found at a path, called by a name. -/
def execute (name path : Text) (args : List Text) (failed : FileError → Run Unit) : Nat → Run Unit
  | 0 => runOut
  | fuel + 1 => do
    let s ← get
    match imageOf s.files (s.fullPath path.decoded) with
    | .error e => failed e
    | .ok (.script interpreter options) =>
      execute interpreter interpreter (options ++ path :: args) failed fuel
    | .ok .plain => runShell "/bin/sh".toList (path :: args) fuel
    | .ok (.program program) =>
      match program with
      | "sh" | "dash" => runShell name args fuel
      | "env" =>
        match ← changeEnvironment args with
        | .error reason => misuse "env" reason 125
        | .ok [] => printVariables []
        | .ok (name :: args) =>
          let complainOf (e : FileError) : Run Unit :=
            complain ("env: '" ++ name.decoded ++ "': " ++ e.words) (runStatus e)
          match (← get).resolveAlone name with
          | .error e => complainOf e
          | .ok path => execute name path args complainOf fuel
      | program =>
        if !(← runProgram program args) then failed .notFound
termination_by structural fuel => fuel

/-- A shell that is started as a program. -/
def runShell (name : Text) (args : List Text) : Nat → Run Unit
  | 0 => runOut
  | fuel + 1 => do
    let s ← get
    if maxDepth ≤ s.depth then runOut
    set (s.asShell name)
    toEnd (runText · false fuel) do runText (← startScript args) false fuel
termination_by structural fuel => fuel

/-- A program takes the place of the shell. -/
def replaceShell (name : Text) (args : List Text) : Nat → Run Unit
  | 0 => runOut
  | fuel + 1 => do
    let failed (e : FileError) : Run Unit := do
      warn (name.decoded ++ ": " ++ runWords e)
      modify ({ · with askedStatus := some (runStatus e) })
      throw .exit
    match (← get).resolve name with
    | .error e => failed e
    | .ok path =>
      execute name path args failed fuel
      throw .replaced
termination_by structural fuel => fuel

/-- A file is run as a script of the shell itself. -/
def runFile (name : Text) : Nat → Run Unit
  | 0 => runOut
  | fuel + 1 => do
    let s ← get
    match s.resolve name with
    | .error e => refuse (name.decoded ++ ": " ++ runWords e)
    | .ok path =>
      match s.files.read (s.fullPath path.decoded) with
      | .error .isDirectory => leave 0
      | .error e => refuse ("cannot open " ++ path.decoded ++ ": " ++ openFailure "No such file" e)
      | .ok bytes =>
        modify ({ · with utility := some path })
        try runText (.ofBytes bytes) false fuel
        catch
          | .returned => pure ()
          | e => throw e
termination_by structural fuel => fuel

/-- A utility that is part of the shell. A failure of a special one ends the shell. -/
def runUtility (special tested : Bool) (name : String) (args : List Text) : Nat → Run Unit
  | 0 => runOut
  | fuel + 1 => do
    let s ← get
    if maxDepth ≤ s.depth then runOut
    set { s with utility := some name.toList, depth := s.depth + 1 }
    let undo : Run Unit := modify fun t => { t with utility := s.utility, depth := s.depth }
    undoing undo do
      try
        match name, args with
        | "eval", [] | "command", [] | "exec", [] | ".", [] => leave 0
        | "eval", args => runText (joinWith [' '] args) tested fuel
        | ".", path :: _ => runFile path fuel
        | "exec", name :: args => replaceShell name args fuel
        | "command", args => describeNamed args
        | "type", args => describeAll true args
        | name, args =>
          let _ ← runOwn name args
      catch
        | .fault => if special then throw .fault
        | e => throw e
termination_by structural fuel => fuel

/-- A function. -/
def runFunction (body : Command) (args : List Text) (tested : Bool) : Nat → Run Unit
  | 0 => runOut
  | fuel + 1 => do
    let s ← get
    if maxCalls ≤ s.calls then refuse "Maximum function recursion depth (1000) reached"
    set { s with arguments := args, loops := 0, calls := s.calls + 1 }
    let undo : Run Unit := modify fun t =>
      { t with arguments := s.arguments, loops := s.loops, calls := s.calls }
    undoing undo do
      try runCommand body tested fuel
      catch
        | .returned => pure ()
        | e => throw e
termination_by structural fuel => fuel

/-- A call. -/
def runCall (call : Call) (tested : Bool) : Nat → Run Unit
  | 0 => runOut
  | fuel + 1 => do
    let isLast := (← get).isLast
    modify ({ · with isLast := false })
    match call.callee, call.words with
    | .function body, _ :: args => runFunction body args tested fuel
    | .own utility, _ :: args => runUtility call.special tested utility args fuel
    | .program, name :: args =>
      match (← get).resolve name with
      | .error e =>
        warn (name.decoded ++ ": " ++ runWords e)
        leave 127
      | .ok path =>
        let failed (e : FileError) : Run Unit := do
          warn (name.decoded ++ ": " ++ runWords e)
          leave (runStatus e)
        if isLast then
          execute name path args failed fuel
          throw .replaced
        else forked (execute name path args failed fuel)
    | _, _ => modify fun s => { s with status := s.outputStatus }
termination_by structural fuel => fuel

/-- A simple command: its words are expanded first, then its streams are sent elsewhere, and then
its variables are set. -/
def runSimple (assignments : List (Text × Word)) (words : List Word) (redirects : List Redirect)
    (tested : Bool) : Nat → Run Unit
  | 0 => runOut
  | fuel + 1 => do
    let words ← wordsFrom words fuel
    let s ← get
    let call := Call.of s words
    let isExec := match call.callee with
      | .own "exec" => true
      | _ => false
    let keepsStreams := isExec && call.words.length = 1
    if call.isTemporary then modify fun s => { s with locals := [] :: s.locals }
    let undo : Run Unit := do
      if !keepsStreams then
        restoreStreams (redirects.map fun | .mk stream _ _ => stream) s.streams
      if call.isTemporary then restoreVariables
    undoing undo do
      if ← openAll redirects fuel then
        let mut shown := []
        for (name, word) in assignments do
          let value := Atom.text (← expandWord word .value fuel)
          assignFor call.isTemporary (isExec && !keepsStreams) name value
          shown := shown ++ [(name, value)]
        trace s.streams shown words
        runCall call tested fuel
      else
        leave 2
        if call.special then throw .fault
termination_by structural fuel => fuel

/-- What is done at signals that have come. -/
def attend : Nat → Run Unit
  | 0 => runOut
  | fuel + 1 => do
    let s ← get
    let due := s.signals.filter (·.1 = s.self)
    match due.find? fun a => due.all (a.2 ≤ ·.2) with
    | none => return
    | some (process, signal) =>
      let status := s.askedStatus.getD s.status
      set { s with
        signals := s.signals.filter (· ≠ (process, signal))
        askedStatus := some status }
      if let some action := s.traps.lookup signal then runText action false fuel
      modify ({ · with status, askedStatus := s.askedStatus })
      attend fuel
termination_by structural fuel => fuel

/-- A command that is put together from others, or a simple one. -/
def runParts (command : Command) (tested : Bool) : Nat → Run Unit
  | 0 => runOut
  | fuel + 1 => do
    match command with
    | .simple line assignments words redirects =>
      modify ({ · with line, outputStatus := 0 })
      runSimple assignments words redirects tested fuel
    | .pipeline commands =>
      piped (commands.map fun c => inShell (runText · false fuel) (runCommand c tested fuel))
    | .negated command =>
      runCommand command true fuel
      leave (if (← get).status = 0 then 1 else 0)
    | .both first second =>
      runCommand first true fuel
      if (← get).status = 0 then runCommand second tested fuel
    | .either first second =>
      runCommand first true fuel
      if (← get).status ≠ 0 then runCommand second tested fuel
    | .background command =>
      let isLast := match command with
        | .simple .. => true
        | _ => false
      background isLast (inShell (runText · false fuel) (runCommand command false fuel))
    | .choice condition body otherwise =>
      runList condition true fuel
      if (← get).status = 0 then runList body tested fuel
      else
        if otherwise.isEmpty then leave 0
        runList otherwise tested fuel
    | .loop expected condition body =>
      let turn (status : Nat) : Run Bool := runTurn do
        runList condition true fuel
        if decide ((← get).status = 0) ≠ expected then
          leave status
          throw (.turn false 1)
        runList body tested fuel
      inLoop (repeatTurns turn maxTurns 0)
    | .each line name words body =>
      modify ({ · with line })
      let fields ← words.mapM fun word => fieldsFrom word fuel
      inLoop do
        let mut status := 0
        for field in fields.flatten do
          assignVariable name field
          let goesOn ← runTurn (runList body tested fuel)
          status := (← get).status
          if !goesOn then break
        leave status
    | .select line word cases =>
      modify ({ · with line })
      let text ← textOf word fuel
      for (patterns, body) in cases do
        for pattern in patterns do
          let glyphs := Atom.glyphs (← expandWord pattern .text fuel)
          if fits glyphs text then
            if body.isEmpty then leave 0
            runList body tested fuel
            return
      leave 0
    | .function _ name body =>
      modify fun s => { s with functions := (name, body) :: s.functions.filter (·.1 ≠ name) }
      leave 0
    | .group body => runList body tested fuel
    | .subshell line body =>
      modify ({ · with line })
      forked (inShell (runText · false fuel) (runList body tested fuel))
    | .redirected line command redirects =>
      modify ({ · with line })
      let before := (← get).streams
      let streams := redirects.map fun | .mk stream _ _ => stream
      undoing (restoreStreams streams before) do
        if ← openAll redirects fuel then runCommand command tested fuel else leave 2
termination_by structural fuel => fuel

/-- A command, and what is done at signals before and behind it. The shell may end if it fails and
nobody looks at how it ended. -/
def runCommand (command : Command) (tested : Bool) : Nat → Run Unit
  | 0 => runOut
  | fuel + 1 => do
    if (← get).has 'n' then return
    attend fuel
    runParts command tested fuel
    attend fuel
    let checked := match command with
      | .simple .. | .pipeline _ | .background _ | .subshell .. => !tested
      | _ => false
    let s ← get
    if checked && s.has 'e' && s.status ≠ 0 then
      set { s with askedStatus := some s.status }
      throw .exit
termination_by structural fuel => fuel

/-- Commands, one after the other. -/
def runList (script : Script) (tested : Bool) : Nat → Run Unit
  | 0 => runOut
  | fuel + 1 => do
    for command in script do runCommand command tested fuel
termination_by structural fuel => fuel

/-- What is left of a script; `ran` tells that some of it has run. -/
def runSource (source : Source) (tested ran : Bool) : Nat → Run Unit
  | 0 => runOut
  | fuel + 1 => do
    match source.nextCommands with
    | .error fault =>
      modify ({ · with line := fault.line })
      refuse fault.words
    | .ok none => if !ran then leave 0
    | .ok (some (script, source)) =>
      runList script tested fuel
      runSource source tested (ran || !script.isEmpty) fuel
termination_by structural fuel => fuel

/-- A script that is read line by line. -/
def runText (text : Text) (tested : Bool) : Nat → Run Unit
  | 0 => runOut
  | fuel + 1 => runSource (.ofText text 1) tested false fuel
termination_by structural fuel => fuel

end

end KubeClient.Shell
