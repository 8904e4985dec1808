import KubeClient.Shell.Field
import KubeClient.Shell.Reader
import KubeClient.Shell.Signal

/-!
# The state of a shell

* `Shell.State` : variables, files, streams, and how the last command went;
* `Shell.Ending` : how a script, a function or the turn of a loop ends early;
* `Shell.Run` : what changes the state;
* `Shell.write`, `Shell.readAll`, `Shell.redirect` : the streams of a command;
* `Shell.pass`, `Shell.deliver` : time and signals.
-/

namespace KubeClient.Shell

/-- A variable, which may be missing and still have marks. -/
structure Binding where
  name : Text
  value : Option Text
  exported : Bool := false
  /-- It cannot be changed. -/
  fixed : Bool := false
  deriving DecidableEq, Repr, Inhabited

/-- What was written at once, when, and by which of the processes that run beside the shell. -/
structure Piece where
  time : Nat
  job : Nat
  text : Text
  deriving DecidableEq, Repr, Inhabited

/-- Where a stream leads. -/
inductive Channel
  /-- What is written is kept, the last piece first. -/
  | kept (pieces : List Piece)
  /-- What is left to be read, and when the last of it is there. -/
  | source (rest : Text) (ready : Nat)
  /-- What is written is added to a file. -/
  | file (path : String)
  | nowhere
  deriving DecidableEq, Repr, Inhabited

/-- A process that runs beside the shell: when and how it ends. -/
structure Job where
  number : Nat
  ends : Nat
  status : Nat
  deriving DecidableEq, Repr, Inhabited

/-- A signal that will come to a process. -/
structure Alarm where
  time : Nat
  process : Nat
  signal : Nat
  deriving DecidableEq, Repr, Inhabited

/-- How a script, a function or the turn of a loop ends early. -/
inductive Ending
  /-- The shell ends. -/
  | exit
  /-- The shell cannot go on. -/
  | fault
  /-- A program that took the place of the shell has ended. -/
  | replaced
  /-- A signal has ended a process. -/
  | killed (process signal : Nat)
  /-- Time is up. -/
  | late
  /-- So many loops end with this turn; the outermost of them may go on with the next one. -/
  | turn (again : Bool) (levels : Nat)
  | returned
  deriving DecidableEq, Repr, Inhabited

/-- Variables, files, streams, and how the last command went. -/
structure State where
  bindings : List Binding
  functions : List (Text × Command)
  /-- The name of the shell in its complaints. -/
  name : Text
  arguments : List Text
  options : List Char
  /-- What is done at a signal; signal 0 is the end of the shell. -/
  traps : List (Nat × Text)
  /-- What the shell that forked this one does at a signal. -/
  outerTraps : List (Nat × Text)
  /-- Signals that have come to a process and wait for what is done at them. -/
  signals : List (Nat × Nat)
  alarms : List Alarm
  files : FileTree
  directory : Place
  /-- The channels of the streams. -/
  streams : List (Nat × Nat)
  channels : Array Channel
  status : Nat
  /-- How the last script ended whose output was taken. -/
  outputStatus : Nat
  /-- How the shell was asked to end. -/
  askedStatus : Option Nat
  /-- The line of the command that runs. -/
  line : Nat
  /-- The utility of the shell that runs. -/
  utility : Option Text
  /-- The number of loops around the command that runs. -/
  loops : Nat
  /-- The number of functions around the command that runs. -/
  calls : Nat
  /-- The number of scripts and processes around the command that runs. -/
  depth : Nat
  /-- A program takes the place of the shell. -/
  isLast : Bool
  /-- Variables as they were before the commands that run, one list for each of them. -/
  locals : List (List Binding)
  /-- The number of the shell. -/
  process : Nat
  /-- The number of this process, which the shell may have forked. -/
  self : Nat
  /-- The process beside the shell to which this one belongs, or 0. -/
  job : Nat
  /-- The number of processes so far. -/
  started : Nat
  jobs : List Job
  /-- The process that was last started beside the shell. -/
  lastJob : Option Nat
  /-- Until when processes beside the shell keep its output open. -/
  holds : List (Nat × Nat)
  /-- Nanoseconds that have passed. -/
  elapsed : Nat
  /-- The process is killed after so many nanoseconds. -/
  limit : Nat

namespace State

/-- The number of the first process. -/
def firstProcess : Nat := 4242

/-- A process that has just been started: channel 0 is what it reads, and channels 1 and 2 are its
output and its error output. -/
def start (environment : List (Text × Text)) (files : FileTree) (limit : Nat) : State where
  bindings := environment.map fun v => { name := v.1, value := some v.2, exported := true }
  functions := []
  name := "sh".toList
  arguments := []
  options := []
  traps := []
  outerTraps := []
  signals := []
  alarms := []
  files := files
  directory := FileTree.workplace
  streams := [(0, 0), (1, 1), (2, 2)]
  channels := #[.source [] 0, .kept [], .kept []]
  status := 0
  outputStatus := 0
  askedStatus := none
  line := 0
  utility := none
  loops := 0
  calls := 0
  depth := 0
  isLast := false
  locals := []
  process := firstProcess
  self := firstProcess
  job := 0
  started := 1
  jobs := []
  lastJob := none
  holds := []
  elapsed := 0
  limit := limit

/-! ### Variables -/

/-- A variable, be it missing. -/
def binding (s : State) (name : Text) : Binding :=
  (s.bindings.find? (·.name = name)).getD { name, value := none }

/-- What a variable is set to. -/
def get? (s : State) (name : Text) : Option Text :=
  (s.binding name).value

/-- What a variable is set to, or nothing. -/
def get (s : State) (name : Text) : Text :=
  (s.get? name).getD []

/-- Puts a variable in the place of the one of its name. -/
def put (s : State) (v : Binding) : State :=
  { s with bindings := v :: s.bindings.filter (·.name ≠ v.name) }

/-- Sets a variable, which keeps its marks. -/
def assign (s : State) (name value : Text) : State :=
  s.put { s.binding name with
    value := some value
    exported := (s.binding name).exported || s.options.contains 'a' }

/-- The variables that programs get. -/
def environment (s : State) : List (Text × Text) :=
  s.bindings.filterMap fun v => if v.exported then v.value.map ((v.name, ·)) else none

/-- The characters that separate fields. -/
def separators (s : State) : Text :=
  (s.get? ['I', 'F', 'S']).getD defaultSeparators

/-- An option is set. -/
def has (s : State) (option : Char) : Bool :=
  s.options.contains option

/-! ### Files and streams -/

/-- The path of a place. -/
def pathOf (place : Place) : String :=
  "/" ++ "/".intercalate place

/-- A path from the root. -/
def fullPath (s : State) (path : String) : String :=
  if path.isEmpty || path.startsWith "/" then path else pathOf s.directory ++ "/" ++ path

/-- The path leads to the file that swallows what is written to it. -/
def isSink (s : State) (path : String) : Bool :=
  match s.files.placeOf path with
  | .ok place => place == FileTree.sink
  | .error _ => false

/-- The channel of a stream. -/
def channel? (s : State) (stream : Nat) : Option Channel :=
  (s.streams.lookup stream).bind (s.channels[·]?)

/-- What was written to a channel, in the order of time. -/
def keptIn (s : State) (number : Nat) : Text :=
  match s.channels[number]? with
  | some (.kept pieces) =>
    (pieces.reverse.mergeSort fun a b => a.time ≤ b.time).flatMap (·.text)
  | _ => []

/-- What was written last by a process that runs beside the shell is taken back. -/
def takeBack (s : State) (job : Nat) : State :=
  { s with channels := s.channels.map fun
      | .kept pieces => .kept (pieces.filter fun p => p.job ≠ job || p.time ≤ s.elapsed)
      | c => c }

/-- The output of the first process is open here. -/
def holdsOutput (s : State) : Bool :=
  s.streams.any fun stream => stream.2 = 1 || stream.2 = 2

/-- Leads a stream to a channel. -/
def lead (s : State) (stream number : Nat) : State :=
  { s with streams := (stream, number) :: s.streams.filter (·.1 ≠ stream) }

/-- Leads a stream to a new channel. -/
def connect (s : State) (stream : Nat) (channel : Channel) : State :=
  { s with channels := s.channels.push channel }.lead stream s.channels.size

/-- Writes to a stream. -/
def write (s : State) (stream : Nat) (text : Text) : State :=
  match s.streams.lookup stream with
  | none => s
  | some number =>
    match s.channels[number]? with
    | some (.kept pieces) =>
      let pieces := ⟨s.elapsed, s.job, text⟩ :: pieces
      { s with channels := s.channels.setIfInBounds number (.kept pieces) }
    | some (.file path) =>
      { s with files := (s.files.append path text.toBytes).toOption.getD s.files }
    | _ => s

end State

/-- What changes the state of a shell. -/
abbrev Run := EStateM Ending State

/-! ### Output -/

/-- Writes to a stream. -/
def write (stream : Nat) (text : Text) : Run Unit :=
  modify (·.write stream text)

/-- Writes a line to a stream. -/
def writeLine (stream : Nat) (line : String) : Run Unit :=
  write stream (.ofString (line ++ "\n"))

/-- Says how a command went. -/
def leave (status : Nat) : Run Unit :=
  modify ({ · with status })

/-- A program complains. -/
def complain (message : String) (status : Nat) : Run Unit := do
  writeLine 2 message
  leave status

/-- The shell complains. -/
def warn (message : String) : Run Unit := do
  let s ← get
  let utility := match s.utility with
    | some u => u.decoded ++ ": "
    | none => ""
  writeLine 2 s!"{s.name.decoded}: {s.line}: {utility}{message}"

/-- The shell complains and cannot go on. -/
def refuse {α : Type} (message : String) : Run α := do
  warn message
  leave 2
  throw .fault

/-! ### Signals and time -/

/-- A signal comes to a process of the shell. -/
def deliver (process signal : Nat) : Run Unit := do
  let s ← get
  match (if process = s.self then s.traps else s.outerTraps).lookup signal with
  | some action =>
    if signal = 9 then throw (.killed process signal)
    else if !action.isEmpty && (process, signal) ∉ s.signals then
      set { s with signals := (process, signal) :: s.signals }
  | none => if !isHarmless signal then throw (.killed process signal)

/-- Lets time pass up to a point. Signals may come, as many as are counted. -/
def passUntil (time : Nat) : Nat → Run Unit
  | 0 => return ()
  | count + 1 => do
    let s ← get
    let due := s.alarms.filter (·.time ≤ time)
    match due.find? fun a => due.all (a.time ≤ ·.time) with
    | some alarm =>
      set { s with elapsed := max s.elapsed alarm.time, alarms := s.alarms.erase alarm }
      if s.limit ≤ alarm.time then throw .late
      deliver alarm.process alarm.signal
      passUntil time count
    | none =>
      let time := max s.elapsed time
      let others := s.holds.filter (·.1 ≠ s.job)
      set { s with
        elapsed := time
        holds := if s.job ≠ 0 && s.holdsOutput then (s.job, time) :: others else s.holds }
      if s.limit ≤ time then throw .late

/-- Lets time pass. -/
def pass (nanos : Nat) : Run Unit := do
  let s ← get
  passUntil (s.elapsed + nanos) (s.alarms.length + 1)

/-- What takes more steps than it may does not end in time. -/
def runOut {α : Type} : Run α := do
  modify fun s => { s with elapsed := max s.elapsed s.limit }
  throw .late

/-! ### Input -/

/-- Takes what is left of a stream, as soon as it is there, and puts something back. -/
def takeSource (stream : Nat) (back : Text → Text) : Run Text := do
  let s ← get
  match s.streams.lookup stream, s.channel? stream with
  | some number, some (.source rest ready) =>
    passUntil ready (s.alarms.length + 1)
    modify fun s => { s with channels := s.channels.setIfInBounds number (.source (back rest) ready) }
    return rest
  | _, _ => return []

/-- Takes all that is left of a stream. -/
def readAll (stream : Nat) : Run Text :=
  takeSource stream fun _ => []

/-- Takes a line of a stream; none if nothing is left. The flag tells that the line was ended. -/
def readLine? (stream : Nat) : Run (Option (Text × Bool)) := do
  let text ← takeSource stream fun text => (text.dropWhile (· ≠ '\n')).tail
  let line := text.takeWhile (· ≠ '\n')
  if line.length < text.length then return some (line, true)
  else return if text.isEmpty then none else some (line, false)

/-! ### Redirections -/

/-- The text for a file that cannot be opened. -/
def openFailure (missing : String) : FileError → String
  | .notFound | .notDirectory => missing
  | e => e.words

/-- The stream that the name of a device stands for. -/
def deviceStream? (path : String) : Option Nat :=
  match path with
  | "/dev/stdin" => some 0
  | "/dev/stdout" => some 1
  | "/dev/stderr" => some 2
  | _ =>
    let digits := (path.toList.drop "/dev/fd/".length)
    if path.startsWith "/dev/fd/" then
      match digits with
      | [d] => if d.isDigit then some (d.toNat - 48) else none
      | _ => none
    else none

/-- Leads a stream to where another one leads; tells whether there is one. -/
def duplicate (stream source : Nat) : Run Bool := do
  let s ← get
  match s.streams.lookup source with
  | some number =>
    set (s.lead stream number)
    return true
  | none => return false

/-- A file cannot be opened. -/
def refuseOpen (verb : String) (path missing : String) (e : FileError) : Run Bool := do
  warn ("cannot " ++ verb ++ " " ++ path ++ ": " ++ openFailure missing e)
  return false

/-- Opens a file to be written. -/
def openWrite (stream : Nat) (path : String) (force empty : Bool) : Run Bool := do
  let s ← get
  let full := s.fullPath path
  if let some source := deviceStream? path then return ← duplicate stream source
  if s.has 'C' && !force && empty && s.files.isFile full && !s.isSink full then
    return ← refuseOpen "create" path "" .exists
  match if empty then s.files.write full [] else s.files.append full [] with
  | .ok files =>
    let channel := if s.isSink full then Channel.nowhere else .file full
    set ({ s with files }.connect stream channel)
    return true
  | .error e => refuseOpen "create" path "Directory nonexistent" e

/-- Opens a file to be read. -/
def openRead (stream : Nat) (path : String) : Run Bool := do
  let s ← get
  if let some source := deviceStream? path then return ← duplicate stream source
  match s.files.find? (s.fullPath path) with
  | .ok (.file bytes _) =>
    set (s.connect stream (.source (.ofBytes bytes) 0))
    return true
  | .ok .directory =>
    set (s.connect stream (.source [] 0))
    return true
  | .error e => refuseOpen "open" path "No such file" e

/-- Sends a stream elsewhere, and tells whether that is possible. -/
def redirect (stream : Nat) (direction : Direction) (target : Text) : Run Bool := do
  let path := target.decoded
  match direction with
  | .write force => openWrite stream path force true
  | .append => openWrite stream path true false
  | .read => openRead stream path
  | .readMade =>
    if ← openWrite stream path true false then openRead stream path else return false
  | .here =>
    modify (·.connect stream (.source target 0))
    return true
  | .duplicate =>
    match target with
    | ['-'] =>
      modify fun s => { s with streams := s.streams.filter (·.1 ≠ stream) }
      return true
    | [d] =>
      if d.isDigit then
        if ← duplicate stream (d.toNat - 48) then return true
        else
          warn (path ++ ": Bad file descriptor")
          return false
      else refuse "Syntax error: Bad fd number"
    | _ => refuse "Syntax error: Bad fd number"

/-- Leads streams back to where they led before. -/
def restoreStreams (redirected : List Nat) (before : List (Nat × Nat)) : Run Unit :=
  modify fun s => { s with
    streams := before.filter (·.1 ∈ redirected) ++ s.streams.filter (·.1 ∉ redirected) }

/-- Runs something and undoes something else afterwards, however it ends. -/
def undoing {α : Type} (undo : Run Unit) (run : Run α) : Run α := do
  try
    let a ← run
    undo
    return a
  catch e =>
    undo
    throw e

end KubeClient.Shell
