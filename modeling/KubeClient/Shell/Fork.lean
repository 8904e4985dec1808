import KubeClient.Shell.State

/-!
# Processes of a shell

What runs in a process of its own changes files and streams, and nothing else of the shell that has
forked it.

* `Shell.toEnd`, `Shell.inShell` : a shell to its end, and what is done then;
* `Shell.forked` : a process that the shell waits for;
* `Shell.captured`, `Shell.piped` : processes whose output is taken;
* `Shell.background` : a process that the shell does not wait for.
-/

namespace KubeClient.Shell

/-- How deep scripts and processes may nest. -/
def maxDepth : Nat := 2000

/-- What was asked for is the status of a shell that ends. -/
def leaveAsked : Run Unit :=
  modify fun s => { s with status := s.askedStatus.getD s.status, askedStatus := none }

/-- Runs a shell to its end, and what is to be done then. That leaves the status as it is, unless it
ends by itself. -/
def toEnd (perform : Text → Run Unit) (run : Run Unit) : Run Unit := do
  try run
  catch
    | .exit => leaveAsked
    | .fault | .turn .. | .returned => pure ()
    | e => throw e
  let s ← get
  if let some action := s.traps.lookup 0 then
    set { s with traps := s.traps.filter (·.1 ≠ 0), askedStatus := some s.status }
    try
      perform action
      leaveAsked
    catch
      | .exit | .returned | .turn .. => leaveAsked
      | .fault => pure ()
      | e => throw e

/-- Runs something in a shell that was just forked: only what it ignores stays ignored. -/
def inShell (perform : Text → Run Unit) (run : Run Unit) : Run Unit := do
  modify fun s => { s with traps := s.traps.filter (·.2.isEmpty) }
  toEnd perform run

/-- The state of a process that the shell forks. -/
def State.fork (s : State) : State :=
  { s with
    self := State.firstProcess + s.started
    started := s.started + 1
    outerTraps := if s.self = s.process then s.traps else s.outerTraps
    depth := s.depth + 1
    isLast := false
    jobs := [] }

/-- What a process leaves behind. -/
def State.join (s t : State) : State :=
  { s with
    signals := t.signals
    alarms := t.alarms
    files := t.files
    channels := t.channels
    started := t.started
    holds := t.holds
    elapsed := t.elapsed
    status := t.status % 256 }

/-- Runs a process to its end; tells which signal has ended it, if one has. -/
def runProcess (run : Run Unit) : Run (Option Nat) := do
  let self := (← get).self
  try
    run
    return none
  catch
    | .killed process signal =>
      if process = self then
        leave (128 + signal)
        return some signal
      else throw (.killed process signal)
    | .late => throw .late
    | _ => return none

/-- Runs something in a process of its own, and reports if a signal has ended it. -/
def forked (run : Run Unit) : Run Unit := do
  let s ← get
  if maxDepth ≤ s.depth then runOut
  set s.fork
  let signal ← runProcess run
  modify s.join
  if let some report := signal.bind signalReport then writeLine 2 report

/-- Runs something in a process of its own and takes its output. -/
def captured (run : Run Unit) : Run Text := do
  let s ← get
  let number := s.channels.size
  set (s.connect 1 (.kept []))
  forked run
  let t ← get
  set { t with
    streams := s.streams
    channels := t.channels.extract 0 number
    status := s.status
    outputStatus := t.status }
  let text := (t.keptIn number).filter (· ≠ '\x00')
  return (text.reverse.dropWhile (· = '\n')).reverse

/-- Runs processes beside each other, each of which reads what the one before it has printed. -/
def piped (runs : List (Run Unit)) : Run Unit := do
  let s ← get
  let mut input : Option Channel := none
  let mut finish := s.elapsed
  for (run, left) in runs.zip (List.range runs.length).reverse do
    modify ({ · with streams := s.streams, elapsed := s.elapsed })
    if let some channel := input then modify (·.connect 0 channel)
    if left ≠ 0 then modify (·.connect 1 (.kept []))
    let number := (← get).channels.size - 1
    forked run
    let t ← get
    finish := max finish t.elapsed
    input := some (.source (t.keptIn number) t.elapsed)
  modify ({ · with streams := s.streams, elapsed := finish })

/-- Runs something in a process that the shell does not wait for. What that does to the shell itself
happens later. A program may take the place of the process. -/
def background (isLast : Bool) (run : Run Unit) : Run Unit := do
  let s ← get
  if maxDepth ≤ s.depth then runOut
  let child := s.fork
  let child := { child with job := child.self, elapsed := s.elapsed + 1, isLast }
  set (child.connect 0 .nowhere)
  let alarms : List (Nat × Nat) ←
    try
      let _ ← runProcess run
      pure []
    catch
      | .killed process signal => pure [(process, signal)]
      | _ => pure []
  let t ← get
  let sent : List Alarm := (alarms ++ t.signals.filter (!s.signals.contains ·)).map fun a =>
    ⟨t.elapsed, a.1, a.2⟩
  set { s.join t with
    signals := s.signals
    alarms := t.alarms ++ sent
    elapsed := s.elapsed
    status := 0
    lastJob := some child.self
    jobs := ⟨child.self, t.elapsed, t.status % 256⟩ :: s.jobs }

end KubeClient.Shell
