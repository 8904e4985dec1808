import KubeClient.Auth.Helper
import KubeClient.Shell.Runner

/-!
# Processes

* `Process` : a program, its arguments and its environment;
* `Process.resolve` : the file that is run;
* `Process.run` : what becomes of it, and of the files.

Only runs of helpers need processes, and the shell that runs their scripts: they stand for what the
system does with a helper. No result is stated about them. What is proved of credentials holds of
any `HelperRun`, whatever it came from.
-/

namespace KubeClient

/-- A program, its arguments, its environment, and how many nanoseconds it may run. -/
structure Process where
  command : String
  args : List String
  environment : List (String × String)
  limit : Nat
  deriving DecidableEq, Inhabited

namespace Process

open Shell

variable (p : Process)

/-- Neither words nor variables can hold the character that ends them. -/
def hasNul : Bool :=
  (p.command :: p.args ++ p.environment.flatMap fun v => [v.1, v.2]).any (·.contains '\x00')

/-- The variables that every process has, unless they are set otherwise. -/
def inherited : List (String × String) :=
  [("HOME", "/root"), ("PATH", "/usr/local/sbin:/usr/local/bin:/usr/sbin:/usr/bin:/sbin:/bin")]

/-- The variables that the process gets, the last one of a name. -/
def variablesGiven : List (String × String) :=
  (inherited ++ p.environment).foldl (fun all v => all.filter (·.1 ≠ v.1) ++ [v]) []

/-- The state of a process that was just started. -/
def start (files : FileTree) : State :=
  .start (p.variablesGiven.map fun v => (Text.ofString v.1, Text.ofString v.2)) files p.limit

/-- The path of the program that is started, or why there is none. -/
def resolve (files : FileTree) : Except String Text :=
  if p.hasNul then .error "nul byte found in provided data"
  else if p.command.isEmpty then .error FileError.notFound.message
  else if !p.command.contains '/' && FileTree.maxName < p.command.utf8ByteSize then
    .error FileError.nameTooLong.message
  else match (p.start files).resolve (.ofString p.command) with
    | .error e => .error e.message
    | .ok path =>
      match imageOf files path.decoded with
      | .error e => .error e.message
      | .ok .plain => .error "Exec format error (os error 8)"
      | .ok _ => .ok path

/-- How deep scripts and the processes that they start may nest. -/
def depth : Nat :=
  16 * ((p.command :: p.args).map String.length).sum + 32768

/-- What has become of a process: its output is open until the last process has ended that may write
to it. -/
def ended (status : Option Nat) (s : State) : HelperRun :=
  .ended status (s.keptIn 1).toBytes (s.keptIn 2).toBytes
    (s.holds.foldl (fun time hold => max time hold.2) s.elapsed)

/-- Runs a process to its end or to its limit. -/
def run (files : FileTree) : HelperRun × FileTree :=
  match p.resolve files with
  | .error reason => (.notStarted reason, files)
  | .ok path =>
    let program := execute (.ofString p.command) path (p.args.map Text.ofString)
      (fun e => leave (runStatus e)) p.depth
    match program.run (p.start files) with
    | .ok _ s => (ended (some (s.status % 256)) s, s.files)
    | .error (.killed ..) s => (ended none s, s.files)
    | .error _ s => (ended (some (s.status % 256)) s, s.files)

end Process
end KubeClient
