import KubeClient.Shell.Filter

/-!
# Signals

* `Shell.signalNumber?`, `Shell.signalName?` : the numbers and the names of signals;
* `Shell.signalReport` : what is said of a process that a signal has ended;
* `Shell.isHarmless` : signals that end no process.
-/

namespace KubeClient.Shell

/-- The names of signals by their numbers; 0 stands for the end of the shell. -/
def signalNames : List String :=
  ["EXIT", "HUP", "INT", "QUIT", "ILL", "TRAP", "ABRT", "BUS", "FPE", "KILL", "USR1", "SEGV",
    "USR2", "PIPE", "ALRM", "TERM", "STKFLT", "CHLD", "CONT", "STOP", "TSTP", "TTIN", "TTOU", "URG",
    "XCPU", "XFSZ", "VTALRM", "PROF", "WINCH", "IO", "PWR", "SYS"]

/-- The number of a signal that is told by its name or by its number. -/
def signalNumber? (word : Text) : Option Nat :=
  match nat? word with
  | some n => if n < 65 then some n else none
  | none =>
    let name := (String.ofList word).toUpper
    signalNames.findIdx? (· = name)

/-- The name of a signal. -/
def signalName? (n : Nat) : Option String :=
  signalNames[n]?

/-- Signals that end no process, whatever it does about them. -/
def isHarmless (n : Nat) : Bool :=
  n ∈ [0, 17, 18, 19, 20, 21, 22, 23, 28]

/-- What is said of a process that a signal has ended; some signals are passed over in silence. -/
def signalReport (n : Nat) : Option String :=
  match n with
  | 1 => some "Hangup"
  | 3 => some "Quit"
  | 4 => some "Illegal instruction"
  | 5 => some "Trace/breakpoint trap"
  | 6 => some "Aborted"
  | 7 => some "Bus error"
  | 8 => some "Floating point exception"
  | 9 => some "Killed"
  | 10 => some "User defined signal 1"
  | 11 => some "Segmentation fault"
  | 12 => some "User defined signal 2"
  | 14 => some "Alarm clock"
  | 15 => some "Terminated"
  | 24 => some "CPU time limit exceeded"
  | 25 => some "File size limit exceeded"
  | 26 => some "Virtual timer expired"
  | 27 => some "Profiling timer expired"
  | 29 => some "I/O possible"
  | 30 => some "Power failure"
  | 31 => some "Bad system call"
  | _ => none

end KubeClient.Shell
