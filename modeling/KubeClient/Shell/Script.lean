import KubeClient.Text.Utf8

/-!
# Shell scripts

Many helpers are shell scripts. A script is a sequence of commands, whose words are put together
from parts.

* `Shell.Text` : bytes, each as the character of the same number;
* `Shell.Part`, `Shell.Use`, `Shell.Redirect`, `Shell.Command` : what a script is made of.

The shell is there for runs of helpers only (`Process.run`): it stands for a program that the client
does not contain, and no result is stated about it.
-/

namespace KubeClient.Shell

/-- Bytes, each as the character of the same number. -/
abbrev Text := List Char

/-- Bytes as characters. -/
def Text.ofBytes (bs : Bytes) : Text :=
  bs.map fun b => Char.ofNat b.toNat

/-- The bytes of a string as characters. -/
def Text.ofString (s : String) : Text :=
  .ofBytes (Utf8.encode s)

/-- The bytes that the characters stand for. -/
def Text.toBytes (cs : Text) : Bytes :=
  cs.map fun c => UInt8.ofNat c.toNat

/-- The string that the bytes stand for. -/
def Text.decoded (cs : Text) : String :=
  Utf8.decodeLossy cs.toBytes

/-- What a redirection does. -/
inductive Direction
  /-- Writes to a file; `force` does so even where files are protected. -/
  | write (force : Bool)
  | append
  | read
  /-- Reads from a file, which is made if it is not there. -/
  | readMade
  /-- The text itself is what is read. -/
  | here
  /-- The one stream becomes the other. -/
  | duplicate
  deriving DecidableEq, Repr, Inhabited

mutual

/-- A part of a word. -/
inductive Part
  | literal (text : Text) (quoted : Bool)
  | parameter (name : Text) (use : Use) (quoted : Bool)
  | output (script : List Command) (quoted : Bool)
  | arithmetic (formula : List Part) (quoted : Bool)

/-- What is taken of a parameter. An `ifEmpty` tells that an empty one counts as missing. -/
inductive Use
  | value
  | length
  /-- Something else, if it is missing. -/
  | orElse (ifEmpty : Bool) (other : List Part)
  /-- It is set first, if it is missing. -/
  | assigned (ifEmpty : Bool) (other : List Part)
  /-- The script ends, if it is missing. -/
  | demanded (ifEmpty : Bool) (reason : List Part)
  /-- Something else, unless it is missing. -/
  | instead (ifEmpty : Bool) (other : List Part)
  /-- What fits the pattern at one end is cut off. -/
  | trimmed (atEnd longest : Bool) (pattern : List Part)
  /-- Makes no sense. -/
  | senseless

/-- Where a stream of a command goes. -/
inductive Redirect
  | mk (stream : Nat) (direction : Direction) (target : List Part)

/-- A command; `line` is the line where it begins. -/
inductive Command
  | simple (line : Nat) (assignments : List (Text × List Part)) (words : List (List Part))
      (redirects : List Redirect)
  /-- Every command reads what the one before it has printed. -/
  | pipeline (commands : List Command)
  | negated (command : Command)
  /-- The second one runs if the first one has succeeded. -/
  | both (first second : Command)
  /-- The second one runs if the first one has failed. -/
  | either (first second : Command)
  | background (command : Command)
  | choice (condition body otherwise : List Command)
  /-- Runs as long as the condition ends as expected. -/
  | loop (expected : Bool) (condition body : List Command)
  /-- Runs once for every word. -/
  | each (line : Nat) (name : Text) (words : List (List Part)) (body : List Command)
  /-- Runs the first case of which a pattern fits the word. -/
  | select (line : Nat) (word : List Part) (cases : List (List (List Part) × List Command))
  | function (line : Nat) (name : Text) (body : Command)
  | group (body : List Command)
  /-- Runs in a shell of its own. -/
  | subshell (line : Nat) (body : List Command)
  | redirected (line : Nat) (command : Command) (redirects : List Redirect)

end

instance : Inhabited Part := ⟨.literal [] false⟩
instance : Inhabited Redirect := ⟨.mk 0 .read []⟩
instance : Inhabited Command := ⟨.group []⟩

/-- Several parts. -/
abbrev Word := List Part

/-- Several commands, one after the other. -/
abbrev Script := List Command

/-- A part is quoted. -/
def Part.isQuoted : Part → Bool
  | .literal _ quoted | .parameter _ _ quoted | .output _ quoted | .arithmetic _ quoted => quoted

/-- The text of a part that stands for itself. -/
def Part.text : Part → Text
  | .literal text _ => text
  | _ => []

end KubeClient.Shell
