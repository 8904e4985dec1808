import KubeClient.File.Tree
import KubeClient.Shell.Formula

/-!
# Conditions

What is said of texts, numbers and files, joined by words for "and", "or" and "not".

* `Shell.Condition.Operator` : the words with a meaning;
* `Shell.Condition.holds` : a condition holds.
-/

namespace KubeClient.Shell.Condition

/-- Words with a meaning: conditions of one argument or of two, and what joins conditions. -/
inductive Operator
  | one (letter : Char)
  | two (word : String)
  | not
  | and
  | or
  | opening
  | closing
  deriving DecidableEq, Repr

/-- The meaning of a word. -/
def operator? (word : Text) : Option Operator :=
  match String.ofList word with
  | "!" => some .not
  | "-a" => some .and
  | "-o" => some .or
  | "(" => some .opening
  | ")" => some .closing
  | s =>
    if s ∈ ["=", "!=", "<", ">", "-eq", "-ne", "-ge", "-gt", "-le", "-lt", "-nt", "-ot", "-ef"] then
      some (.two s)
    else match word with
      | ['-', c] => if "rwxefdcbpugkshLSGOnzt".toList.contains c then some (.one c) else none
      | _ => none

/-- What can be known about files. -/
structure World where
  files : FileTree
  /-- A path from the root. -/
  path : String → String

namespace World

/-- Something can be said of a file. -/
def holds (w : World) (letter : Char) (arg : Text) : Bool :=
  let path := w.path arg.decoded
  match letter, w.files.find? path with
  | _, .error _ => false
  | 'e', .ok _ | 'r', .ok _ | 'w', .ok _ | 'O', .ok _ | 'G', .ok _ => true
  | 'f', .ok (.file ..) => !isDevice
  | 'd', .ok .directory => true
  | 'x', .ok .directory => true
  | 'x', .ok (.file _ executable) => executable
  | 's', .ok .directory => true
  | 's', .ok (.file content _) => !content.isEmpty
  | 'c', .ok (.file ..) => isDevice
  | _, _ => false
where
  /-- The file is a device. -/
  isDevice : Bool :=
    match w.files.placeOf (w.path arg.decoded) with
    | .ok place => place == FileTree.sink
    | .error _ => false

end World

/-- Finds out whether what stands in front holds; what is wrong is told in words. -/
abbrev Judge := EStateM String (List Text)

namespace Judge

/-- The word `n` places ahead. -/
def word? (n : Nat) : Judge (Option Text) := do
  return (← get)[n]?

/-- The meaning of the word `n` places ahead. A condition of one argument is none if what follows
it is a condition of two arguments, or if nothing does. -/
def meaning? (n : Nat) : Judge (Option Operator) := do
  let words := (← get).drop n
  match words with
  | [] => return none
  | word :: more =>
    match operator? word, more with
    | some (.one c), arg :: _ :: _ =>
      match operator? arg with
      | some (.two _) => return none
      | _ => return some (.one c)
    | some (.one _), [] => return none
    | some .opening, [] => return none
    | op, _ => return op

/-- Steps over words. -/
def skip (n : Nat) : Judge Unit :=
  modify (·.drop n)

/-- A number. -/
def number (word : Text) : Judge Int :=
  match Formula.decimal? word with
  | some n => return n
  | none => throw ("Illegal number: " ++ word.decoded)

/-- Two arguments compare as a word says. -/
def compare (op : String) (a b : Text) : Judge Bool := do
  match op with
  | "=" => return a == b
  | "!=" => return a != b
  | "<" => return a < b
  | ">" => return b < a
  | "-eq" => return (← number a) == (← number b)
  | "-ne" => return (← number a) != (← number b)
  | "-gt" => return (← number b) < (← number a)
  | "-ge" => return (← number b) ≤ (← number a)
  | "-lt" => return (← number a) < (← number b)
  | "-le" => return (← number a) ≤ (← number b)
  | "-ef" => return a == b
  | _ => return false

/-- Something is said of an argument. -/
def single (w : World) (letter : Char) (arg : Text) : Judge Bool :=
  match letter with
  | 'n' => return !arg.isEmpty
  | 'z' => return arg.isEmpty
  | 't' => do
    let _ ← number arg
    return false
  | letter => return w.holds letter arg

mutual

/-- Conditions joined by "or"; the word in front may have been given a meaning already. -/
def either (w : World) (first : Option (Option Operator)) : Nat → Judge Bool
  | 0 => return false
  | fuel + 1 => do
    let a ← both w first fuel
    if (← meaning? 1) = some .or then
      skip 2
      let b ← either w none fuel
      return a || b
    else return a

/-- Conditions joined by "and". -/
def both (w : World) (first : Option (Option Operator)) : Nat → Judge Bool
  | 0 => return false
  | fuel + 1 => do
    let a ← negated w first fuel
    if (← meaning? 1) = some .and then
      skip 2
      let b ← both w none fuel
      return a && b
    else return a

/-- A condition, or the opposite of one. -/
def negated (w : World) (first : Option (Option Operator)) : Nat → Judge Bool
  | 0 => return false
  | fuel + 1 => do
    let m ← match first with
      | some m => pure m
      | none => meaning? 0
    if m = some .not then
      if (← word? 1).isSome then
        skip 1
        return !(← negated w none fuel)
      else return true
    else primary w m fuel

/-- A single condition. The word at which it ends stays. -/
def primary (w : World) (m : Option Operator) : Nat → Judge Bool
  | 0 => return false
  | fuel + 1 => do
    match ← word? 0 with
    | none => return false
    | some word =>
      match m with
      | some .opening =>
        skip 1
        if (← meaning? 0) = some .closing then return false
        let b ← either w none fuel
        skip 1
        if (← meaning? 0) = some .closing then return b else throw "closing paren expected"
      | some (.one letter) =>
        match ← word? 1 with
        | none => throw (word.decoded ++ ": argument expected")
        | some arg =>
          skip 1
          single w letter arg
      | _ =>
        match ← meaning? 1 with
        | some (.two op) =>
          match ← word? 2 with
          | none => throw (op ++ ": argument expected")
          | some arg =>
            skip 2
            compare op word arg
        | _ => return !word.isEmpty

end

end Judge

/-- A condition of words holds. -/
def holds (w : World) : Nat → List Text → Except String Bool
  | 0, _ => .ok false
  | _, [] => .ok false
  | fuel + 1, words =>
    let judge (first : Option (Option Operator)) (words : List Text) : Except String Bool :=
      match Judge.either w first (8 * words.length + 8) words with
      | .error reason _ => .error reason
      | .ok _ (word :: _ :: _) =>
        .error ((if word.isEmpty then "" else word.decoded ++ ": ") ++ "unexpected operator")
      | .ok b _ => .ok b
    match words with
    | [_, op, _] =>
      match operator? op with
      | some (.two _) => judge (some none) words
      | _ => shortened fuel words judge
    | [_, _, _, _] => shortened fuel words judge
    | words => judge none words
where
  /-- A condition of three or four words, of which the first ones may be set apart. -/
  shortened (fuel : Nat) (words : List Text)
      (judge : Option (Option Operator) → List Text → Except String Bool) : Except String Bool :=
    match words.head?, words.getLast? with
    | some ['('], some [')'] => judge none (words.drop 1).dropLast
    | some ['!'], _ => (!·) <$> holds w fuel (words.drop 1)
    | _, _ => judge none words

end KubeClient.Shell.Condition
