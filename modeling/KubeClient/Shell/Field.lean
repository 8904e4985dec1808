import KubeClient.File.Tree
import KubeClient.Shell.Pattern

/-!
# Fields

A word stands for fields: what came from parameters is split at separators, and a field that is a
pattern stands for the files that fit it.

* `Shell.Atom` : what a word was expanded to;
* `Shell.fieldsOf` : the fields of a word;
* `Shell.filesOf` : the paths that a field stands for.
-/

namespace KubeClient.Shell

/-- What a word was expanded to. -/
inductive Atom
  | glyph (g : Glyph)
  /-- Something quoted stands here, be it empty. -/
  | quote
  /-- One argument ends, and the next one begins. -/
  | border
  deriving DecidableEq, Repr, Inhabited

/-- The text of what a word was expanded to. -/
def Atom.text (atoms : List Atom) : Text :=
  atoms.filterMap fun
    | .glyph g => some g.char
    | _ => none

/-- A word as a pattern. -/
def Atom.glyphs (atoms : List Atom) : List Glyph :=
  atoms.filterMap fun
    | .glyph g => some g
    | _ => none

/-- A text of which every character has the same marks. -/
def Atom.ofText (quoted loose : Bool) (text : Text) : List Atom :=
  text.map fun c => .glyph ⟨c, quoted, loose⟩

/-! ### Splitting -/

/-- The separators if none are set. -/
def defaultSeparators : Text := [' ', '\t', '\n']

/-- Fields that are complete, the last one first, and the characters of the one that is not. -/
structure Splitting where
  done : List (List Glyph)
  current : Option (List Glyph)
  /-- The last field ended with a blank, which another separator may follow. -/
  soft : Bool

namespace Splitting

/-- Ends a field. -/
def finish (s : Splitting) : Splitting :=
  match s.current with
  | some gs => { s with done := gs.reverse :: s.done, current := none }
  | none => s

/-- Adds to a field. A separator that is no blank ends a field, be it empty. -/
def add (separators : Text) (s : Splitting) : Atom → Splitting
  | .quote => { s with current := some (s.current.getD []), soft := false }
  | .border => { s.finish with soft := false }
  | .glyph g =>
    if g.loose && !g.quoted && g.char ∈ separators then
      if g.char ∈ defaultSeparators then
        if s.current.isSome then { s.finish with soft := true } else s
      else if s.current.isSome then { s.finish with soft := false }
      else if s.soft then { s with soft := false }
      else { s with done := [] :: s.done }
    else { s with current := some (g :: s.current.getD []), soft := false }

end Splitting

/-- The fields of a word. -/
def fieldsOf (separators : Text) (atoms : List Atom) : List (List Glyph) :=
  (atoms.foldl (Splitting.add separators) ⟨[], none, false⟩).finish.done.reverse

/-! ### Files -/

/-- Parts of a pattern between slashes. -/
def splitSlashes : List Glyph → List (List Glyph)
  | [] => [[]]
  | g :: gs =>
    if g.char = '/' then [] :: splitSlashes gs
    else match splitSlashes gs with
      | [] => [[g]]
      | part :: parts => (g :: part) :: parts

/-- A name fits a part of a pattern; a dot in front has to be there itself. -/
def fitsName (part : List Glyph) (name : String) : Bool :=
  let text := Text.ofString name
  fits part text && (text.head? != some '.' || part.head?.any (·.char == '.'))

/-- The paths below `place` that fit, each behind what was matched so far. -/
def pathsBelow (files : FileTree) (before : Text) (place : Place) : List (List Glyph) → List Text
  | [] => [before]
  | part :: parts =>
    let text := part.map (·.char)
    let slash := if parts.isEmpty then [] else ['/']
    if isPattern part then
      if !files.isDirectoryAt place then []
      else ((files.names place).filter (fitsName part)).flatMap fun name =>
        let below := place ++ [name]
        if parts.isEmpty || files.isDirectoryAt below then
          pathsBelow files (before ++ Text.ofString name ++ slash) below parts
        else []
    else match files.follow place [Text.decoded text] with
      | .ok below => pathsBelow files (before ++ text ++ slash) below parts
      | .error _ => []

/-- The paths that a field stands for. -/
def filesOf (files : FileTree) (place : Place) (field : List Glyph) : List Text :=
  let text := field.map (·.char)
  if !isPattern field then [text]
  else
    let found := match splitSlashes field with
      | [] :: parts => pathsBelow files ['/'] [] parts
      | parts => pathsBelow files [] place parts
    if found.isEmpty then [text] else found

end KubeClient.Shell
