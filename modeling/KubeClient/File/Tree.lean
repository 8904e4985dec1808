import KubeClient.Text.Utf8

/-!
# Files

A tree of files and directories, in which files are found by their paths.

* `FileTree.follow` : from a directory along the names of a path;
* `FileTree.find?` : what is at a path;
* `FileTree.read`, `FileTree.readText` : the content of a file;
* `FileTree.write`, `FileTree.append`, `FileTree.makeDirectory`, `FileTree.remove` : changes.
-/

namespace KubeClient

/-- Why a file cannot be used. -/
inductive FileError
  | notFound
  | notDirectory
  | isDirectory
  | notPermitted
  | nameTooLong
  | exists
  | nulInPath
  /-- The content is no UTF-8 text. -/
  | notText
  deriving DecidableEq, Repr, Inhabited

/-- What is wrong, in a few words. -/
def FileError.words : FileError → String
  | .notFound => "No such file or directory"
  | .notPermitted => "Permission denied"
  | .exists => "File exists"
  | .notDirectory => "Not a directory"
  | .isDirectory => "Is a directory"
  | .nameTooLong => "File name too long"
  | .nulInPath => "file name contained an unexpected NUL byte"
  | .notText => "stream did not contain valid UTF-8"

/-- The number that the system has for an error. -/
def FileError.number? : FileError → Option Nat
  | .notFound => some 2
  | .notPermitted => some 13
  | .exists => some 17
  | .notDirectory => some 20
  | .isDirectory => some 21
  | .nameTooLong => some 36
  | .nulInPath | .notText => none

/-- The sentence shown to a user. -/
def FileError.message (e : FileError) : String :=
  e.words ++ match e.number? with
    | some n => s!" (os error {n})"
    | none => ""

/-- What is at a path. -/
inductive FileNode
  | file (content : Bytes) (executable : Bool)
  | directory
  deriving DecidableEq, Repr, Inhabited

/-- The names from the root to a place in the tree. -/
abbrev Place := List String

/-- Files and directories by their places; the root is always there. -/
structure FileTree where
  nodes : List (Place × FileNode)
  deriving DecidableEq, Repr, Inhabited

namespace FileTree

/-- The longest name, in bytes. -/
def maxName : Nat := 255

/-- The longest path, in bytes. -/
def maxPath : Nat := 4095

/-- Where paths begin that do not begin with a slash. -/
def workplace : Place := ["tmp"]

/-- The file that swallows what is written to it. -/
def sink : Place := ["dev", "null"]

/-- What is at a place. -/
def nodeAt? (t : FileTree) (place : Place) : Option FileNode :=
  if place = [] then some .directory else t.nodes.lookup place

/-- There is a directory at a place. -/
def isDirectoryAt (t : FileTree) (place : Place) : Bool :=
  t.nodeAt? place == some .directory

/-- Goes from a directory along names: an empty one and `.` stay, `..` goes back. Every name has to
be looked for in a directory. -/
def follow (t : FileTree) (place : Place) : List String → Except FileError Place
  | [] => .ok place
  | name :: names =>
    if !t.isDirectoryAt place then .error .notDirectory
    else if name = "" ∨ name = "." then follow t place names
    else if name = ".." then follow t place.dropLast names
    else if maxName < name.utf8ByteSize then .error .nameTooLong
    else if (t.nodeAt? (place ++ [name])).isNone then .error .notFound
    else follow t (place ++ [name]) names

/-- Where a path begins, and its names. -/
def route (path : String) : Place × List String :=
  match path.splitOn "/" with
  | "" :: names => ([], names)
  | names => (workplace, names)

/-- What is wrong with a path, whatever the files are. -/
def pathFault? (path : String) : Option FileError :=
  if path.contains '\x00' then some .nulInPath
  else if path.isEmpty then some .notFound
  else if maxPath < path.utf8ByteSize then some .nameTooLong
  else none

/-- The place of something that is there. -/
def placeOf (t : FileTree) (path : String) : Except FileError Place :=
  match pathFault? path with
  | some e => .error e
  | none => t.follow (route path).1 (route path).2

/-- What is at a path. -/
def find? (t : FileTree) (path : String) : Except FileError FileNode :=
  match t.placeOf path with
  | .error e => .error e
  | .ok place =>
    match t.nodeAt? place with
    | some node => .ok node
    | none => .error .notFound

/-- The content of a file. -/
def read (t : FileTree) (path : String) : Except FileError Bytes :=
  match t.find? path with
  | .ok (.file content _) => .ok content
  | .ok .directory => .error .isDirectory
  | .error e => .error e

/-- The content of a file of text. -/
def readText (t : FileTree) (path : String) : Except FileError String :=
  match t.read path with
  | .error e => .error e
  | .ok bytes =>
    match Utf8.decode? bytes with
    | some text => .ok text
    | none => .error .notText

/-- There is a file at a path. -/
def isFile (t : FileTree) (path : String) : Bool :=
  match t.find? path with
  | .ok (.file ..) => true
  | _ => false

/-- There is a directory at a path. -/
def isDirectory (t : FileTree) (path : String) : Bool :=
  match t.find? path with
  | .ok .directory => true
  | _ => false

/-- The names in a directory, in order. -/
def names (t : FileTree) (place : Place) : List String :=
  let inside := t.nodes.filterMap fun n =>
    if n.1.dropLast = place ∧ n.1 ≠ [] then n.1.getLast? else none
  inside.mergeSort

/-! ### Changes -/

/-- Puts a node at a place. -/
def put (t : FileTree) (place : Place) (node : FileNode) : FileTree :=
  ⟨(place, node) :: t.nodes.filter (·.1 ≠ place)⟩

/-- Where something new is put: its directory has to be there. -/
def placeFor (t : FileTree) (path : String) : Except FileError Place :=
  match pathFault? path with
  | some e => .error e
  | none =>
    let (start, names) := route path
    match t.follow start names.dropLast, names.getLast? with
    | .error e, _ => .error e
    | .ok place, last =>
      let name := last.getD ""
      if !t.isDirectoryAt place then .error .notDirectory
      else if name ∈ ["", ".", ".."] then .error .isDirectory
      else if maxName < name.utf8ByteSize then .error .nameTooLong
      else .ok (place ++ [name])

/-- Gives a file a new content, given the content that it has had. -/
def change (t : FileTree) (path : String) (content : Bytes → Bytes) :
    Except FileError FileTree :=
  match t.placeFor path with
  | .error e => .error e
  | .ok place =>
    if place = sink then .ok t
    else match t.nodeAt? place with
      | some .directory => .error .isDirectory
      | some (.file before executable) => .ok (t.put place (.file (content before) executable))
      | none => .ok (t.put place (.file (content []) false))

/-- Gives a file a new content. -/
def write (t : FileTree) (path : String) (content : Bytes) : Except FileError FileTree :=
  t.change path fun _ => content

/-- Adds to the content of a file, which need not be there. -/
def append (t : FileTree) (path : String) (content : Bytes) : Except FileError FileTree :=
  t.change path (· ++ content)

/-- Makes a directory. -/
def makeDirectory (t : FileTree) (path : String) : Except FileError FileTree :=
  let bare := if path.endsWith "/" then String.ofList path.toList.dropLast else path
  match t.placeFor bare with
  | .error .isDirectory => .error .exists
  | .error e => .error e
  | .ok place =>
    if (t.nodeAt? place).isSome then .error .exists else .ok (t.put place .directory)

/-- Takes away what is at a path, and all that is below it. -/
def remove (t : FileTree) (path : String) : FileTree :=
  match t.placeOf path with
  | .error _ => t
  | .ok place => ⟨t.nodes.filter fun n => !place.isPrefixOf n.1⟩

/-- A file may be run as a program, or may not. -/
def setExecutable (t : FileTree) (path : String) (executable : Bool) : FileTree :=
  match t.placeOf path with
  | .error _ => t
  | .ok place =>
    match t.nodeAt? place with
    | some (.file content _) => t.put place (.file content executable)
    | _ => t

end FileTree
end KubeClient
