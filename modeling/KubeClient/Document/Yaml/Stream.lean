import KubeClient.Document.Yaml.Event

/-!
# The first document of a YAML stream

A document is read as events up to its end or the first fault. Aliases are told by the number of
their anchor.

* `Yaml.Node` : an event inside of a document;
* `Yaml.Document.ofBytes` : the first document, and whether more follows.
-/

namespace KubeClient.Yaml

/-- An event inside of a document. -/
inductive Node
  /-- There is no document. -/
  | void
  | alias (anchor : Nat)
  | scalar (tag : Option (List Char)) (text : List Char) (style : ScalarStyle)
  | sequenceStart (tag : Option (List Char))
  | sequenceEnd
  | mappingStart (tag : Option (List Char))
  | mappingEnd
  deriving DecidableEq, Repr, Inhabited

/-- Why a document ends early. -/
inductive StreamFault
  | text (f : TextFault)
  | unknownAnchor (mark : Mark)
  deriving DecidableEq, Repr, Inhabited

/-- The words for a fault. -/
def StreamFault.message : StreamFault → String
  | .text f => f.message
  | .unknownAnchor m => "unknown anchor" ++ if m.isStart then "" else " at " ++ m.words

/-- Where a fault was noticed. -/
def StreamFault.mark : StreamFault → Mark
  | .text f => f.mark
  | .unknownAnchor m => m

/-- The events of a document. -/
structure Document where
  events : Array (Node × Mark)
  /-- Where the nodes of anchors begin; the last entry of a number counts. -/
  anchors : List (Nat × Nat)
  fault : Option StreamFault
  deriving Inhabited

namespace Document

/-- The names of the anchors so far, with the numbers that stand for them. -/
abbrev Names := List (List Char × Nat)

/-- Adds an event. -/
def push (d : Document) (n : Node) (m : Mark) : Document :=
  { d with events := d.events.push (n, m) }

/-- Adds a node that may have an anchor. A name that is used again gets a new number. -/
def pushNode (d : Document) (names : Names) (p : Properties) (n : Node) (m : Mark) :
    Document × Names :=
  match p.anchor with
  | none => (d.push n m, names)
  | some name =>
    let id := names.length
    ({ d.push n m with anchors := (id, d.events.size) :: d.anchors },
      (name, id) :: names.filter fun e => e.1 != name)

/-- Reads events to the end of a document; answers whether more follows. -/
def collect (d : Document) (names : Names) (o : Outline) : Nat → Document × Bool
  | 0 => (d, false)
  | fuel + 1 =>
    match Outline.next o with
    | .error f _ => ({ d with fault := some (.text f) }, false)
    | .ok e o =>
      match e.kind with
      | .documentStart => collect d names o fuel
      | .documentEnd =>
        match Outline.next o with
        | .ok ⟨.streamEnd, _⟩ _ => (d, false)
        | _ => (d, true)
      | .streamEnd => (if d.events.isEmpty then d.push .void e.mark else d, false)
      | .alias name =>
        match names.lookup name with
        | some id => collect (d.push (.alias id) e.mark) names o fuel
        | none => ({ d with fault := some (.unknownAnchor e.mark) }, false)
      | .scalar p text style =>
        let (d, names) := d.pushNode names p (.scalar p.tag text style) e.mark
        collect d names o fuel
      | .sequenceStart p =>
        let (d, names) := d.pushNode names p (.sequenceStart p.tag) e.mark
        collect d names o fuel
      | .mappingStart p =>
        let (d, names) := d.pushNode names p (.mappingStart p.tag) e.mark
        collect d names o fuel
      | .sequenceEnd => collect (d.push .sequenceEnd e.mark) names o fuel
      | .mappingEnd => collect (d.push .mappingEnd e.mark) names o fuel

/-- The first document of a stream, and whether more follows. -/
def ofBytes (bs : Bytes) : Document × Bool :=
  match Source.ofBytes bs with
  | .error f => (⟨#[], [], some (.text f)⟩, false)
  | .ok s => collect ⟨#[], [], none⟩ [] (.ofSource s) (16 * (s.chars.length + 16))

end Document
end KubeClient.Yaml
