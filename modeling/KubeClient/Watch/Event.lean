import KubeClient.Codec.Serializer
import KubeClient.Object.Status

/-!
# Events of a watch

* `WatchEvent` : what happened, and to which object;
* `Bookmark` : how far a watch has come;
* `WatchEvent.decode` : the event in one line of a watch.

The type of an event is read first, because it says what the object is.
-/

namespace KubeClient

open Documented

/-- What a bookmark tells about its watch. -/
structure BookmarkMeta where
  resourceVersion : String
  annotations : NameMap String
  deriving DecidableEq, Inhabited

namespace BookmarkMeta

/-- Where a later watch may start. -/
def resourceVersionKey : Key String := .always "resourceVersion"

/-- Notes, such as the one at the end of the initial events. -/
def annotationsKey : Key (NameMap String) := .defaulting "annotations" .empty

instance : Documented BookmarkMeta where
  target := "BookmarkMeta"
  shape := .ofFields "BookmarkMeta" [resourceVersionKey.declared, annotationsKey.declared]
  ofValue v := ⟨resourceVersionKey.of v, annotationsKey.of v⟩
  toValue m := .record [resourceVersionKey.entry m.resourceVersion,
    annotationsKey.entry m.annotations]

end BookmarkMeta

/-- How far a watch has come. -/
structure Bookmark where
  metadata : BookmarkMeta
  deriving DecidableEq, Inhabited

namespace Bookmark

/-- Always there. -/
def metadataKey : Key BookmarkMeta := .always "metadata"

instance : Documented Bookmark where
  target := "kbx_proto::watch::Bookmark"
  shape := .ofFields "Bookmark" [metadataKey.declared]
  ofValue v := ⟨metadataKey.of v⟩
  toValue b := .record [metadataKey.entry b.metadata]

end Bookmark

/-- The part of a line that names the type of its event. -/
structure EventHeader where
  type : EventType
  deriving DecidableEq, Inhabited

namespace EventHeader

/-- The type of the event. -/
def typeKey : Key EventType := .always "type"

instance : Documented EventHeader where
  target := "kbx_proto::watch::Header"
  shape := .ofFields "Header" [typeKey.declared]
  ofValue v := ⟨typeKey.of v⟩
  toValue h := .record [typeKey.entry h.type]

end EventHeader

/-- The part of a line that holds the object of its event. -/
structure EventEnvelope (α : Type) where
  object : α
  deriving DecidableEq, Inhabited

namespace EventEnvelope

variable {α : Type} [Documented α]

/-- The object of the event. -/
def objectKey : Key α := .always "object"

instance : Documented (EventEnvelope α) where
  target := "kbx_proto::watch::Envelope<" ++ target α ++ ">"
  shape := .ofFields "Envelope" [(objectKey : Key α).declared]
  ofValue v := ⟨objectKey.of v⟩
  toValue e := .record [objectKey.entry e.object]

end EventEnvelope

/-- What happened, and to which object. -/
inductive WatchEvent (α : Type)
  | added (object : α)
  | modified (object : α)
  /-- Carries the last state of the object. -/
  | deleted (object : α)
  | bookmark (bookmark : Bookmark)
  /-- The watch has failed. -/
  | error (status : Status)
  deriving DecidableEq, Inhabited

namespace WatchEvent

variable {α : Type}

/-- The type of an event. -/
def type : WatchEvent α → EventType
  | .added _ => .added
  | .modified _ => .modified
  | .deleted _ => .deleted
  | .bookmark _ => .bookmark
  | .error _ => .error

/-- No event comes behind an error. -/
def isTerminal : WatchEvent α → Bool
  | .error _ => true
  | _ => false

/-- The object in a line. -/
def decodeObject (β : Type) [Documented β] (s : Serializer) (line : Bytes) :
    Except SerializationError (Option β) :=
  (s.decode (EventEnvelope β) line).map (·.map (·.object))

/-- The event in a line, none if the line stands for no value. -/
def decode (α : Type) [Documented α] (s : Serializer) (line : Bytes) :
    Except SerializationError (Option (WatchEvent α)) := do
  match ← s.decode EventHeader line with
  | none => return none
  | some header =>
    match header.type with
    | .added => return (← decodeObject α s line).map added
    | .modified => return (← decodeObject α s line).map modified
    | .deleted => return (← decodeObject α s line).map deleted
    | .bookmark => return (← decodeObject Bookmark s line).map bookmark
    | .error => return (← decodeObject Status s line).map error

end WatchEvent
end KubeClient
