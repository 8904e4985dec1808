import KubeClient.Document.Documented

/-!
# What all objects share

* `TypeMeta` : version and kind of an object;
* `ObjectMeta` : name, version and labels of a stored object;
* `ListMeta`, `ObjectList` : a page of objects.

Fields that hold nothing are left out.
-/

namespace KubeClient

open Documented

/-- Version and kind of an object. -/
structure TypeMeta where
  apiVersion : String
  kind : String
  deriving DecidableEq, Inhabited

namespace TypeMeta

/-- Group and version, such as `apps/v1`. -/
def apiVersionKey : Key String := .text "apiVersion"

/-- The kind, such as `Deployment`. -/
def kindKey : Key String := .text "kind"

instance : Documented TypeMeta where
  target := "kbx_proto::meta::TypeMeta"
  shape := .ofFields "TypeMeta" [apiVersionKey.declared, kindKey.declared]
  ofValue v := ⟨apiVersionKey.of v, kindKey.of v⟩
  toValue m := .record [apiVersionKey.entry m.apiVersion, kindKey.entry m.kind]

end TypeMeta

/-- What every stored object has. -/
structure ObjectMeta where
  name : Option String
  generateName : Option String
  «namespace» : Option String
  uid : Option String
  resourceVersion : Option String
  generation : Option Int64
  creationTimestamp : Option (Timestamp .seconds)
  deletionTimestamp : Option (Timestamp .seconds)
  labels : NameMap String
  annotations : NameMap String
  finalizers : List String
  deriving DecidableEq, Inhabited

namespace ObjectMeta

/-- Unique within its namespace. -/
def nameKey : Key (Option String) := .optional "name"

/-- The name that the server completes. -/
def generateNameKey : Key (Option String) := .optional "generateName"

/-- The namespace that holds the object. -/
def namespaceKey : Key (Option String) := .optional "namespace"

/-- Unique for all times. -/
def uidKey : Key (Option String) := .optional "uid"

/-- Stands for one state of the object. -/
def resourceVersionKey : Key (Option String) := .optional "resourceVersion"

/-- Counts the changes of what is wanted. -/
def generationKey : Key (Option Int64) := .optional "generation"

/-- When the object was created. -/
def creationTimestampKey : Key (Option (Timestamp .seconds)) := .optional "creationTimestamp"

/-- When the object has to be gone. -/
def deletionTimestampKey : Key (Option (Timestamp .seconds)) := .optional "deletionTimestamp"

/-- Labels that selectors look at. -/
def labelsKey : Key (NameMap String) := .map "labels"

/-- Labels that selectors do not look at. -/
def annotationsKey : Key (NameMap String) := .map "annotations"

/-- Who has to agree before the object goes. -/
def finalizersKey : Key (List String) := .list "finalizers"

instance : Documented ObjectMeta where
  target := "kbx_proto::meta::ObjectMeta"
  shape := .ofFields "ObjectMeta" [nameKey.declared, generateNameKey.declared,
    namespaceKey.declared, uidKey.declared, resourceVersionKey.declared, generationKey.declared,
    creationTimestampKey.declared, deletionTimestampKey.declared, labelsKey.declared,
    annotationsKey.declared, finalizersKey.declared]
  ofValue v := {
    name := nameKey.of v
    generateName := generateNameKey.of v
    «namespace» := namespaceKey.of v
    uid := uidKey.of v
    resourceVersion := resourceVersionKey.of v
    generation := generationKey.of v
    creationTimestamp := creationTimestampKey.of v
    deletionTimestamp := deletionTimestampKey.of v
    labels := labelsKey.of v
    annotations := annotationsKey.of v
    finalizers := finalizersKey.of v }
  toValue m := .record [nameKey.entry m.name, generateNameKey.entry m.generateName,
    namespaceKey.entry m.namespace, uidKey.entry m.uid,
    resourceVersionKey.entry m.resourceVersion, generationKey.entry m.generation,
    creationTimestampKey.entry m.creationTimestamp,
    deletionTimestampKey.entry m.deletionTimestamp, labelsKey.entry m.labels,
    annotationsKey.entry m.annotations, finalizersKey.entry m.finalizers]

end ObjectMeta

/-- What a page of objects has. -/
structure ListMeta where
  resourceVersion : Option String
  continueToken : Option String
  remainingItemCount : Option Int64
  deriving DecidableEq, Inhabited

namespace ListMeta

/-- Where a watch of the listed objects starts. -/
def resourceVersionKey : Key (Option String) := .optional "resourceVersion"

/-- Asks for the next page. -/
def continueKey : Key (Option String) := .optional "continue"

/-- The objects on later pages. -/
def remainingItemCountKey : Key (Option Int64) := .optional "remainingItemCount"

instance : Documented ListMeta where
  target := "kbx_proto::meta::ListMeta"
  shape := .ofFields "ListMeta" [resourceVersionKey.declared, continueKey.declared,
    remainingItemCountKey.declared]
  ofValue v := ⟨resourceVersionKey.of v, continueKey.of v, remainingItemCountKey.of v⟩
  toValue m := .record [resourceVersionKey.entry m.resourceVersion,
    continueKey.entry m.continueToken, remainingItemCountKey.entry m.remainingItemCount]

end ListMeta

/-- A page of objects. -/
structure ObjectList (α : Type) where
  types : TypeMeta
  metadata : ListMeta
  items : List α
  deriving DecidableEq, Inhabited

namespace ObjectList

variable {α : Type} [Documented α]

/-- Always written. -/
def metadataKey : Key ListMeta := .defaulting "metadata" default

/-- The listed objects. -/
def itemsKey : Key (List α) := .always "items"

instance : Documented (ObjectList α) where
  target := "kbx_proto::meta::ObjectList<" ++ target α ++ ">"
  shape := .merged "ObjectList"
    (.ofList [metadataKey.declared, (itemsKey (α := α)).declared])
    (.ofList [TypeMeta.apiVersionKey.declared, TypeMeta.kindKey.declared])
  ofValue v := ⟨ofValue v, metadataKey.of v, itemsKey.of v⟩
  toValue l := .record [TypeMeta.apiVersionKey.entry l.types.apiVersion,
    TypeMeta.kindKey.entry l.types.kind, metadataKey.entry l.metadata, itemsKey.entry l.items]

end ObjectList
end KubeClient
