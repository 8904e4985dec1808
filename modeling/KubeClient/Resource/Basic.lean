import KubeClient.Text.Inspect

/-!
# Resources

* `Resource` : a collection of objects, named by group, version and plural name;
* `Resource.collection`, `Resource.item`, `Resource.subresource` : the paths on a server;
* `Handle` : a resource within a namespace, or across all of them.

Names go into a path as they are.
-/

namespace KubeClient

/-- A collection of objects. The core group has no name. -/
structure Resource where
  group : String
  version : String
  plural : String
  deriving DecidableEq, Repr, Inhabited

namespace Resource

/-- A resource of the core group. -/
def core (plural : String) : Resource :=
  ⟨"", "v1", plural⟩

/-- Group and version, or the version alone in the core group. -/
def apiVersion (r : Resource) : String :=
  if r.group.isEmpty then r.version else r.group ++ "/" ++ r.version

/-- The path of the collection. -/
def collection (r : Resource) (scope : Option String) : String :=
  let root := if r.group.isEmpty then "/api/" ++ r.version else "/apis/" ++ r.group ++ "/" ++ r.version
  let scope := match scope with
    | none => ""
    | some name => "/namespaces/" ++ name
  root ++ scope ++ "/" ++ r.plural

/-- The path of one object. -/
def item (r : Resource) (scope : Option String) (name : String) : String :=
  r.collection scope ++ "/" ++ name

/-- The path of a part of one object. -/
def subresource (r : Resource) (scope : Option String) (name part : String) : String :=
  r.item scope name ++ "/" ++ part

/-- The plural name, and the group behind a point. -/
def text (r : Resource) : String :=
  if r.group.isEmpty then r.plural else r.plural ++ "." ++ r.group

/-- How a resource is inspected. -/
def inspect (r : Resource) : String :=
  Inspect.record "ResourcePath" [("group", Inspect.string r.group),
    ("version", Inspect.string r.version), ("plural", Inspect.string r.plural)]

end Resource

/-- A resource within a namespace, or across all of them. -/
structure Handle where
  resource : Resource
  scope : Option String
  deriving DecidableEq, Repr, Inhabited

namespace Handle

/-- The path of the collection. -/
def collection (h : Handle) : String :=
  h.resource.collection h.scope

/-- The path of one object. -/
def item (h : Handle) (name : String) : String :=
  h.resource.item h.scope name

/-- The path of a part of one object. -/
def subresource (h : Handle) (name part : String) : String :=
  h.resource.subresource h.scope name part

/-- How a handle on objects of the type `kind` is inspected. -/
def inspect (h : Handle) (kind : String) : String :=
  Inspect.openRecord "Api" [("resource", h.resource.inspect),
    ("namespace", Inspect.option Inspect.string h.scope), ("kind", Inspect.string kind)]

end Handle
end KubeClient
