import KubeClient.Codec.Serializer

/-!
# Serializers by content type

* `MediaType.normal` : a content type without parameters and blanks, in lower case;
* `Registry` : which notation stands behind a media type, and the default one;
* `Setting`, `Registry.ofSettings` : what is said about a registry, and the registry that comes of
  it;
* `Registry.serializerFor` : the serializer of a content type.
-/

namespace KubeClient

namespace MediaType

def json : String := "application/json"
def yaml : String := "application/yaml"
def mergePatch : String := "application/merge-patch+json"
def strategicMergePatch : String := "application/strategic-merge-patch+json"
def jsonPatch : String := "application/json-patch+json"
def applyPatch : String := "application/apply-patch+yaml"

/-- A content type without parameters and blanks, in lower case. -/
def normal (contentType : String) : String :=
  String.ofList ((Blank.trimChars (contentType.toList.takeWhile (· != ';'))).map Char.toLower)

end MediaType

/-- What is said about a registry while it is set up. -/
inductive Setting
  /-- A content type stands for a notation. -/
  | register (contentType : String) (format : Format)
  /-- A content type is the default. -/
  | prefer (contentType : String)
  deriving DecidableEq, Repr, Inhabited

/-- Which notation stands behind a media type; the last entry of a type counts. -/
structure Registry where
  formats : List (String × Format)
  defaultType : String
  deriving Repr

namespace Registry

/-- The types that are always known. -/
def builtin : List (String × Format) :=
  [(MediaType.json, .json), (MediaType.mergePatch, .json), (MediaType.strategicMergePatch, .json),
   (MediaType.jsonPatch, .json), (MediaType.yaml, .yaml), (MediaType.applyPatch, .yaml)]

/-- The notation of a normal media type. -/
def format? (formats : List (String × Format)) (media : String) : Option Format :=
  (formats.reverse.find? fun f => f.1 == media).map (·.2)

/-- A registry that is still being set up: the default may not be known yet. -/
structure Draft where
  formats : List (String × Format)
  defaultType : String
  deriving Repr

namespace Draft

/-- Nothing has been said. -/
def start : Draft := ⟨builtin, MediaType.json⟩

/-- One more thing is said. -/
def set (d : Draft) : Setting → Draft
  | .register contentType format =>
    { d with formats := d.formats ++ [(MediaType.normal contentType, format)] }
  | .prefer contentType => { d with defaultType := MediaType.normal contentType }

/-- A default that is not known gives way to JSON. -/
def build (d : Draft) : Registry where
  formats := d.formats
  defaultType := if (format? d.formats d.defaultType).isSome then d.defaultType else MediaType.json

end Draft

/-- The registry that comes of settings, made one after the other. -/
def ofSettings (settings : List Setting) : Registry :=
  (settings.foldl Draft.set .start).build

/-- The registry of the known types and `extra`, which come later, with a default. -/
def ofList (extra : List (String × Format)) (default : Option String) : Registry :=
  ofSettings (extra.map (fun e => .register e.1 e.2) ++ default.toList.map .prefer)

instance : Inhabited Registry := ⟨ofList [] none⟩

/-- The serializer of a content type. -/
def serializerFor (r : Registry) (contentType : String) : Except SerializationError Serializer :=
  let media := MediaType.normal contentType
  match format? r.formats media with
  | some f => .ok ⟨media, f⟩
  | none => .error (.unsupported media)

/-- The serializer of the default type. -/
def defaultSerializer (r : Registry) : Serializer :=
  ⟨r.defaultType, (format? r.formats r.defaultType).getD .json⟩

end Registry
end KubeClient
