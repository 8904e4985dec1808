import KubeClient.Document.Value
import KubeClient.Number.FloatText
import KubeClient.Text.Inspect

/-!
# Why a document does not have a shape

* `Found` : what stands where something else is expected;
* `Cause` : the reasons, whatever the notation;
* `Cause.message` : their words, given the words of the notation for what was found.
-/

namespace KubeClient

/-- What was found in a document. -/
inductive Found
  | null
  | bool (b : Bool)
  | int (n : Int)
  /-- An integer beyond 64 bits, with the name of its word. -/
  | wide (n : Int) (word : String)
  | float (x : Float)
  | string (s : String)
  | bytes
  | list
  | map
  | variant
  | option
  deriving Inhabited

/-- Why a document does not have a shape. -/
inductive Cause
  | wrongType (found : Found) (expected : String)
  | wrongValue (found : Found) (expected : String)
  | wrongLength (n : Nat) (expected : String)
  | missingField (name : String)
  | duplicateField (name : String)
  | unknownVariant (name : String) (known : List String)
  /-- A check refused the value. -/
  | refused (reason : String)
  deriving Inhabited

/-- How a notation words what was found, where notations differ. -/
structure Wording where
  null : String
  float : Float → String

/-- The words for what was found. -/
def Found.message (w : Wording) : Found → String
  | .null => w.null
  | .bool b => s!"boolean `{b}`"
  | .int n => s!"integer `{n}`"
  | .wide n word => s!"integer `{n}` as {word}"
  | .float x => s!"floating point `{w.float x}`"
  | .string s => s!"string {Inspect.string s}"
  | .bytes => "byte array"
  | .list => "sequence"
  | .map => "map"
  | .variant => "enum"
  | .option => "Option value"

/-- A choice of names, each in backquotes. -/
def Cause.choice : List String → String
  | [] => "there are no variants"
  | [a] => s!"`{a}`"
  | [a, b] => s!"`{a}` or `{b}`"
  | names => "one of " ++ ", ".intercalate (names.map fun n => s!"`{n}`")

/-- The words for a cause. -/
def Cause.message (w : Wording) : Cause → String
  | .wrongType found expected => s!"invalid type: {found.message w}, expected {expected}"
  | .wrongValue found expected => s!"invalid value: {found.message w}, expected {expected}"
  | .wrongLength n expected => s!"invalid length {n}, expected {expected}"
  | .missingField name => s!"missing field `{name}`"
  | .duplicateField name => s!"duplicate field `{name}`"
  | .unknownVariant name known => s!"unknown variant `{name}`, expected {choice known}"
  | .refused reason => reason

end KubeClient
