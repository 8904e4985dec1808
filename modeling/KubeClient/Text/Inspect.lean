import KubeClient.Text.Codepoint

/-!
# Values as they are inspected

The text of a string between quotes, in which quotes, backslashes and unseen characters are
escaped, and the texts of options, lists and records built from such parts.
-/

namespace KubeClient.Inspect

/-- Lower-case hexadecimal digits without leading zeros. -/
def hex (n : Nat) : List Char :=
  Nat.toDigits 16 n

/-- One character inside quotes. -/
def escape (c : Char) : List Char :=
  if c = '\x00' then ['\\', '0']
  else if c = '\t' then ['\\', 't']
  else if c = '\n' then ['\\', 'n']
  else if c = '\r' then ['\\', 'r']
  else if c = '"' ∨ c = '\\' then ['\\', c]
  else if Codepoint.isVisible c then [c]
  else ['\\', 'u', '\x7b'] ++ hex c.toNat ++ ['\x7d']

/-- A string between quotes. -/
def string (s : String) : String :=
  String.ofList ('"' :: s.toList.flatMap escape ++ ['"'])

/-- An optional value, given the text of the value. -/
def option {α : Type} (text : α → String) : Option α → String
  | none => "None"
  | some a => "Some(" ++ text a ++ ")"

/-- A list, given the texts of its members. -/
def list (items : List String) : String :=
  "[" ++ ", ".intercalate items ++ "]"

/-- A record, given its fields. -/
def record (name : String) (fields : List (String × String)) : String :=
  name ++ " \x7b " ++ ", ".intercalate (fields.map fun f => f.1 ++ ": " ++ f.2) ++ " \x7d"

/-- A record of which only some fields are shown. -/
def openRecord (name : String) (fields : List (String × String)) : String :=
  name ++ " \x7b " ++ ", ".intercalate (fields.map fun f => f.1 ++ ": " ++ f.2) ++ ", .. \x7d"

end KubeClient.Inspect
