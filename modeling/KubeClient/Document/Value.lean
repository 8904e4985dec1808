/-!
# Document values

The tree that a document denotes, whatever its notation.

* `Value` : null, booleans, numbers, strings, lists and objects, the members of an object in order;
* `Members.insert` : adds a member by the order of names, the last of equal names winning.
-/

namespace KubeClient

/-- An integer, or a double. -/
inductive Number
  | int (n : Int)
  | float (x : Float)
  deriving BEq, Inhabited

/-- A document. -/
inductive Value
  | null
  | bool (b : Bool)
  | number (n : Number)
  | string (s : String)
  | list (items : List Value)
  | object (members : List (String × Value))
  deriving BEq, Inhabited

namespace Members

/-- Adds a member where the order of names puts it. A member of that name is replaced. -/
def insert {α : Type} (name : String) (a : α) : List (String × α) → List (String × α)
  | [] => [(name, a)]
  | m :: ms =>
    if name < m.1 then (name, a) :: m :: ms
    else if name = m.1 then (name, a) :: ms
    else m :: insert name a ms

/-- The members in the order of their names, the last of equal names. -/
def ofList {α : Type} (ms : List (String × α)) : List (String × α) :=
  ms.foldl (fun sorted m => insert m.1 m.2 sorted) []

end Members

namespace Value

/-- The integer `n`. -/
def int (n : Int) : Value :=
  .number (.int n)

/-- The member of an object by name. -/
def get? (name : String) : Value → Option Value
  | .object ms => ms.lookup name
  | _ => none

end Value
end KubeClient
