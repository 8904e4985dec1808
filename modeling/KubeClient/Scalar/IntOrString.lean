import KubeClient.Text.Numeral

/-!
# A number or a string

A field such as a port or a share may hold either form; the form that was read is kept.
-/

namespace KubeClient

/-- A 32-bit number, or a string. -/
inductive IntOrString
  | int (n : Int) (fits : Fits 32 n)
  | string (s : String)
  deriving DecidableEq, Repr

namespace IntOrString

/-- The number zero. -/
def zero : IntOrString :=
  .int 0 fits_zero

instance : Inhabited IntOrString := ⟨zero⟩

/-- The number `n`, if a 32-bit word holds it. -/
def ofInt? (n : Int) : Option IntOrString :=
  if h : Fits 32 n then some (.int n h) else none

/-- The text of either form. -/
def text : IntOrString → String
  | .int n _ => String.ofList (Numeral.ofInt n)
  | .string s => s

/-- The percentage that `N%` states. -/
def percent? (s : String) : Option Int :=
  match s.toList.reverse with
  | '%' :: ds => Numeral.toInt? 64 ds.reverse
  | _ => none

/-- `percent` hundredths of `total`, rounded up or down. -/
def share (percent total : Int) (roundUp : Bool) : Int :=
  let product := percent * total
  Int.fdiv product 100 + if roundUp && product % 100 ≠ 0 then 1 else 0

/-- The value against `total`: a number stands for itself, a percentage is a share of `total`, and
other strings have none. -/
def scaled? (v : IntOrString) (total : Int) (roundUp : Bool) : Option Int :=
  match v with
  | .int n _ => some n
  | .string s => do
    let percent ← percent? s
    let n := share percent total roundUp
    if Fits 32 n then some n else none

end IntOrString
end KubeClient
