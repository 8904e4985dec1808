import KubeClient.Shell.Reader

/-!
# Formulas

Formulas of 64-bit integers and variables, which may also set variables.

* `Shell.Formula.Symbol` : a number, a variable, or an operator;
* `Shell.Formula.integer?` : a number with an optional base in front;
* `Shell.Formula.value` : the value of a formula, and the variables that it sets.
-/

namespace KubeClient.Shell.Formula

/-! ### Numbers -/

/-- Characters between which numbers and words stand. -/
def isSpace (c : Char) : Bool :=
  c == ' ' || ('\t' ≤ c && c ≤ '\r')

/-- The value of a digit, whatever the base. -/
def digit (c : Char) : Nat :=
  if c.isDigit then c.toNat - 48
  else if 'a' ≤ c ∧ c ≤ 'z' then c.toNat - 87
  else if 'A' ≤ c ∧ c ≤ 'Z' then c.toNat - 55
  else 99

/-- Digits in front, and what follows them. -/
def spanBase (base : Nat) (cs : Text) : Text × Text :=
  cs.span fun c => digit c < base

/-- The value of digits. -/
def ofDigits (base : Nat) (ds : Text) : Nat :=
  ds.foldl (fun n c => n * base + digit c) 0

/-- A number without a sign in front, and what follows it. A zero in front makes it octal, and `0x`
makes it hexadecimal. -/
def natural? (cs : Text) : Option (Nat × Text) :=
  let read (base : Nat) (cs : Text) : Option (Nat × Text) :=
    let (ds, rest) := spanBase base cs
    if ds.isEmpty then none else some (ofDigits base ds, rest)
  match cs with
  | '0' :: x :: more =>
    let based := if x = 'x' ∨ x = 'X' then read 16 more else none
    based.or (read 8 cs)
  | cs => if cs.head? = some '0' then read 8 cs else read 10 cs

/-- The largest number. -/
def maxInt : Int := 2 ^ 63 - 1

/-- A number as a word of 64 bits holds it. -/
def wrap (n : Int) : Int :=
  n.bmod (2 ^ 64)

/-- The text of a whole number; blanks may stand around it. An empty one is zero. -/
def integer? (text : Text) : Option Int :=
  let cs := text.dropWhile isSpace
  let (negative, ds) := match cs with
    | '-' :: ds => (true, ds)
    | '+' :: ds => (false, ds)
    | ds => (false, ds)
  match natural? ds with
  | some (n, rest) =>
    let n : Int := if negative then -n else n
    if rest.all isSpace && -maxInt - 1 ≤ n && n ≤ maxInt then some n else none
  | none => if text.all isSpace then some 0 else none

/-- The text of a decimal number; blanks may stand around it. -/
def decimal? (text : Text) : Option Int :=
  let cs := text.dropWhile isSpace
  let (negative, ds) := match cs with
    | '-' :: ds => (true, ds)
    | '+' :: ds => (false, ds)
    | ds => (false, ds)
  let (ds, rest) := spanBase 10 ds
  let n : Int := if negative then -(ofDigits 10 ds : Int) else ofDigits 10 ds
  if ds.isEmpty || !rest.all isSpace || n < -maxInt - 1 || maxInt < n then none else some n

/-! ### Symbols -/

/-- A number, a variable, or an operator. -/
inductive Symbol
  | number (n : Int)
  | name (text : Text)
  | op (text : String)
  deriving DecidableEq, Repr, Inhabited

/-- The operators, longer ones first. -/
def operators : List String :=
  ["<<=", ">>=", "<<", ">>", "<=", ">=", "==", "!=", "&&", "||", "*=", "/=", "%=", "+=", "-=",
    "&=", "^=", "|=", "=", "<", ">", "!", "~", "&", "^", "|", "*", "/", "%", "+", "-", "(", ")",
    "?", ":"]

/-- The symbols of a formula; what makes no sense is an operator without a name. -/
def symbols : Nat → Text → List Symbol
  | 0, _ => []
  | fuel + 1, cs =>
    match cs with
    | [] => []
    | c :: more =>
      if isSpace c then symbols fuel more
      else if c.isDigit then
        match natural? cs with
        | some (n, rest) => .number (min n maxInt) :: symbols fuel rest
        | none => [.op ""]
      else if beginsName c then .name (cs.takeWhile isName) :: symbols fuel (cs.dropWhile isName)
      else match operators.find? fun op => op.toList.isPrefixOf cs with
        | some op => .op op :: symbols fuel (cs.drop op.length)
        | none => [.op ""]

/-! ### Values -/

/-- Why a formula has no value. -/
inductive Fault
  | noPrimary
  | noEnd
  | noParenthesis
  | noColon
  | divisionByZero
  /-- A variable does not hold a number. -/
  | badNumber (text : Text)
  deriving DecidableEq, Repr, Inhabited

/-- The words for a fault in a formula. -/
def Fault.words (formula : Text) : Fault → String
  | .noPrimary => wrong "expecting primary"
  | .noEnd => wrong "expecting EOF"
  | .noParenthesis => wrong "expecting ')'"
  | .noColon => wrong "expecting ':'"
  | .divisionByZero => wrong "division by zero"
  | .badNumber text => "Illegal number: " ++ text.decoded
where
  /-- What is wrong with the formula. -/
  wrong (what : String) : String :=
    "arithmetic expression: " ++ what ++ ": \"" ++ formula.decoded ++ "\""

/-- The symbols that are left, and the variables that were set. -/
structure Desk where
  rest : List Symbol
  set : List (Text × Int)

/-- Finds the value of what stands in front. -/
abbrev Reckoner := EStateM Fault Desk

/-- The value of a truth. -/
def ofBool (b : Bool) : Int := if b then 1 else 0

/-- Bits of two numbers joined one by one. -/
def bitwise (f : BitVec 64 → BitVec 64 → BitVec 64) (a b : Int) : Int :=
  (f (BitVec.ofInt 64 a) (BitVec.ofInt 64 b)).toInt

/-- How tightly an operator binds; a smaller number binds more tightly. -/
def precedence? : String → Option Nat
  | "*" | "/" | "%" => some 0
  | "+" | "-" => some 1
  | "<<" | ">>" => some 2
  | "<" | "<=" | ">" | ">=" => some 3
  | "==" | "!=" => some 4
  | "&" => some 5
  | "^" => some 6
  | "|" => some 7
  | _ => none

/-- The value of two numbers joined by an operator. -/
def apply (op : String) (a b : Int) : Except Fault Int :=
  let shift := (b % 64).toNat
  match op with
  | "*" => .ok (wrap (a * b))
  | "/" => if b = 0 then .error .divisionByZero else .ok (wrap (a.tdiv b))
  | "%" => if b = 0 then .error .divisionByZero else .ok (a.tmod b)
  | "+" => .ok (wrap (a + b))
  | "-" => .ok (wrap (a - b))
  | "<<" => .ok (wrap (a * 2 ^ shift))
  | ">>" => .ok (a.fdiv (2 ^ shift))
  | "<" => .ok (ofBool (a < b))
  | "<=" => .ok (ofBool (a ≤ b))
  | ">" => .ok (ofBool (b < a))
  | ">=" => .ok (ofBool (b ≤ a))
  | "==" => .ok (ofBool (a = b))
  | "!=" => .ok (ofBool (a ≠ b))
  | "&" => .ok (bitwise (· &&& ·) a b)
  | "^" => .ok (bitwise (· ^^^ ·) a b)
  | _ => .ok (bitwise (· ||| ·) a b)

namespace Reckoner

/-- The value of a variable. -/
def lookup (value : Text → Text) (name : Text) : Reckoner Int := do
  match (← get).set.lookup name with
  | some n => return n
  | none =>
    match integer? (value name) with
    | some n => return n
    | none => throw (.badNumber (value name))

/-- Takes the operator if it comes next. -/
def take? (op : String) : Reckoner Bool := do
  let s ← get
  if s.rest.head? = some (.op op) then
    set { s with rest := s.rest.tail }
    return true
  else return false

/-- The outcome of an operator; what does not count has none. -/
def outcome (counts : Bool) (op : String) (a b : Int) : Reckoner Int := do
  if !counts then return b
  match apply op a b with
  | .ok n => return n
  | .error f => throw f

/-- The operator that comes next, if it binds more tightly than `limit`. -/
def tighter? (limit : Nat) : Reckoner (Option (String × Nat)) := do
  match (← get).rest with
  | .op op :: _ => return (precedence? op).bind fun p => if p < limit then some (op, p) else none
  | _ => return none

/-- The operators that set a variable, and what they do with its value before. -/
def assigner? : String → Option (Option String)
  | "=" => some none
  | "<<=" => some (some "<<")
  | ">>=" => some (some ">>")
  | "*=" => some (some "*")
  | "/=" => some (some "/")
  | "%=" => some (some "%")
  | "+=" => some (some "+")
  | "-=" => some (some "-")
  | "&=" => some (some "&")
  | "^=" => some (some "^")
  | "|=" => some (some "|")
  | _ => none

variable (value : Text → Text)

mutual

/-- A number, a variable, or a formula in parentheses, behind signs. -/
def primary (counts : Bool) : Nat → Reckoner Int
  | 0 => throw .noPrimary
  | fuel + 1 => do
    let s ← get
    let after : Reckoner Unit := set { s with rest := s.rest.tail }
    match s.rest.head? with
    | some (.number n) =>
      after
      return n
    | some (.name name) =>
      after
      if counts then lookup value name else return 0
    | some (.op "(") =>
      after
      let n ← assignment counts fuel
      if ← take? ")" then return n else throw .noParenthesis
    | some (.op "+") =>
      after
      primary counts fuel
    | some (.op "-") =>
      after
      return wrap (-(← primary counts fuel))
    | some (.op "!") =>
      after
      return ofBool ((← primary counts fuel) = 0)
    | some (.op "~") =>
      after
      return -(← primary counts fuel) - 1
    | _ => throw .noPrimary

/-- What follows a value `a`, as long as operators bind more tightly than `limit`. -/
def climb (counts : Bool) (limit : Nat) (a : Int) : Nat → Reckoner Int
  | 0 => return a
  | fuel + 1 => do
    match ← tighter? limit with
    | none => return a
    | some (op, p) =>
      let _ ← take? op
      let b ← climb counts p (← primary counts fuel) fuel
      climb counts limit (← outcome counts op a b) fuel

/-- Values joined by `&&`. -/
def conjunction (counts : Bool) : Nat → Reckoner Int
  | 0 => throw .noPrimary
  | fuel + 1 => do
    let a ← climb counts 8 (← primary counts fuel) fuel
    if ← take? "&&" then
      let b ← conjunction (counts && a ≠ 0) fuel
      return ofBool (a ≠ 0 ∧ b ≠ 0)
    else return a

/-- Values joined by `||`. -/
def disjunction (counts : Bool) : Nat → Reckoner Int
  | 0 => throw .noPrimary
  | fuel + 1 => do
    let a ← conjunction counts fuel
    if ← take? "||" then
      let b ← disjunction (counts && a = 0) fuel
      return ofBool (a ≠ 0 ∨ b ≠ 0)
    else return a

/-- One of two values. -/
def choice (counts : Bool) : Nat → Reckoner Int
  | 0 => throw .noPrimary
  | fuel + 1 => do
    let a ← disjunction counts fuel
    if ← take? "?" then
      let b ← assignment (counts && a ≠ 0) fuel
      if ← take? ":" then
        let c ← choice (counts && a = 0) fuel
        return if a ≠ 0 then b else c
      else throw .noColon
    else return a

/-- A value that a variable may be set to. -/
def assignment (counts : Bool) : Nat → Reckoner Int
  | 0 => throw .noPrimary
  | fuel + 1 => do
    match (← get).rest with
    | .name name :: .op op :: rest =>
      match assigner? op with
      | none => choice counts fuel
      | some before =>
        modify ({ · with rest })
        let b ← assignment counts fuel
        if !counts then return b
        let n ← match before with
          | none => pure b
          | some op => outcome true op (← lookup value name) b
        modify fun s => { s with set := (name, n) :: s.set }
        return n
    | _ => choice counts fuel

end

end Reckoner

/-- The value of a formula, and the variables that it sets, first ones first. -/
def value (lookup : Text → Text) (formula : Text) : Except Fault (Int × List (Text × Int)) :=
  let rest := symbols (formula.length + 1) formula
  match Reckoner.assignment lookup true (8 * rest.length + 16) ⟨rest, []⟩ with
  | .ok n s => if s.rest.isEmpty then .ok (n, s.set.reverse) else .error .noEnd
  | .error f _ => .error f

end KubeClient.Shell.Formula
