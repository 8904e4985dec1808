/-!
# Calendar dates

The proleptic Gregorian calendar. A year is counted from March, so that the leap day is its last.

* `Date.toDays` : days since 1 January 1970;
* `Date.ofDays` : the date of a day.
-/

namespace KubeClient

/-- A day of the calendar; months and days count from one. -/
structure Date where
  year : Int
  month : Nat
  day : Nat
  deriving DecidableEq, Repr

namespace Date

/-- A leap year has 366 days. -/
def isLeap (year : Int) : Bool :=
  year % 4 = 0 && (year % 100 ≠ 0 || year % 400 = 0)

/-- The days of a month. -/
def daysInMonth (year : Int) (month : Nat) : Nat :=
  if month = 2 then (if isLeap year then 29 else 28)
  else if month = 4 ∨ month = 6 ∨ month = 9 ∨ month = 11 then 30
  else 31

/-- The date exists. -/
def Valid (d : Date) : Prop :=
  1 ≤ d.month ∧ d.month ≤ 12 ∧ 1 ≤ d.day ∧ d.day ≤ daysInMonth d.year d.month

instance (d : Date) : Decidable d.Valid :=
  inferInstanceAs (Decidable (_ ∧ _))

/-- Days from 1 March of year 0 to 1 January 1970. -/
def epoch : Int := 719468

/-- Days from 1 March to the first of the `m`-th month, March being month 0. -/
def daysBefore (m : Int) : Int :=
  (153 * m + 2) / 5

/-- Days from 1 March of year 0 to 1 March of `year`. -/
def daysBeforeYear (year : Int) : Int :=
  365 * year + year / 4 - year / 100 + year / 400

/-- Days since 1 January 1970. -/
def toDays (d : Date) : Int :=
  let year := if d.month ≤ 2 then d.year - 1 else d.year
  let month : Int := if d.month ≤ 2 then d.month + 9 else d.month - 3
  daysBeforeYear year + daysBefore month + (d.day - 1) - epoch

/-- The date of the `n`-th day since 1 January 1970. -/
def ofDays (n : Int) : Date :=
  let z := n + epoch
  let cycle := z / 146097
  let dayOfCycle := z % 146097
  let yearOfCycle :=
    (dayOfCycle - dayOfCycle / 1460 + dayOfCycle / 36524 - dayOfCycle / 146096) / 365
  let dayOfYear := dayOfCycle - daysBeforeYear yearOfCycle
  let month := (5 * dayOfYear + 2) / 153
  let year := 400 * cycle + yearOfCycle
  { year := if month < 10 then year else year + 1
    month := (if month < 10 then month + 3 else month - 9).toNat
    day := (dayOfYear - daysBefore month + 1).toNat }

end Date
end KubeClient
