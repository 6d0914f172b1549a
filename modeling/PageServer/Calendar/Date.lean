/-
# Dates

Days of the Gregorian calendar, which is extended to all years before and after
it was in use.

* `Date.isLeap`, `Date.daysIn`: the length of years and months
* `Date.ofParts?`: the day with a year, a month, and a number in the month
-/

namespace PageServer

/-- A year, a month, and a number in the month. -/
structure Date where
  /-- The year; the year before the first is zero. -/
  year : Int
  /-- The month, from one to twelve. -/
  month : Nat
  /-- The number of the day in the month, from one. -/
  day : Nat
  deriving DecidableEq, Repr

namespace Date

/-- Whether a year has a leap day: every fourth year has, but of the full centuries only every
fourth. -/
def isLeap (year : Int) : Bool :=
  decide (year % 4 = 0 ∧ (year % 100 ≠ 0 ∨ year % 400 = 0))

/-- The number of days of a month; a month that does not exist has none. -/
def daysIn (year : Int) (month : Nat) : Nat :=
  match month with
  | 1 | 3 | 5 | 7 | 8 | 10 | 12 => 31
  | 4 | 6 | 9 | 11 => 30
  | 2 => if isLeap year then 29 else 28
  | _ => 0

/-- The first year that is counted. -/
def firstYear : Int := -262143

/-- The last year that is counted. -/
def lastYear : Int := 262142

/-- Whether there is such a day. -/
def Exists (date : Date) : Prop :=
  firstYear ≤ date.year ∧ date.year ≤ lastYear ∧ 1 ≤ date.day
    ∧ date.day ≤ daysIn date.year date.month

instance (date : Date) : Decidable date.Exists :=
  inferInstanceAs (Decidable (_ ∧ _ ∧ _ ∧ _))

/-- The day with a year, a month, and a number in the month, if there is one. -/
def ofParts? (year : Int) (month day : Nat) : Option Date :=
  let date : Date := { year, month, day }
  if date.Exists then some date else none

end Date
end PageServer
