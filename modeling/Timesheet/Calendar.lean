/-!
The proleptic Gregorian calendar. Days are numbered from 1970-01-01; years may be negative or have
more than four digits.
-/

namespace Timesheet

structure Date where
  year : Int
  month : Nat
  day : Nat
  deriving DecidableEq

namespace Date

def isLeapYear (y : Int) : Bool :=
  y % 4 == 0 && (y % 100 != 0 || y % 400 == 0)

def daysInMonth (y : Int) (m : Nat) : Nat :=
  if m = 2 then (if isLeapYear y then 29 else 28)
  else if m = 4 ∨ m = 6 ∨ m = 9 ∨ m = 11 then 30
  else 31

def IsValid (d : Date) : Prop :=
  1 ≤ d.month ∧ d.month ≤ 12 ∧ 1 ≤ d.day ∧ d.day ≤ daysInMonth d.year d.month

instance (d : Date) : Decidable d.IsValid :=
  inferInstanceAs (Decidable (_ ∧ _ ∧ _ ∧ _))

/-- The number of a date, counted in years that begin in March so that a leap day comes last. -/
def dayNumber (d : Date) : Int :=
  let y := if d.month ≤ 2 then d.year - 1 else d.year
  let yearOfEra := y % 400
  let monthFromMarch : Int := if d.month ≤ 2 then d.month + 9 else d.month - 3
  let dayOfYear := (153 * monthFromMarch + 2) / 5 + d.day - 1
  let dayOfEra := yearOfEra * 365 + yearOfEra / 4 - yearOfEra / 100 + dayOfYear
  y / 400 * 146097 + dayOfEra - 719468

def ofDayNumber (n : Int) : Date :=
  let z := n + 719468
  let dayOfEra := z % 146097
  let yearOfEra :=
    (dayOfEra - dayOfEra / 1460 + dayOfEra / 36524 - dayOfEra / 146096) / 365
  let dayOfYear := dayOfEra - (365 * yearOfEra + yearOfEra / 4 - yearOfEra / 100)
  let monthFromMarch := (5 * dayOfYear + 2) / 153
  let day := dayOfYear - (153 * monthFromMarch + 2) / 5 + 1
  let month := if monthFromMarch < 10 then monthFromMarch + 3 else monthFromMarch - 9
  let y := z / 146097 * 400 + yearOfEra
  ⟨if month ≤ 2 then y + 1 else y, month.toNat, day.toNat⟩

def weekday (n : Int) : Nat :=
  ((n + 3) % 7).toNat

def dayOfYear (n : Int) : Nat :=
  (n - dayNumber ⟨(ofDayNumber n).year, 1, 1⟩ + 1).toNat

/-- A week belongs to the year that its Thursday falls in. -/
def weekYear (n : Int) : Int :=
  (ofDayNumber (n - weekday n + 3)).year

def weekOfYear (n : Int) : Nat :=
  (dayOfYear (n - weekday n + 3) - 1) / 7 + 1

def weeksBegunFrom (first : Nat) (n : Int) : Nat :=
  (dayOfYear n + 6 - (weekday n + 7 - first) % 7) / 7

end Date
end Timesheet
