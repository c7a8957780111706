import Timesheet.Calendar

/-!
Instants of civil time in UTC: a second since 1970 and nanoseconds in it. A leap second has no
number of its own; it is the last second of a minute with a nanosecond field of one second or more,
and may end any minute. Arithmetic takes a leap second for a part of the second before it.
-/

namespace Timesheet

def nanosPerSecond : Nat := 1000000000

def secondsPerDay : Int := 86400

namespace Instant

/-- The first second of the year -262143. -/
def firstSecond : Int := -8334601228800

/-- The last second of the year 262142. -/
def lastSecond : Int := 8210266876799

end Instant

/-- A leap second always ends a minute. One within a minute could be computed, but it has no text of
its own, so no clock, row, argument or exchanged record can hold one, and it is left out here. -/
structure Instant where
  second : Int
  nano : Nat
  first_le : Instant.firstSecond ≤ second
  le_last : second ≤ Instant.lastSecond
  nano_lt : nano < 2 * nanosPerSecond
  leap_ends_minute : nanosPerSecond ≤ nano → second % 60 = 59
  deriving DecidableEq

namespace Instant

def of? (second : Int) (nano : Nat) : Option Instant :=
  if h : firstSecond ≤ second ∧ second ≤ lastSecond ∧ nano < 2 * nanosPerSecond ∧
      (nanosPerSecond ≤ nano → second % 60 = 59) then
    some ⟨second, nano, h.1, h.2.1, h.2.2.1, h.2.2.2⟩
  else none

def earliest : Instant :=
  ⟨firstSecond, 0, by decide, by decide, by decide, by simp [nanosPerSecond]⟩

instance : LT Instant :=
  ⟨fun a b => a.second < b.second ∨ (a.second = b.second ∧ a.nano < b.nano)⟩

instance : LE Instant :=
  ⟨fun a b => a.second < b.second ∨ (a.second = b.second ∧ a.nano ≤ b.nano)⟩

instance (a b : Instant) : Decidable (a < b) :=
  inferInstanceAs (Decidable (_ ∨ _))

instance (a b : Instant) : Decidable (a ≤ b) :=
  inferInstanceAs (Decidable (_ ∨ _))

def isLeap (i : Instant) : Bool :=
  nanosPerSecond ≤ i.nano

def wholeSecond (i : Instant) : Instant :=
  if h : nanosPerSecond ≤ i.nano then
    ⟨i.second, nanosPerSecond, i.first_le, i.le_last, by decide,
      fun _ => i.leap_ends_minute h⟩
  else ⟨i.second, 0, i.first_le, i.le_last, by decide, by simp [nanosPerSecond]⟩

/-- Nothing but a second: the nanosecond field is zero, or one second in a leap second. -/
def IsWhole (i : Instant) : Prop :=
  i.nano = 0 ∨ i.nano = nanosPerSecond

instance (i : Instant) : Decidable i.IsWhole :=
  inferInstanceAs (Decidable (_ ∨ _))

/-- Moves by a number of seconds. From a leap second on, later seconds count from its beginning and
earlier ones from its end. -/
def addSeconds? (i : Instant) (d : Int) : Option Instant :=
  if d = 0 then some i
  else if i.isLeap then
    of? (if 0 < d then i.second + d else i.second + 1 + d) (i.nano - nanosPerSecond)
  else of? (i.second + d) i.nano

def dayNumber (i : Instant) : Int :=
  i.second / secondsPerDay

def secondOfDay (i : Instant) : Int :=
  i.second % secondsPerDay

/-- Whole seconds from one instant to another, cut off toward zero. A leap second between the two
is counted only if they lie on different sides of it by the clock of a day. -/
def secondsUntil (a b : Instant) : Int :=
  let leap : Int :=
    if a.secondOfDay < b.secondOfDay ∧ a.isLeap then 1
    else if b.secondOfDay < a.secondOfDay ∧ b.isLeap then -1
    else 0
  let seconds :=
    (b.dayNumber - a.dayNumber) * secondsPerDay + (b.secondOfDay - a.secondOfDay) + leap
  Int.tdiv (seconds * nanosPerSecond + ((b.nano : Int) - a.nano)) nanosPerSecond

/-- The first second of the year 0. -/
def firstStorable : Int := -62167219200

/-- The last second of the year 9999. -/
def lastStorable : Int := 253402300799

/-- Its year has four digits, so that stored text sorts like the instants it denotes. -/
def IsStorable (i : Instant) : Prop :=
  firstStorable ≤ i.second ∧ i.second ≤ lastStorable

instance (i : Instant) : Decidable i.IsStorable :=
  inferInstanceAs (Decidable (_ ∧ _))

/-- The nearest second with a four-digit year; a storable instant stays as it is. -/
def clampStorable (i : Instant) : Instant :=
  if i.second < firstStorable then
    ⟨firstStorable, 0, by decide, by decide, by decide, by simp [nanosPerSecond]⟩
  else if lastStorable < i.second then
    ⟨lastStorable, 0, by decide, by decide, by decide, by simp [nanosPerSecond]⟩
  else i

end Instant
end Timesheet
