import Timesheet.Instant
import Timesheet.Text.Digit

/-!
The written forms of an instant. The stamp has whole seconds and is what a database row holds; the
exchange text adds the shortest exact fraction of 3, 6 or 9 digits; the display is for messages.
Years outside 0 to 9999 carry a sign.
-/

namespace Timesheet.Instant

open Text

def yearChars (y : Int) : List Char :=
  if 0 ≤ y ∧ y ≤ 9999 then fixedDigits 4 y.toNat
  else (if y < 0 then '-' else '+') :: padStart 4 '0' (digits y.natAbs)

def dateChars (d : Date) : List Char :=
  yearChars d.year ++ '-' :: fixedDigits 2 d.month ++ '-' :: fixedDigits 2 d.day

def date (i : Instant) : Date :=
  Date.ofDayNumber i.dayNumber

def hour (i : Instant) : Nat :=
  (i.secondOfDay / 3600).toNat

def minute (i : Instant) : Nat :=
  (i.secondOfDay / 60 % 60).toNat

/-- The second shown on a clock, 60 in a leap second. -/
def clockSecond (i : Instant) : Nat :=
  (i.secondOfDay % 60).toNat + i.nano / nanosPerSecond

def nanoOfSecond (i : Instant) : Nat :=
  i.nano % nanosPerSecond

def clockChars (i : Instant) : List Char :=
  fixedDigits 2 i.hour ++ ':' :: fixedDigits 2 i.minute ++ ':' :: fixedDigits 2 i.clockSecond

def fractionChars (i : Instant) : List Char :=
  let n := i.nanoOfSecond
  if n = 0 then []
  else if n % 1000000 = 0 then '.' :: fixedDigits 3 (n / 1000000)
  else if n % 1000 = 0 then '.' :: fixedDigits 6 (n / 1000)
  else '.' :: fixedDigits 9 n

def stampChars (i : Instant) : List Char :=
  dateChars i.date ++ 'T' :: i.clockChars ++ ['Z']

def stamp (i : Instant) : String :=
  String.ofList i.stampChars

def text (i : Instant) : String :=
  String.ofList (dateChars i.date ++ 'T' :: i.clockChars ++ i.fractionChars ++ ['Z'])

def display (i : Instant) : String :=
  String.ofList (dateChars i.date ++ ' ' :: i.clockChars ++ i.fractionChars) ++ " UTC"

end Timesheet.Instant
