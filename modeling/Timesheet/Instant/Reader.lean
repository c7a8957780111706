import Timesheet.Instant
import Timesheet.Text.Blank
import Timesheet.Text.Digit

/-!
Reading instants. The strict form has a four-digit year, two digits everywhere else and an offset
of at most 23:59. The lenient form also takes signed years, short numbers, blanks between the parts,
and `UTC` for the offset. Both drop digits of the fraction beyond the ninth.
-/

namespace Timesheet.Instant

open Text

/-- A date, a time of day and an offset from UTC in seconds, as they were written. -/
structure Written where
  date : Date
  hour : Nat
  minute : Nat
  second : Nat
  nano : Nat
  offset : Int

namespace Written

def instant? (w : Written) : Option Instant :=
  if w.date.IsValid ∧ -262143 ≤ w.date.year ∧ w.date.year ≤ 262142 ∧
      w.hour ≤ 23 ∧ w.minute ≤ 59 ∧ w.second ≤ 60 ∧ w.offset.natAbs < 86400 then
    let start := w.date.dayNumber * secondsPerDay + w.hour * 3600 + w.minute * 60 - w.offset
    if w.second = 60 then of? (start + 59) (w.nano + nanosPerSecond)
    else of? (start + w.second) w.nano
  else none

end Written

abbrev Reader := StateT (List Char) Option

def number (least most : Nat) : Reader Nat := fun s =>
  let ds := (s.takeWhile Char.isDigit).take most
  if ds.length < least then none else some (numberOf ds, s.drop ds.length)

def char (c : Char) : Reader Unit
  | d :: s => if c = d then some ((), s) else none
  | [] => none

def skipWhile (p : Char → Bool) : Reader Unit := fun s =>
  some ((), s.dropWhile p)

def skipBlanks : Reader Unit :=
  skipWhile isBlank

def finish : Reader Unit
  | [] => some ((), [])
  | _ :: _ => none

/-- An optional fraction in nanoseconds; more than nine digits are read and dropped. -/
def fraction : Reader Nat
  | '.' :: s =>
    let ds := (s.takeWhile Char.isDigit).take 9
    if ds = [] then none
    else some (numberOf ds * Nat.pow 10 (9 - ds.length), s.dropWhile Char.isDigit)
  | s => some (0, s)

def sign : Reader Int
  | '+' :: s => some (1, s)
  | '-' :: s => some (-1, s)
  | '\u2212' :: s => some (-1, s)
  | _ => none

def signedOffset (separator : Reader Unit) : Reader Int := do
  let direction ← sign
  let hours ← number 2 2
  separator
  let minutes ← number 2 2
  if minutes ≤ 59 then pure (direction * (hours * 3600 + minutes * 60)) else failure

def offset (separator : Reader Unit) : Reader Int
  | 'Z' :: s => some (0, s)
  | 'z' :: s => some (0, s)
  | s => signedOffset separator s

def dateTimeSeparator : Reader Unit
  | c :: s => if c == 'T' || c == 't' || c == ' ' then some ((), s) else none
  | [] => none

def strict : Reader Written := do
  let year ← number 4 4
  char '-'
  let month ← number 2 2
  char '-'
  let day ← number 2 2
  dateTimeSeparator
  let hour ← number 2 2
  char ':'
  let minute ← number 2 2
  char ':'
  let second ← number 2 2
  let nano ← fraction
  let offset ← offset (char ':')
  finish
  return ⟨⟨year, month, day⟩, hour, minute, second, nano, offset⟩

def year : Reader Int
  | '-' :: s => ((fun n : Nat => -(n : Int)) <$> number 1 s.length).run s
  | '+' :: s => (Int.ofNat <$> number 1 s.length).run s
  | s => (Int.ofNat <$> number 1 4).run s

def shortNumber : Reader Nat := do
  skipBlanks
  number 1 2

def charAfterBlanks (c : Char) : Reader Unit := do
  skipBlanks
  char c

/-- The offset may have blanks for colons, or be `UTC` in either case. -/
def lenientOffset : Reader Int := fun s =>
  if (s.take 3).map Char.toUpper = ['U', 'T', 'C'] then some (0, s.drop 3)
  else offset (skipWhile fun c => c == ':' || isBlank c) s

def lenient : Reader Written := do
  skipBlanks
  let year ← year
  charAfterBlanks '-'
  let month ← shortNumber
  charAfterBlanks '-'
  let day ← shortNumber
  dateTimeSeparator
  let hour ← shortNumber
  charAfterBlanks ':'
  let minute ← shortNumber
  charAfterBlanks ':'
  let second ← shortNumber
  let nano ← fraction
  skipBlanks
  let offset ← lenientOffset
  skipBlanks
  finish
  return ⟨⟨year, month, day⟩, hour, minute, second, nano, offset⟩

def ofStamp? (s : String) : Option Instant :=
  (strict.run' s.toList).bind Written.instant?

def ofText? (s : String) : Option Instant :=
  (lenient.run' s.toList).bind Written.instant?

end Timesheet.Instant
