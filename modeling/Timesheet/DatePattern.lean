import Timesheet.Instant.Text

/-!
Date patterns: literal text with directives that start with a percent sign. A pattern with a
directive that means nothing is rejected as a whole. Numbers take an optional padding mark, `-` for
none, `0` for zeros and `_` for spaces; names, fractions and composite directives take none.
-/

namespace Timesheet

namespace DatePattern

open Text

inductive Padding where
  | bare
  | zeros
  | spaces
  deriving DecidableEq

inductive Number where
  | year
  | century
  | yearOfCentury
  | weekYear
  | weekYearOfCentury
  | quarter
  | month
  | day
  | weekFromSunday
  | weekFromMonday
  | week
  | weekdayFromZero
  | weekdayFromOne
  | dayOfYear
  | hour
  | hourOfHalf
  | minute
  | second
  | nanosecond
  | unixSecond
  deriving DecidableEq

inductive Name where
  | shortMonth
  | longMonth
  | shortWeekday
  | longWeekday
  | lowerHalf
  | upperHalf
  | zone
  deriving DecidableEq

inductive Item where
  | literal (c : Char)
  | number (n : Number) (p : Padding)
  | name (n : Name)
  | shortestFraction
  | fraction (width : Nat) (point : Bool)
  | offset (s : List Char)
  | full
  deriving DecidableEq

def zeros (n : Number) : Item :=
  .number n .zeros

def spaces (n : Number) : Item :=
  .number n .spaces

def bare (n : Number) : Item :=
  .number n .bare

def separated (c : Char) : List Item → List Item
  | [] => []
  | [i] => [i]
  | i :: is => i :: .literal c :: separated c is

def hourAndMinute : List Item :=
  separated ':' [zeros .hour, zeros .minute]

def timeOfDay : List Item :=
  separated ':' [zeros .hour, zeros .minute, zeros .second]

def number? : Char → Option (Number × Padding)
  | 'C' => some (.century, .zeros)
  | 'G' => some (.weekYear, .zeros)
  | 'H' => some (.hour, .zeros)
  | 'I' => some (.hourOfHalf, .zeros)
  | 'M' => some (.minute, .zeros)
  | 'S' => some (.second, .zeros)
  | 'U' => some (.weekFromSunday, .zeros)
  | 'V' => some (.week, .zeros)
  | 'W' => some (.weekFromMonday, .zeros)
  | 'Y' => some (.year, .zeros)
  | 'd' => some (.day, .zeros)
  | 'e' => some (.day, .spaces)
  | 'f' => some (.nanosecond, .zeros)
  | 'g' => some (.weekYearOfCentury, .zeros)
  | 'j' => some (.dayOfYear, .zeros)
  | 'k' => some (.hour, .spaces)
  | 'l' => some (.hourOfHalf, .spaces)
  | 'm' => some (.month, .zeros)
  | 'q' => some (.quarter, .bare)
  | 's' => some (.unixSecond, .bare)
  | 'u' => some (.weekdayFromOne, .bare)
  | 'w' => some (.weekdayFromZero, .bare)
  | 'y' => some (.yearOfCentury, .zeros)
  | _ => none

def directive? (c : Char) : Option (List Item) :=
  match number? c with
  | some (n, p) => some [.number n p]
  | none =>
    match c with
    | 'A' => some [.name .longWeekday]
    | 'B' => some [.name .longMonth]
    | 'D' => some (separated '/' [zeros .month, zeros .day, zeros .yearOfCentury])
    | 'F' => some (separated '-' [zeros .year, zeros .month, zeros .day])
    | 'P' => some [.name .lowerHalf]
    | 'R' => some hourAndMinute
    | 'T' => some timeOfDay
    | 'X' => some timeOfDay
    | 'Z' => some [.name .zone]
    | 'a' => some [.name .shortWeekday]
    | 'b' => some [.name .shortMonth]
    | 'h' => some [.name .shortMonth]
    | 'c' =>
      some ([.name .shortWeekday, .literal ' ', .name .shortMonth, .literal ' ', spaces .day,
        .literal ' '] ++ timeOfDay ++ [.literal ' ', zeros .year])
    | 'n' => some [.literal '\n']
    | 'p' => some [.name .upperHalf]
    | 'r' =>
      some (separated ':' [zeros .hourOfHalf, zeros .minute, zeros .second] ++
        [.literal ' ', .name .upperHalf])
    | 't' => some [.literal '\t']
    | 'v' => some (separated '-' [spaces .day, .name .shortMonth, zeros .year])
    | 'x' => some (separated '/' [zeros .month, zeros .day, zeros .yearOfCentury])
    | 'z' => some [.offset "+0000".toList]
    | '+' => some [.full]
    | '%' => some [.literal '%']
    | _ => none

def padded? (p : Padding) (c : Char) : Option (List Item) :=
  (number? c).map fun n => [.number n.1 p]

def paddingMark? : Char → Option Padding
  | '-' => some .bare
  | '0' => some .zeros
  | '_' => some .spaces
  | _ => none

def prepend (is : Option (List Item)) (rest : Option (List Item)) : Option (List Item) :=
  is.bind fun is => rest.map (is ++ ·)

def items? : List Char → Option (List Item)
  | [] => some []
  | '%' :: ':' :: ':' :: ':' :: 'z' :: r => prepend (some [.offset "+00".toList]) (items? r)
  | '%' :: ':' :: ':' :: 'z' :: r => prepend (some [.offset "+00:00:00".toList]) (items? r)
  | '%' :: ':' :: 'z' :: r => prepend (some [.offset "+00:00".toList]) (items? r)
  | '%' :: '#' :: 'z' :: r => prepend (some [.offset "+0000".toList]) (items? r)
  | '%' :: '.' :: 'f' :: r => prepend (some [.shortestFraction]) (items? r)
  | '%' :: '.' :: '3' :: 'f' :: r => prepend (some [.fraction 3 true]) (items? r)
  | '%' :: '.' :: '6' :: 'f' :: r => prepend (some [.fraction 6 true]) (items? r)
  | '%' :: '.' :: '9' :: 'f' :: r => prepend (some [.fraction 9 true]) (items? r)
  | '%' :: '3' :: 'f' :: r => prepend (some [.fraction 3 false]) (items? r)
  | '%' :: '6' :: 'f' :: r => prepend (some [.fraction 6 false]) (items? r)
  | '%' :: '9' :: 'f' :: r => prepend (some [.fraction 9 false]) (items? r)
  | '%' :: '-' :: c :: r => prepend (padded? .bare c) (items? r)
  | '%' :: '0' :: c :: r => prepend (padded? .zeros c) (items? r)
  | '%' :: '_' :: c :: r => prepend (padded? .spaces c) (items? r)
  | '%' :: c :: r => prepend (directive? c) (items? r)
  | ['%'] => none
  | c :: r => prepend (some [.literal c]) (items? r)

def monthNames : List String :=
  ["January", "February", "March", "April", "May", "June", "July", "August", "September",
    "October", "November", "December"]

def weekdayNames : List String :=
  ["Monday", "Tuesday", "Wednesday", "Thursday", "Friday", "Saturday", "Sunday"]

def monthName (i : Instant) : List Char :=
  (monthNames.getD (i.date.month - 1) "").toList

def weekdayName (i : Instant) : List Char :=
  (weekdayNames.getD (Date.weekday i.dayNumber) "").toList

/-- Two digits of a byte. From 100 on, the tens run past the digits to the characters behind. -/
def byteChars (value : Nat) (p : Padding) : List Char :=
  let ones := digitChar value
  let tens := value / 10
  if tens = 0 then
    match p with
    | .bare => [ones]
    | .spaces => [' ', ones]
    | .zeros => ['0', ones]
  else [Char.ofNat ('0'.toNat + tens), ones]

def wideChars (width : Nat) (value : Int) (p : Padding) : List Char :=
  match p with
  | .bare => signedDigits value
  | .zeros => zeroPadded width value
  | .spaces => padStart width ' ' (signedDigits value)

/-- Years outside 0 to 9999 always show their sign, which widens the field by one. -/
def yearChars (year : Int) (p : Padding) : List Char :=
  if 0 ≤ year ∧ year ≤ 9999 then wideChars 4 year p
  else if year < 0 then wideChars 5 year p
  else
    match p with
    | .bare => '+' :: digits year.natAbs
    | .zeros => '+' :: padStart 4 '0' (digits year.natAbs)
    | .spaces => padStart 5 ' ' ('+' :: digits year.natAbs)

def byteOf (n : Int) : Nat :=
  (n % 256).toNat

def hourOfHalf (i : Instant) : Nat :=
  if i.hour % 12 = 0 then 12 else i.hour % 12

namespace Number

def render (i : Instant) (p : Padding) : Number → List Char
  | year => yearChars i.date.year p
  | century => byteChars (byteOf (i.date.year / 100)) p
  | yearOfCentury => byteChars (byteOf (i.date.year % 100)) p
  | weekYear => yearChars (Date.weekYear i.dayNumber) p
  | weekYearOfCentury => byteChars (byteOf (Date.weekYear i.dayNumber % 100)) p
  | quarter => [digitChar ((i.date.month - 1) / 3 + 1)]
  | month => byteChars i.date.month p
  | day => byteChars i.date.day p
  | weekFromSunday => byteChars (Date.weeksBegunFrom 6 i.dayNumber) p
  | weekFromMonday => byteChars (Date.weeksBegunFrom 0 i.dayNumber) p
  | week => byteChars (Date.weekOfYear i.dayNumber) p
  | weekdayFromZero => [digitChar ((Date.weekday i.dayNumber + 1) % 7)]
  | weekdayFromOne => [digitChar (Date.weekday i.dayNumber + 1)]
  | dayOfYear => wideChars 3 (Date.dayOfYear i.dayNumber) p
  | hour => byteChars i.hour p
  | hourOfHalf => byteChars (DatePattern.hourOfHalf i) p
  | minute => byteChars i.minute p
  | second => byteChars i.clockSecond p
  | nanosecond => wideChars 9 i.nanoOfSecond p
  | unixSecond => wideChars 9 i.second p

end Number

namespace Name

def render (i : Instant) : Name → List Char
  | shortMonth => (monthName i).take 3
  | longMonth => monthName i
  | shortWeekday => (weekdayName i).take 3
  | longWeekday => weekdayName i
  | lowerHalf => if i.hour < 12 then ['a', 'm'] else ['p', 'm']
  | upperHalf => if i.hour < 12 then ['A', 'M'] else ['P', 'M']
  | zone => ['U', 'T', 'C']

end Name

namespace Item

def render (i : Instant) : Item → List Char
  | literal c => [c]
  | number n p => n.render i p
  | name n => n.render i
  | shortestFraction => i.fractionChars
  | fraction width point =>
    (if point then ['.'] else []) ++ fixedDigits width (i.nanoOfSecond / Nat.pow 10 (9 - width))
  | offset s => s
  | full =>
    Instant.dateChars i.date ++ 'T' :: i.clockChars ++ i.fractionChars ++ "+00:00".toList

end Item

end DatePattern

structure DatePattern where
  items : List DatePattern.Item
  deriving DecidableEq

namespace DatePattern

def parse? (s : String) : Option DatePattern :=
  (items? s.toList).map DatePattern.mk

def render (p : DatePattern) (i : Instant) : String :=
  String.ofList (p.items.flatMap (Item.render i))

end DatePattern
end Timesheet
