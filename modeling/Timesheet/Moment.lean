import Timesheet.Instant.Reader
import Timesheet.Text.Quoted
import Timesheet.Word

/-!
Moments as people write them: the word `now`, an instant, or a time span before now such as
`2 hours ago`.
-/

namespace Timesheet

inductive TimeUnit where
  | second
  | minute
  | hour
  | day
  | week
  deriving DecidableEq

namespace TimeUnit

def text : TimeUnit → String
  | second => "second"
  | minute => "minute"
  | hour => "hour"
  | day => "day"
  | week => "week"

def seconds : TimeUnit → Int
  | second => 1
  | minute => 60
  | hour => 3600
  | day => 86400
  | week => 604800

def all : List TimeUnit :=
  [second, minute, hour, day, week]

end TimeUnit

inductive CountFault where
  | invalidDigit
  | tooLarge
  deriving DecidableEq

def CountFault.message : CountFault → String
  | invalidDigit => "invalid digit found in string"
  | tooLarge => "number too large to fit in target type"

inductive MomentFault where
  | unreadable (text : String)
  | count (f : CountFault)
  | tooLarge (count : Int) (unit : TimeUnit)
  deriving DecidableEq

namespace MomentFault

def message : MomentFault → String
  | unreadable text =>
    "Invalid datetime: " ++ text ++
      ". Use ISO 8601 (e.g., 2021-10-01T08:00:00Z) or relative (e.g., '2 hours ago')"
  | count _ => "failed to parse number in relative time"
  | tooLarge n unit => "Relative time value too large: " ++ toString n ++ " " ++ unit.text

def causes : MomentFault → List String
  | count f => [f.message]
  | _ => []

end MomentFault

namespace Moment

open Text

structure Ago where
  count : List Char
  unit : TimeUnit

def stripWord? (word s : List Char) : Option (List Char) :=
  if s.take word.length = word then some (s.drop word.length) else none

def skipGap? (s : List Char) : Option (List Char) :=
  let rest := trimStart s
  if rest.length < s.length then some rest else none

def unit? (s : List Char) : Option (TimeUnit × List Char) :=
  TimeUnit.all.findSome? fun u => (stripWord? u.text.toList s).map ((u, ·))

def skipPlural : List Char → List Char
  | 's' :: s => s
  | s => s

def ago? (s : List Char) : Option Ago := do
  let count := s.takeWhile isAnyDigit
  if count = [] then failure
  let rest ← skipGap? (s.drop count.length)
  let (unit, rest) ← unit? rest
  let rest ← skipGap? (skipPlural rest)
  if rest = ['a', 'g', 'o'] then some ⟨count, unit⟩ else none

/-- The number of a count, digit by digit; only ASCII digits have a value. -/
def readCount : Nat → List Char → Except CountFault Nat
  | n, [] => .ok n
  | n, c :: s =>
    if c.isDigit then
      if Word.largestCount < 10 * n + digitValue c then .error .tooLarge
      else readCount (10 * n + digitValue c) s
    else .error .invalidDigit

def largestSpan : Int := 31536000000

/-- The instant that lies a span before now. Where the span leaves the calendar, as it never does from
a year of four digits, there is no answer but an end of the program; the first instant stands in for
it so that there is a value. -/
def before (a : Ago) (now : Instant) : Except MomentFault Instant :=
  match readCount 0 a.count with
  | .error e => .error (.count e)
  | .ok n =>
    if largestSpan / a.unit.seconds < n then .error (.tooLarge n a.unit)
    else .ok ((now.addSeconds? (-(n * a.unit.seconds))).getD Instant.earliest)

/-- Reads a moment; blanks around it are ignored. -/
def parse (text : String) (now : Instant) : Except MomentFault Instant :=
  let t := Text.trim text
  if t.toList.map Char.toLower = ['n', 'o', 'w'] then .ok now
  else
    match Instant.ofStamp? t with
    | some i => .ok i
    | none =>
      match ago? t.toList with
      | some a => before a now
      | none => .error (.unreadable t)

end Moment
end Timesheet
