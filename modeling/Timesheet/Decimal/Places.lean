import Timesheet.Binary64
import Timesheet.Text.Digit

/-!
Decimal text with a fixed number of places. The exact value of the pattern is rounded, a tie to the
even neighbour.
-/

namespace Timesheet.Decimal

open Text

def placesChars (places : Nat) (q : SignedRatio) : List Char :=
  let n := Binary64.roundHalfEven (q.num * Nat.pow 10 places) q.den
  (if q.negative then ['-'] else []) ++ digits (n / Nat.pow 10 places) ++
    (if places = 0 then [] else '.' :: fixedDigits places n)

def withPlaces (places : Nat) (x : Binary64) : List Char :=
  if x.isFinite then placesChars places x.quotient
  else if x.isNaN then "NaN".toList
  else if x.isNegative then "-inf".toList
  else "inf".toList

end Timesheet.Decimal
