import Timesheet.Binary64
import Timesheet.Text.Digit

/-!
The fewest decimal digits that read back as a given pattern. For every count of digits the two
neighbours of the value on the decimal grid are tried; the first grid with a neighbour inside the
interval that rounds to the pattern wins, and of two neighbours the nearer.
-/

namespace Timesheet.Decimal

open Text

structure Scientific where
  digits : Nat
  exponent : Int
  deriving DecidableEq

/-- Everything over one denominator: a value and the ends of the interval that rounds to it. -/
structure Interval where
  low : Nat
  value : Nat
  high : Nat
  den : Nat
  closed : Bool

/-- The interval of a positive finite pattern. Below a power of two the gap is half as wide. -/
def Interval.of (x : Binary64) : Interval :=
  let m := x.significand
  let step := if x.fractionField = 0 ∧ 1 < x.exponentField then 1 else 2
  let unit := Binary64.scaled false 1 (x.exponent - 2)
  ⟨(4 * m - step) * unit.num, 4 * m * unit.num, (4 * m + 2) * unit.num, unit.den, m % 2 == 0⟩

def Interval.holds (i : Interval) (s : Scientific) : Bool :=
  let num := if 0 ≤ s.exponent then s.digits * Nat.pow 10 s.exponent.toNat * i.den else s.digits * i.den
  let scale := if 0 ≤ s.exponent then 1 else Nat.pow 10 (-s.exponent).toNat
  if i.closed then i.low * scale ≤ num && num ≤ i.high * scale
  else i.low * scale < num && num < i.high * scale

/-- The neighbours of the value among the multiples of a power of ten, and whether the upper one
is the nearer; of two equally near the even one is. -/
def Interval.neighbours (i : Interval) (e : Int) : Nat × Nat × Bool :=
  let num := if 0 ≤ e then i.value else i.value * Nat.pow 10 (-e).toNat
  let den := if 0 ≤ e then i.den * Nat.pow 10 e.toNat else i.den
  let below := num / den
  let rest := num % den
  (below, below + 1, den < 2 * rest || (2 * rest == den && below % 2 == 1))

def Interval.hit? (i : Interval) (e : Int) : Option Scientific :=
  let (below, above, upper) := i.neighbours e
  let low := i.holds ⟨below, e⟩ && below != 0
  let high := i.holds ⟨above, e⟩
  if low && high then some ⟨if upper then above else below, e⟩
  else if low then some ⟨below, e⟩
  else if high then some ⟨above, e⟩
  else none

def Interval.magnitude (i : Interval) : Int :=
  let whole := i.value / i.den
  if whole ≠ 0 then ((Text.digits whole).length : Int) - 1
  else
    let scale := (Text.digits (i.den / i.value)).length
    if i.den ≤ i.value * Nat.pow 10 (scale - 1) then 1 - (scale : Int) else -(scale : Int)

def Interval.search (i : Interval) : Nat → Int → Scientific
  | 0, e => ⟨(i.neighbours e).1, e⟩
  | n + 1, e => (i.hit? e).getD (i.search n (e - 1))

def shortest (x : Binary64) : Scientific :=
  let i := Interval.of x
  i.search 17 i.magnitude

def strip (fuel : Nat) (s : Scientific) : Scientific :=
  match fuel with
  | 0 => s
  | fuel + 1 =>
    if s.digits % 10 = 0 ∧ s.digits ≠ 0 then strip fuel ⟨s.digits / 10, s.exponent + 1⟩ else s

def exponentChars (e : Int) : List Char :=
  (if e < 0 then '-' else '+') :: padStart 2 '0' (Text.digits e.natAbs)

/-- Positional notation from 1e-5 up to 1e16, at least one digit on either side of the point;
otherwise one digit before the point and a power of ten. -/
def exchangeChars (s : Scientific) : List Char :=
  let ds := Text.digits s.digits
  let count : Int := ds.length
  let point := count + s.exponent
  if 0 ≤ s.exponent ∧ point ≤ 16 then
    ds ++ List.replicate s.exponent.toNat '0' ++ ['.', '0']
  else if 0 < point ∧ point ≤ 16 then
    ds.take point.toNat ++ '.' :: ds.drop point.toNat
  else if -5 < point ∧ point ≤ 0 then
    '0' :: '.' :: List.replicate (-point).toNat '0' ++ ds
  else
    ds.take 1 ++ (if count = 1 then [] else '.' :: ds.drop 1) ++ 'e' :: exponentChars (point - 1)

def exchange? (x : Binary64) : Option (List Char) :=
  if x.isFinite then
    let sign := if x.isNegative then ['-'] else []
    if x.significand = 0 then some (sign ++ ['0', '.', '0'])
    else some (sign ++ exchangeChars (strip 17 (shortest x)))
  else none

end Timesheet.Decimal
