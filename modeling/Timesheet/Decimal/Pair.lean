import Timesheet.Binary64
import Timesheet.Word

/-!
Floats of decimals by way of pairs. A pair stands for the sum of its two floats, of which the second
is far smaller, so that it holds about twice as many digits as one float. Powers of ten are multiplied
in one after another, each product rounded to a pair. The sum at the end is close to the decimal, but
it need not be the float nearest to it.
-/

namespace Timesheet.Decimal

structure Pair where
  high : Binary64
  low : Binary64

namespace Pair

def ofRatio (q : SignedRatio) : Pair :=
  let high := Binary64.round q
  ⟨high, Binary64.round (q.add high.quotient.neg)⟩

def ofWord (n : Nat) : Pair :=
  let p := ofRatio ⟨false, n, 1⟩
  if Word.count ≤ p.high.quotient.num then ⟨p.high, Binary64.zero⟩ else p

def leading (x : Binary64) : Binary64 :=
  ⟨x.bits &&& 0xfffffffffc000000⟩

def mul (a b : Pair) : Option Pair :=
  let x := leading a.high
  let y := leading b.high
  let x' := a.high.sub x
  let y' := b.high.sub y
  let outer := x.mul y
  let inner := (x.mul y').add (x'.mul y)
  let sum := outer.add inner
  let left := ((outer.sub sum).add inner).add (x'.mul y')
  let left := ((a.high.mul b.low).add (a.low.mul b.high)).add left
  let high := sum.add left
  if outer.isFinite && sum.isFinite && high.isFinite then some ⟨high, (sum.sub high).add left⟩
  else none

def steps (e : Int) : List Int :=
  let n := e.natAbs
  let sizes : List Nat :=
    List.replicate (n / 100) 100 ++ List.replicate (n % 100 / 10) 10 ++ List.replicate (n % 10) 1
  sizes.map fun (size : Nat) => e.sign * (size : Int)

def scale (p : Pair) (e : Int) : Option Pair :=
  (steps e).foldlM (fun p step => p.mul (ofRatio (.powerOfTen step))) p

def sum (p : Pair) : Binary64 :=
  p.high.add p.low

end Pair

def shiftLimit : Nat :=
  (Word.count - 0x800) / 10

def settle (fuel n : Nat) (e : Int) : Nat × Int :=
  match fuel with
  | 0 => (n, e)
  | fuel + 1 =>
    if 0 < e ∧ n < shiftLimit then settle fuel (10 * n) (e - 1)
    else if e < 0 ∧ n % 10 = 0 then settle fuel (n / 10) (e + 1)
    else (n, e)

/-- The float of a word times a power of ten, by way of pairs. -/
def ofScaledWord (n : Nat) (e : Int) : Binary64 :=
  if n = 0 then Binary64.zero
  else
    let (n, e) := settle 20 n e
    match (Pair.ofWord n).scale e with
    | some p => p.sum
    | none => Binary64.infinity

end Timesheet.Decimal
