/-!
Binary floating point with 64 bits, as exact arithmetic on bit patterns. A finite pattern stands for
a whole number times a power of two; every operation takes the exact quotient of whole numbers and
rounds it once, to the nearest pattern, a tie to the even one.
-/

namespace Timesheet

structure Binary64 where
  bits : UInt64
  deriving DecidableEq

/-- A quotient of whole numbers with a sign, so that zero has one too. -/
structure SignedRatio where
  negative : Bool
  num : Nat
  den : Nat

namespace SignedRatio

def neg (a : SignedRatio) : SignedRatio :=
  { a with negative := !a.negative }

def add (a b : SignedRatio) : SignedRatio :=
  let m := a.num * b.den
  let n := b.num * a.den
  let den := a.den * b.den
  if a.negative = b.negative then ⟨a.negative, m + n, den⟩
  else if n < m then ⟨a.negative, m - n, den⟩
  else if m < n then ⟨b.negative, n - m, den⟩
  else ⟨false, 0, den⟩

def powerOfTen (e : Int) : SignedRatio :=
  if 0 ≤ e then ⟨false, Nat.pow 10 e.toNat, 1⟩ else ⟨false, 1, Nat.pow 10 (-e).toNat⟩

end SignedRatio

namespace Binary64

def hidden : Nat := 0x10000000000000

def zero : Binary64 := ⟨0⟩

def infinity : Binary64 := ⟨0x7ff0000000000000⟩

def isNegative (x : Binary64) : Bool :=
  x.bits.toNat / 0x8000000000000000 == 1

def exponentField (x : Binary64) : Nat :=
  x.bits.toNat / hidden % 2048

def fractionField (x : Binary64) : Nat :=
  x.bits.toNat % hidden

def isFinite (x : Binary64) : Bool :=
  x.exponentField != 2047

def isNaN (x : Binary64) : Bool :=
  !x.isFinite && x.fractionField != 0

def significand (x : Binary64) : Nat :=
  if x.exponentField = 0 then x.fractionField else hidden + x.fractionField

def exponent (x : Binary64) : Int :=
  if x.exponentField = 0 then -1074 else (x.exponentField : Int) - 1075

def scaled (negative : Bool) (n : Nat) (e : Int) : SignedRatio :=
  if 0 ≤ e then ⟨negative, n * Nat.pow 2 e.toNat, 1⟩ else ⟨negative, n, Nat.pow 2 (-e).toNat⟩

def quotient (x : Binary64) : SignedRatio :=
  scaled x.isNegative x.significand x.exponent

def roundHalfEven (num den : Nat) : Nat :=
  let q := num / den
  let r := num % den
  if 2 * r < den then q
  else if den < 2 * r then q + 1
  else q + q % 2

def floorLog2 (num den : Nat) : Int :=
  let k := (Nat.log2 num : Int) - Nat.log2 den
  let fits := if 0 ≤ k then den * Nat.pow 2 k.toNat ≤ num else den ≤ num * Nat.pow 2 (-k).toNat
  if fits then k else k - 1

def magnitude (num den : Nat) : Nat :=
  if num = 0 then 0
  else
    let e := max (floorLog2 num den - 52) (-1074)
    let m := if 0 ≤ e then roundHalfEven num (den * Nat.pow 2 e.toNat)
      else roundHalfEven (num * Nat.pow 2 (-e).toNat) den
    min ((e + 1074).toNat * hidden + m) (2047 * hidden)

def round (q : SignedRatio) : Binary64 :=
  ⟨UInt64.ofNat (magnitude q.num q.den + (if q.negative then 0x8000000000000000 else 0))⟩

def ofInt (n : Int) : Binary64 :=
  round ⟨n < 0, n.natAbs, 1⟩

def ofNat (n : Nat) : Binary64 :=
  round ⟨false, n, 1⟩

def add (x y : Binary64) : Binary64 :=
  round (x.quotient.add y.quotient)

def sub (x y : Binary64) : Binary64 :=
  round (x.quotient.add y.quotient.neg)

def mul (x y : Binary64) : Binary64 :=
  let a := x.quotient
  let b := y.quotient
  round ⟨a.negative != b.negative, a.num * b.num, a.den * b.den⟩

def div (x y : Binary64) : Binary64 :=
  let a := x.quotient
  let b := y.quotient
  round ⟨a.negative != b.negative, a.num * b.den, a.den * b.num⟩

def neg (x : Binary64) : Binary64 :=
  ⟨x.bits ^^^ 0x8000000000000000⟩

def overflow : Nat :=
  Nat.pow 2 1024 - Nat.pow 2 970

def overflows (n : Nat) (e : Int) : Bool :=
  if n = 0 then false
  else if 0 ≤ e then 400 ≤ e || overflow ≤ n * Nat.pow 10 e.toNat
  else (-e).toNat ≤ Nat.log2 n && overflow * Nat.pow 10 (-e).toNat ≤ n

end Binary64
end Timesheet
