import Timesheet.Decimal.Pair
import Timesheet.Shelf
import Timesheet.Store
import Timesheet.Tag
import Timesheet.Text.Digit
import Timesheet.Word

/-!
Cells of numeric columns and keys of rows. A numeric column turns text that reads as a number into
that number, and keeps text that does not. A column of floats holds every number as a float, a column
of integers holds a float only if no integer equals it.
-/

namespace Timesheet

inductive NumberCell where
  | integer (n : Int)
  | real (x : Binary64)
  | text (s : String)
  deriving DecidableEq

namespace NumberCell

open Text

def kindName : NumberCell → String
  | integer _ => "Integer"
  | real _ => "Real"
  | text _ => "Text"

def integerOf? (x : Binary64) : Option Int :=
  let q := x.quotient
  if x.isFinite ∧ q.num % q.den = 0 then
    let n : Int := if q.negative then -(q.num / q.den : Nat) else (q.num / q.den : Nat)
    if Word.smallest < n ∧ n < Word.largest then some n else none
  else none

def isSpace (c : Char) : Bool :=
  c == ' ' || (9 ≤ c.toNat && c.toNat ≤ 13)

/-- A decimal in text. Of its digits only so many are taken as fit a word, the others count as zeros;
the integer has all of them, if the decimal was written as one. -/
structure Written where
  negative : Bool
  digits : Nat
  exponent : Int
  integer? : Option Int

def digitLimit : Nat :=
  (Word.count - 10) / 10

def takeDigits : Nat → List Char → Nat × Nat
  | n, [] => (n, 0)
  | n, c :: s => if n < digitLimit then takeDigits (10 * n + digitValue c) s else (n, s.length + 1)

def exponentOf (s : List Char) : Nat :=
  s.foldl (fun e c => if e < 10000 then 10 * e + digitValue c else 10000) 0

def readExponent? (s : List Char) : Option Int :=
  let (down, ds) :=
    match s with
    | '-' :: r => (true, r)
    | '+' :: r => (false, r)
    | r => (false, r)
  if ds = [] ∨ ¬ds.all Char.isDigit then none
  else some (if down then -(exponentOf ds : Int) else exponentOf ds)

def readUnsigned? (negative : Bool) (s : List Char) : Option Written :=
  let front := s.takeWhile Char.isDigit
  let rest := s.drop front.length
  let (point, back) :=
    match rest with
    | '.' :: r => (true, r.takeWhile Char.isDigit)
    | _ => (false, [])
  let rest := if point then rest.drop (back.length + 1) else rest
  if front = [] ∧ back = [] then none
  else
    let (n, left) := takeDigits 0 front
    let (n, unused) := takeDigits n back
    let shift : Int := left - (back.length - unused : Nat)
    match rest with
    | [] =>
      let whole : Int := numberOf front
      some ⟨negative, n, shift, if point then none else some (if negative then -whole else whole)⟩
    | c :: r =>
      if c = 'e' ∨ c = 'E' then (readExponent? r).map fun e => ⟨negative, n, e + shift, none⟩
      else none

def readWritten? (s : String) : Option Written :=
  let s := ((s.toList.dropWhile isSpace).reverse.dropWhile isSpace).reverse
  match s with
  | '-' :: r => readUnsigned? true r
  | '+' :: r => readUnsigned? false r
  | r => readUnsigned? false r

def Written.float (w : Written) : Binary64 :=
  let x := Decimal.ofScaledWord w.digits w.exponent
  if w.negative then x.neg else x

def ofText (s : String) : NumberCell :=
  match readWritten? s with
  | none => text s
  | some w =>
    match w.integer?.filter Word.fits, integerOf? w.float with
    | some n, _ => integer n
    | none, some n => integer n
    | none, none => real w.float

def ofBool (b : Bool) : NumberCell :=
  integer (if b then 1 else 0)

def ofFloat (x : Binary64) : NumberCell :=
  real (if x.significand = 0 then Binary64.zero else x)

def asFloat : NumberCell → NumberCell
  | integer n => real (Binary64.ofInt n)
  | c => c

def readInteger (index : Nat) (name : String) : NumberCell → Except EngineFault Int
  | integer n => .ok n
  | c => .error (.columnType c.kindName index name)

def readBool (index : Nat) (name : String) (c : NumberCell) : Except EngineFault Bool := do
  return (← c.readInteger index name) != 0

def readFloat (index : Nat) (name : String) : NumberCell → Except EngineFault Binary64
  | real x => .ok x
  | integer n => .ok (Binary64.ofInt n)
  | c => .error (.columnType c.kindName index name)

def ratio : NumberCell → Int × Nat
  | integer n => (n, 1)
  | real x =>
    if x.isFinite then
      let q := x.quotient
      (if q.negative then -q.num else q.num, q.den)
    else (if x.isNegative then -(Nat.pow 2 2000 : Nat) else (Nat.pow 2 2000 : Nat), 1)
  | text _ => (0, 1)

def atMost : NumberCell → NumberCell → Bool
  | text s, text t => Text.upTo s t
  | text _, _ => false
  | _, text _ => true
  | a, b => a.ratio.1 * b.ratio.2 ≤ b.ratio.1 * a.ratio.2

end NumberCell

/-- The key of a row. Only a row whose key was taken away by hand has none. -/
inductive RowKey where
  | unnamed (serial : Nat)
  | named (s : String)
  deriving DecidableEq

namespace RowKey

def before : RowKey → RowKey → Bool
  | unnamed m, unnamed n => m < n
  | unnamed _, named _ => true
  | named _, unnamed _ => false
  | named s, named t => Text.before s t

instance : KeyOrder RowKey where
  before := before
  before_irrefl a := by
    cases a <;> simp [before, Text.before_irrefl]
  before_trans {a b c} hab hbc := by
    cases a <;> cases b <;> cases c <;> simp_all [before]
    · omega
    · exact Text.before_trans hab hbc
  eq_of_not_before {a b} hab hba := by
    cases a <;> cases b <;> simp_all [before]
    · omega
    · exact Text.eq_of_not_before hab hba

def read (name : String) : RowKey → Except EngineFault String
  | named s => .ok s
  | unnamed _ => .error (.columnType "Null" 0 name)

def serial : RowKey → Nat
  | unnamed n => n + 1
  | named _ => 0

end RowKey
end Timesheet
