import Timesheet.Text.Digit

/-!
Universally unique identifiers: numbers of 128 bits with a canonical text of 32 hexadecimal digits
in five groups. Reading also takes the digits without hyphens, in braces, or as a URN.
-/

namespace Timesheet

structure Uuid where
  number : Nat
  number_lt : number < 0x100000000000000000000000000000000
  deriving DecidableEq

namespace Uuid

instance : LT Uuid := ⟨fun a b => a.number < b.number⟩

instance (a b : Uuid) : Decidable (a < b) :=
  inferInstanceAs (Decidable (a.number < b.number))

/-- Numbers beyond 128 bits wrap around. -/
def ofNat (n : Nat) : Uuid :=
  ⟨n % 0x100000000000000000000000000000000, Nat.mod_lt _ (by decide)⟩

/-- A random identifier of version 4: six of its bits say so, the others come from `n`. -/
def ofRandom (n : Nat) : Uuid :=
  let high := n / 0x100000000000000000000
  let middle := n / 0x10000000000000000 % 0x1000
  let low := n % 0x4000000000000000
  ofNat (high * 0x100000000000000000000 + (0x4000 + middle) * 0x10000000000000000 +
    0x8000000000000000 + low)

def zero : Uuid :=
  ofNat 0

def hyphenate (s : List Char) : List Char :=
  s.take 8 ++ '-' :: (s.drop 8).take 4 ++ '-' :: (s.drop 12).take 4 ++
    '-' :: (s.drop 16).take 4 ++ '-' :: s.drop 20

def chars (u : Uuid) : List Char :=
  hyphenate (Text.fixedHex 32 u.number)

def text (u : Uuid) : String :=
  String.ofList u.chars

def joinGroups? : List Char → Option (List Char)
  | s =>
    if s.length = 36 ∧ s[8]? = some '-' ∧ s[13]? = some '-' ∧ s[18]? = some '-' ∧
        s[23]? = some '-' then
      some (s.take 8 ++ (s.drop 9).take 4 ++ (s.drop 14).take 4 ++ (s.drop 19).take 4 ++
        s.drop 24)
    else none

def ofDigits? (s : List Char) : Option Uuid :=
  if s.length = 32 then (Text.readHex? 0 s).map ofNat else none

def ofHyphenated? (s : List Char) : Option Uuid :=
  (joinGroups? s).bind ofDigits?

def urnMark : List Char :=
  "urn:uuid:".toList

def ofBraced? : List Char → Option Uuid
  | '\x7b' :: s => if s.getLast? = some '\x7d' then ofHyphenated? s.dropLast else none
  | _ => none

/-- The mark may be in letters of either case: `URN:UUID:` and `urn:UUID:` are taken too. -/
def ofUrn? (s : List Char) : Option Uuid :=
  if (s.take 9).map Char.toLower = urnMark then ofHyphenated? (s.drop 9) else none

def ofChars? (s : List Char) : Option Uuid :=
  ofDigits? s <|> ofHyphenated? s <|> ofBraced? s <|> ofUrn? s

end Uuid
end Timesheet
