import Timesheet.Json
import Timesheet.Text.Digit
import Timesheet.Text.Quoted

/-!
Reading the exchange format. A fault says what was wrong and how many bytes had been read, from
which its message tells line and column. A list of strings can be read on its own; a value of
another kind in it is then a fault of its own.
-/

namespace Timesheet.Json

open Text

inductive Complaint where
  | endInList
  | endInObject
  | endInString
  | endInValue
  | expectedColon
  | expectedListEnd
  | expectedObjectEnd
  | expectedIdent
  | expectedValue
  | invalidEscape
  | invalidNumber
  | numberOutOfRange
  | controlCharacter
  | keyMustBeString
  | loneSurrogate
  | trailingComma
  | trailingCharacters
  | unfinishedHexEscape
  | nestedTooDeep
  | unexpected (found expected : String)
  deriving DecidableEq

def Complaint.message : Complaint → String
  | endInList => "EOF while parsing a list"
  | endInObject => "EOF while parsing an object"
  | endInString => "EOF while parsing a string"
  | endInValue => "EOF while parsing a value"
  | expectedColon => "expected \x60:\x60"
  | expectedListEnd => "expected \x60,\x60 or \x60]\x60"
  | expectedObjectEnd => "expected \x60,\x60 or \x60\x7d\x60"
  | expectedIdent => "expected ident"
  | expectedValue => "expected value"
  | invalidEscape => "invalid escape"
  | invalidNumber => "invalid number"
  | numberOutOfRange => "number out of range"
  | controlCharacter => "control character (\\u0000-\\u001F) found while parsing a string"
  | keyMustBeString => "key must be a string"
  | loneSurrogate => "lone leading surrogate in hex escape"
  | trailingComma => "trailing comma"
  | trailingCharacters => "trailing characters"
  | unfinishedHexEscape => "unexpected end of hex escape"
  | nestedTooDeep => "recursion limit exceeded"
  | unexpected found expected => "invalid type: " ++ found ++ ", expected " ++ expected

structure Fault where
  complaint : Complaint
  offset : Nat
  deriving DecidableEq

def position : List Char → Nat → Nat → Nat → Nat × Nat
  | [], _, line, column => (line, column)
  | c :: s, left, line, column =>
    if left = 0 then (line, column)
    else if c = '\n' then position s (left - 1) (line + 1) 0
    else position s (left - c.utf8Size) line (column + min left c.utf8Size)

def Fault.message (f : Fault) (text : String) : String :=
  let (line, column) := position text.toList f.offset 1 0
  f.complaint.message ++ " at line " ++ toString line ++ " column " ++ toString column

structure Cursor where
  rest : List Char
  offset : Nat

def utf8Length (s : List Char) : Nat :=
  s.foldl (fun n c => n + c.utf8Size) 0

namespace Cursor

def drop (c : Cursor) (n : Nat) : Cursor :=
  ⟨c.rest.drop n, c.offset + utf8Length (c.rest.take n)⟩

def peek? (c : Cursor) : Option Char :=
  c.rest.head?

def fault {α : Type} (c : Cursor) (e : Complaint) : Except Fault α :=
  .error ⟨e, c.offset⟩

def faultAhead {α : Type} (c : Cursor) (e : Complaint) : Except Fault α :=
  .error ⟨e, if c.rest = [] then c.offset else c.offset + 1⟩

def isSpace (c : Char) : Bool :=
  c == ' ' || c == '\n' || c == '\t' || c == '\r'

def skipSpace (c : Cursor) : Cursor :=
  c.drop (c.rest.takeWhile isSpace).length

def countDigits (c : Cursor) : Nat :=
  (c.rest.takeWhile Char.isDigit).length

end Cursor

def maxWord : Nat := 0xffffffffffffffff

structure Parts where
  significand : Nat
  exponent : Int

def takeDigits : Nat → List Char → Nat × Nat
  | n, [] => (n, 0)
  | n, c :: s =>
    if maxWord < 10 * n + digitValue c then (n, s.length + 1)
    else takeDigits (10 * n + digitValue c) s

/-- The float of a significand and a power of ten: the significand is rounded, then multiplied or
divided by the rounded power. `none` if the result is too large. -/
def Parts.float? (p : Parts) : Option Binary64 :=
  go 4 (Binary64.ofNat p.significand) p.exponent
where
  go : Nat → Binary64 → Int → Option Binary64
    | 0, x, _ => some x
    | fuel + 1, x, e =>
      if e.natAbs ≤ 308 then
        let power := Binary64.ofNat (Nat.pow 10 e.natAbs)
        if 0 ≤ e then
          let y := x.mul power
          if y.isFinite then some y else none
        else some (x.div power)
      else if x = Binary64.zero then some x
      else if 0 ≤ e then none
      else go fuel (x.div (Binary64.ofNat (Nat.pow 10 308))) (e + 308)

def signed (negative : Bool) (x : Binary64) : Binary64 :=
  if negative then x.neg else x

def maxExponent : Nat := 0x7fffffff

def digitsToExcess : Nat → List Char → Nat
  | _, [] => 0
  | e, c :: s =>
    let e := 10 * e + digitValue c
    if maxExponent < e then 1 else digitsToExcess e s + 1

def finishFloat (negative : Bool) (p : Parts) (c : Cursor) : Except Fault (Json × Cursor) :=
  match p.float? with
  | some x => .ok (float (signed negative x), c)
  | none => c.fault .numberOutOfRange

def readExponent (negative : Bool) (p : Parts) (c : Cursor) : Except Fault (Json × Cursor) :=
  let down := c.peek? == some '-'
  let c := if down || c.peek? == some '+' then c.drop 1 else c
  let digits := c.rest.take c.countDigits
  match c.rest with
  | [] => c.fault .endInValue
  | _ :: _ =>
    if digits = [] then .error ⟨.invalidNumber, c.offset + 1⟩
    else
      let e := numberOf digits
      let after := c.drop digits.length
      if maxExponent < e then
        if p.significand ≠ 0 ∧ ¬down then
          (c.drop (digitsToExcess 0 digits)).fault .numberOutOfRange
        else .ok (float (signed negative Binary64.zero), after)
      else finishFloat negative ⟨p.significand, if down then p.exponent - e else p.exponent + e⟩ after

def isExponentMark (c : Option Char) : Bool :=
  c == some 'e' || c == some 'E'

def readFraction (negative : Bool) (p : Parts) (c : Cursor) : Except Fault (Json × Cursor) :=
  let digits := c.rest.take c.countDigits
  if digits = [] then c.faultAhead (if c.rest = [] then .endInValue else .invalidNumber)
  else
    let (n, left) := takeDigits p.significand digits
    let p := ⟨n, p.exponent - (digits.length - left : Nat)⟩
    let c := c.drop digits.length
    if isExponentMark c.peek? then readExponent negative p (c.drop 1) else finishFloat negative p c

def readNumber (negative : Bool) (c : Cursor) : Except Fault (Json × Cursor) :=
  let digits := c.rest.take c.countDigits
  match c.rest with
  | [] => c.fault .endInValue
  | first :: _ =>
    if digits = [] then .error ⟨.invalidNumber, c.offset + 1⟩
    else if first = '0' ∧ 1 < digits.length then (c.drop 1).faultAhead .invalidNumber
    else
      let (n, left) := takeDigits 0 digits
      let c := c.drop digits.length
      if c.peek? == some '.' then readFraction negative ⟨n, left⟩ (c.drop 1)
      else if isExponentMark c.peek? then readExponent negative ⟨n, left⟩ (c.drop 1)
      else if left ≠ 0 then finishFloat negative ⟨n, left⟩ c
      else if negative then
        if n = 0 ∨ 0x8000000000000000 < n then .ok (float (Binary64.ofNat n).neg, c)
        else .ok (integer (-n), c)
      else .ok (integer n, c)

def readHex4 (c : Cursor) : Except Fault (Nat × Cursor) :=
  let bytes := utf8Length (c.rest.take 4)
  if bytes < 4 then .error ⟨.endInString, c.offset + bytes⟩
  else
    match (c.rest.take 4).mapM hexValue? with
    | some [a, b, d, e] => .ok (((a * 16 + b) * 16 + d) * 16 + e, c.drop 4)
    | _ => .error ⟨.invalidEscape, c.offset + 4⟩

def expectInPair (x : Char) (c : Cursor) : Except Fault Cursor :=
  match c.rest with
  | [] => c.fault .endInString
  | y :: _ => if x = y then .ok (c.drop 1) else .error ⟨.unfinishedHexEscape, c.offset + 1⟩

def readUnicode (c : Cursor) : Except Fault (Char × Cursor) := do
  let (high, c) ← readHex4 c
  if 0xdc00 ≤ high ∧ high ≤ 0xdfff then c.fault .loneSurrogate
  else if high < 0xd800 ∨ 0xdbff < high then return (Char.ofNat high, c)
  else
    let c ← expectInPair '\\' c
    let c ← expectInPair 'u' c
    let (low, c) ← readHex4 c
    if 0xdc00 ≤ low ∧ low ≤ 0xdfff then
      return (Char.ofNat ((high - 0xd800) * 0x400 + (low - 0xdc00) + 0x10000), c)
    else c.fault .loneSurrogate

def simpleEscape? : Char → Option Char
  | '"' => some '"'
  | '\\' => some '\\'
  | '/' => some '/'
  | 'b' => some '\x08'
  | 'f' => some '\x0c'
  | 'n' => some '\n'
  | 'r' => some '\r'
  | 't' => some '\t'
  | _ => none

/-- Reads a string after its opening quote. The fuel is the count of characters left. -/
def readString : Nat → Cursor → List Char → Except Fault (String × Cursor)
  | 0, c, _ => c.fault .endInString
  | fuel + 1, c, read =>
    match c.rest with
    | [] => c.fault .endInString
    | '"' :: _ => .ok (String.ofList read.reverse, c.drop 1)
    | ['\\'] => (c.drop 1).fault .endInString
    | '\\' :: 'u' :: _ =>
      match readUnicode (c.drop 2) with
      | .ok (x, c) => readString fuel c (x :: read)
      | .error e => .error e
    | '\\' :: x :: _ =>
      match simpleEscape? x with
      | some y => readString fuel (c.drop 2) (y :: read)
      | none => .error ⟨.invalidEscape, c.offset + 2⟩
    | x :: _ =>
      if x.toNat < 0x20 then (c.drop 1).fault .controlCharacter
      else readString fuel (c.drop 1) (x :: read)

def readWord : List Char → Cursor → Except Fault Cursor
  | [], c => .ok c
  | x :: xs, c =>
    match c.rest with
    | [] => c.fault .endInValue
    | y :: _ => if x = y then readWord xs (c.drop 1) else .error ⟨.expectedIdent, c.offset + 1⟩

def setMember (k : String) (x : Json) : List (String × Json) → List (String × Json)
  | [] => [(k, x)]
  | m :: ms => if m.1 = k then (k, x) :: ms else m :: setMember k x ms

def maxDepth : Nat := 127

mutual

/-- Reads any value. The fuel bounds the calls, of which every second reads a character. -/
def readValue (fuel depth : Nat) (c : Cursor) : Except Fault (Json × Cursor) :=
  match fuel with
  | 0 => c.fault .nestedTooDeep
  | fuel + 1 =>
    let c := c.skipSpace
    match c.rest with
    | [] => c.faultAhead .endInValue
    | 'n' :: _ => (readWord ['u', 'l', 'l'] (c.drop 1)).map ((null, ·))
    | 't' :: _ => (readWord ['r', 'u', 'e'] (c.drop 1)).map ((bool true, ·))
    | 'f' :: _ => (readWord ['a', 'l', 's', 'e'] (c.drop 1)).map ((bool false, ·))
    | '-' :: _ => readNumber true (c.drop 1)
    | '"' :: _ => (readString c.rest.length (c.drop 1) []).map fun (s, c) => (string s, c)
    | '[' :: _ =>
      match depth with
      | 0 => c.faultAhead .nestedTooDeep
      | depth + 1 => readElements fuel depth (c.drop 1) []
    | '\x7b' :: _ =>
      match depth with
      | 0 => c.faultAhead .nestedTooDeep
      | depth + 1 => readMembers fuel depth (c.drop 1) []
    | x :: _ => if x.isDigit then readNumber false c else c.faultAhead .expectedValue

def readElements (fuel depth : Nat) (c : Cursor) (read : List Json) :
    Except Fault (Json × Cursor) :=
  match fuel with
  | 0 => c.fault .nestedTooDeep
  | fuel + 1 =>
    let c := c.skipSpace
    match c.rest with
    | [] => c.faultAhead .endInList
    | ']' :: _ => .ok (array read.reverse, c.drop 1)
    | x :: _ =>
      if read = [] then
        match readValue fuel depth c with
        | .ok (v, c) => readElements fuel depth c [v]
        | .error e => .error e
      else if x = ',' then
        let c := (c.drop 1).skipSpace
        match c.rest with
        | [] => c.faultAhead .endInValue
        | ']' :: _ => c.faultAhead .trailingComma
        | _ :: _ =>
          match readValue fuel depth c with
          | .ok (v, c) => readElements fuel depth c (v :: read)
          | .error e => .error e
      else c.faultAhead .expectedListEnd

def readMembers (fuel depth : Nat) (c : Cursor) (read : List (String × Json)) :
    Except Fault (Json × Cursor) :=
  match fuel with
  | 0 => c.fault .nestedTooDeep
  | fuel + 1 =>
    let c := c.skipSpace
    match c.rest with
    | [] => c.faultAhead .endInObject
    | '\x7d' :: _ => .ok (object read, c.drop 1)
    | x :: _ =>
      if read.isEmpty then readMember fuel depth c read
      else if x = ',' then
        let c := (c.drop 1).skipSpace
        match c.rest with
        | [] => c.faultAhead .endInObject
        | '\x7d' :: _ => c.faultAhead .trailingComma
        | _ :: _ => readMember fuel depth c read
      else c.faultAhead .expectedObjectEnd

def readMember (fuel depth : Nat) (c : Cursor) (read : List (String × Json)) :
    Except Fault (Json × Cursor) :=
  match fuel with
  | 0 => c.fault .nestedTooDeep
  | fuel + 1 =>
    match c.rest with
    | '"' :: _ =>
      match readString c.rest.length (c.drop 1) [] with
      | .error e => .error e
      | .ok (k, c) =>
        let c := c.skipSpace
        match c.rest with
        | [] => c.faultAhead .endInObject
        | ':' :: _ =>
          match readValue fuel depth (c.drop 1) with
          | .ok (v, c) => readMembers fuel depth c (setMember k v read)
          | .error e => .error e
        | _ :: _ => c.faultAhead .expectedColon
    | _ => c.faultAhead .keyMustBeString

end

def expectEnd {α : Type} (r : α × Cursor) : Except Fault α :=
  let c := r.2.skipSpace
  if c.rest = [] then .ok r.1 else c.faultAhead .trailingCharacters

def read (text : String) : Except Fault Json :=
  let s := text.toList
  readValue (4 * s.length + 4) maxDepth ⟨s, 0⟩ >>= expectEnd

def describe : Json → String
  | null => "null"
  | bool b => "boolean \x60" ++ toString b ++ "\x60"
  | integer n => "integer \x60" ++ toString n ++ "\x60"
  | float x => "floating point \x60" ++ String.ofList (floatChars x) ++ "\x60"
  | string s => "string " ++ quoted s
  | array _ => "sequence"
  | object _ => "map"

/-- Complains about a value of the wrong kind, of which only the beginning is read if it is a list
or an object. -/
def wrongKind {α : Type} (expected : String) (c : Cursor) : Except Fault α :=
  match c.rest with
  | '[' :: _ => c.fault (.unexpected "sequence" expected)
  | '\x7b' :: _ => c.fault (.unexpected "map" expected)
  | _ =>
    match readValue 1 0 c with
    | .ok (v, c) => c.fault (.unexpected v.describe expected)
    | .error e => .error e

def readStringElements (fuel : Nat) (c : Cursor) (read : List String) :
    Except Fault (List String × Cursor) :=
  match fuel with
  | 0 => c.fault .nestedTooDeep
  | fuel + 1 =>
    let c := c.skipSpace
    match c.rest with
    | [] => c.faultAhead .endInList
    | ']' :: _ => .ok (read.reverse, c.drop 1)
    | x :: _ =>
      if read.isEmpty then readStringElement fuel c read
      else if x = ',' then
        let c := (c.drop 1).skipSpace
        match c.rest with
        | [] => c.faultAhead .endInValue
        | ']' :: _ => c.faultAhead .trailingComma
        | _ :: _ => readStringElement fuel c read
      else c.faultAhead .expectedListEnd
where
  readStringElement (fuel : Nat) (c : Cursor) (read : List String) :
      Except Fault (List String × Cursor) :=
    match c.rest with
    | '"' :: _ =>
      match readString c.rest.length (c.drop 1) [] with
      | .ok (s, c) => readStringElements fuel c (s :: read)
      | .error e => .error e
    | _ => wrongKind "a string" c

def readStrings (text : String) : Except Fault (List String) :=
  let s := text.toList
  let c := Cursor.skipSpace ⟨s, 0⟩
  match c.rest with
  | [] => c.faultAhead .endInValue
  | '[' :: _ => readStringElements (s.length + 1) (c.drop 1) [] >>= expectEnd
  | _ => wrongKind "a sequence" c

end Timesheet.Json
