import Timesheet.Decimal.Shortest

namespace Timesheet

inductive Json where
  | null
  | bool (b : Bool)
  | integer (n : Int)
  | float (x : Binary64)
  | string (s : String)
  | array (xs : List Json)
  | object (members : List (String × Json))

namespace Json

open Text

def hexEscape (c : Char) : List Char :=
  ['\\', 'u'] ++ fixedHex 4 c.toNat

def escapedChar (c : Char) : List Char :=
  match c with
  | '"' => ['\\', '"']
  | '\\' => ['\\', '\\']
  | '\n' => ['\\', 'n']
  | '\r' => ['\\', 'r']
  | '\t' => ['\\', 't']
  | '\x08' => ['\\', 'b']
  | '\x0c' => ['\\', 'f']
  | c => if c.toNat < 0x20 then hexEscape c else [c]

def stringChars (s : String) : List Char :=
  '"' :: s.toList.flatMap escapedChar ++ ['"']

/-- A float that is no finite number is written as null. -/
def floatChars (x : Binary64) : List Char :=
  (Decimal.exchange? x).getD "null".toList

def commaSeparated : List (List Char) → List Char
  | [] => []
  | [x] => x
  | x :: xs => x ++ ',' :: commaSeparated xs

mutual

def chars : Json → List Char
  | null => "null".toList
  | bool true => "true".toList
  | bool false => "false".toList
  | integer n => signedDigits n
  | float x => floatChars x
  | string s => stringChars s
  | array xs => '[' :: commaSeparated (charsOfList xs) ++ [']']
  | object ms => '\x7b' :: commaSeparated (charsOfMembers ms) ++ ['\x7d']

def charsOfList : List Json → List (List Char)
  | [] => []
  | x :: xs => x.chars :: charsOfList xs

def charsOfMembers : List (String × Json) → List (List Char)
  | [] => []
  | (k, x) :: ms => (stringChars k ++ ':' :: x.chars) :: charsOfMembers ms

end

def compact (x : Json) : String :=
  String.ofList x.chars

def newline (depth : Nat) : List Char :=
  '\n' :: List.replicate (2 * depth) ' '

def block (opening closing : Char) (depth : Nat) : List (List Char) → List Char
  | [] => [opening, closing]
  | pieces =>
    opening :: commaSeparated (pieces.map (newline (depth + 1) ++ ·)) ++
      newline depth ++ [closing]

mutual

def prettyChars (depth : Nat) : Json → List Char
  | array xs => block '[' ']' depth (prettyOfList (depth + 1) xs)
  | object ms => block '\x7b' '\x7d' depth (prettyOfMembers (depth + 1) ms)
  | null => "null".toList
  | bool true => "true".toList
  | bool false => "false".toList
  | integer n => signedDigits n
  | float x => floatChars x
  | string s => stringChars s

def prettyOfList (depth : Nat) : List Json → List (List Char)
  | [] => []
  | x :: xs => x.prettyChars depth :: prettyOfList depth xs

def prettyOfMembers (depth : Nat) : List (String × Json) → List (List Char)
  | [] => []
  | (k, x) :: ms =>
    (stringChars k ++ ':' :: ' ' :: x.prettyChars depth) :: prettyOfMembers depth ms

end

def pretty (x : Json) : String :=
  String.ofList (x.prettyChars 0)

def member? (x : Json) (name : String) : Option Json :=
  match x with
  | object ms => ms.lookup name
  | _ => none

end Json
end Timesheet
