import Timesheet.Settings.Toml
import Timesheet.Text.Blank

/-!
Settings in environment variables. The name of a variable says which setting it gives, two
underscores lead into a table, and a text that does not read as anything else stands for itself.
-/

namespace Timesheet.Settings.Environment

open Text

def nameMark : List Char :=
  ['T', 'A', 'L', 'L', 'Y', '_']

def pointed : List Char → List Char
  | '_' :: '_' :: s => '.' :: pointed s
  | c :: s => c :: pointed s
  | [] => []

def keyOf? (name : String) : Option (List String) :=
  let s := trimmed name.toList
  if (s.take nameMark.length).map Char.toUpper = nameMark then
    let parts := (trimmed (pointed (s.drop nameMark.length))).splitOn '.'
    if parts.any List.isEmpty then none
    else some (parts.map fun p => String.ofList (p.map Char.toLower))
  else none

def isSpace (c : Char) : Bool :=
  c == ' ' || c == '\t' || c == '\n' || c == '\x0c' || c == '\r'

def isBracket (c : Char) : Bool :=
  c == ',' || c == '[' || c == ']' || c == '\x7b' || c == '\x7d'

def isExponent : List Char → Bool
  | [] => true
  | c :: s =>
    let ds := Toml.dropSign s
    (c == 'e' || c == 'E') && ds != [] && ds.all Char.isDigit

def isFraction (s : List Char) : Bool :=
  let whole := s.takeWhile Char.isDigit
  match s.drop whole.length with
  | '.' :: t =>
    let places := t.takeWhile Char.isDigit
    whole ++ places != [] && isExponent (t.drop places.length)
  | _ => false

def isWord : List Char → Bool
  | '-' :: s => (readNat? s).any (· ≤ Word.largestCount + 1)
  | '+' :: s => (readNat? s).any (· < Word.count)
  | s => (readNat? s).any (· < Word.count)

/-- Text without brackets: a number, or itself. Only a point makes a number out of digits that do not
fit a word. -/
def bare (s : List Char) : Value :=
  let t := trimmed s
  if isFraction (Toml.dropSign t) || isWord t then .number else .text (String.ofList t)

def keyPart : Toml.Reader String
  | '"' :: s => (String.ofList <$> Toml.escaped s.length).run s
  | s =>
    let cs := s.takeWhile Toml.isBareChar
    if cs = [] then none else some (String.ofList cs, s.drop cs.length)

mutual

def value (fuel : Nat) : Toml.Reader Value := fun s =>
  match fuel with
  | 0 => none
  | fuel + 1 => do
    let (v, s) ← unspaced fuel (s.dropWhile isSpace)
    return (v, s.dropWhile isSpace)

def unspaced (fuel : Nat) : Toml.Reader Value := fun s =>
  match fuel with
  | 0 => none
  | fuel + 1 =>
    match s with
    | 't' :: 'r' :: 'u' :: 'e' :: s => some (.bool true, s)
    | 'f' :: 'a' :: 'l' :: 's' :: 'e' :: s => some (.bool false, s)
    | '[' :: s => items fuel [] s
    | '\x7b' :: s => members fuel [] s
    | '"' :: s => ((fun cs => Value.text (String.ofList cs)) <$> Toml.escaped s.length).run s
    | '\'' :: c :: '\'' :: s => some (.text (String.ofList [c]), s)
    | '\'' :: _ => none
    | s =>
      let cs := s.takeWhile fun c => !isBracket c
      some (bare cs, s.drop cs.length)

def items (fuel : Nat) (read : List Value) : Toml.Reader Value := fun s =>
  match fuel, s with
  | _, ']' :: s => some (.list read.reverse, s)
  | 0, _ => none
  | fuel + 1, s => do
    let (v, s) ← value fuel s
    match s with
    | ',' :: s => items fuel (v :: read) s
    | ']' :: s => return (.list (v :: read).reverse, s)
    | _ => none

def members (fuel : Nat) (read : Value.Members) : Toml.Reader Value := fun s =>
  match fuel, s with
  | _, '\x7d' :: s => some (.table read, s)
  | 0, _ => none
  | fuel + 1, s => do
    let (k, s) ← keyPart (s.dropWhile isSpace)
    let (_, s) ← Toml.char '=' (s.dropWhile isSpace)
    let (v, s) ← value fuel s
    match s with
    | ',' :: s => members fuel (Value.put k v read) s
    | '\x7d' :: s => return (.table (Value.put k v read), s)
    | _ => none

end

/-- Reads the text of a variable. If anything is left over, it is text as a whole. -/
def read (text : String) : Value :=
  let s := text.toList
  match value (3 * s.length + 3) s with
  | some (v, []) => v
  | _ => .text text

def settings (given : List (String × String)) : Value :=
  given.foldl add (.table [])
where
  add (v : Value) (given : String × String) : Value :=
    match keyOf? given.1 with
    | some key => v.override (Value.nest key (read given.2))
    | none => v

end Timesheet.Settings.Environment
