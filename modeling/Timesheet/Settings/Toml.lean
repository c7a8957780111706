import Timesheet.Binary64
import Timesheet.Instant.Reader
import Timesheet.Settings.Value
import Timesheet.Word

/-!
Reading a settings file in the TOML format. A key is defined once: a table that has been opened by a
header, or written on one line, is not opened again, while one that has come about only on the way
to another table may still be.
-/

namespace Timesheet.Settings.Toml

open Text

/-- How a table came about: on the way to another, by a dotted key, or by its own header. -/
inductive Origin where
  | implied
  | dotted
  | headed
  deriving DecidableEq

/-- A part of a document that is being read. The last of repeated tables comes first. -/
inductive Node where
  | value (v : Value)
  | table (origin : Origin) (members : List (String × Node))
  | repeated (tables : List Node)

abbrev Nodes := List (String × Node)

mutual

def Node.toValue : Node → Value
  | .value v => v
  | .table _ ms => .table (valuesOfMembers ms)
  | .repeated ns => .list (valuesOfList ns).reverse

def valuesOfMembers : Nodes → List (String × Value)
  | [] => []
  | (k, n) :: ms => (k, n.toValue) :: valuesOfMembers ms

def valuesOfList : List Node → List Value
  | [] => []
  | n :: ns => n.toValue :: valuesOfList ns

end

def update (k : String) (f : Option Node → Option Node) : Nodes → Option Nodes
  | [] => (f none).map fun n => [(k, n)]
  | m :: ms =>
    if m.1 = k then (f (some m.2)).map fun n => (k, n) :: ms
    else (update k f ms).map (m :: ·)

def dive : List String → (Nodes → Option Nodes) → Nodes → Option Nodes
  | [], f => f
  | k :: ks, f => update k fun
    | none => (dive ks f []).map (.table .implied)
    | some (.table o ms) => (dive ks f ms).map (.table o)
    | some (.repeated (.table o ms :: ns)) =>
      (dive ks f ms).map fun ms => .repeated (.table o ms :: ns)
    | some _ => none

/-- Defines a dotted key. Only tables that come from dotted keys take further ones; other tables that
have not been opened, and the last of repeated ones, are passed through. -/
def define (k : String) (v : Value) : List String → Nodes → Option Nodes
  | [] => update k fun
    | none => some (.value v)
    | some _ => none
  | j :: js => update j fun
    | none => (define k v js []).map (.table .dotted)
    | some (.table .dotted ms) => (define k v js ms).map (.table .dotted)
    | some (.table .implied ms) =>
      if js = [] then none else (define k v js ms).map (.table .implied)
    | some (.repeated (.table o ms :: ns)) =>
      if js = [] then none
      else (define k v js ms).map fun ms => .repeated (.table o ms :: ns)
    | some _ => none

def defineKey (key : List String) (v : Value) (ms : Nodes) : Option Nodes := do
  define (← key.getLast?) v key.dropLast ms

def openTable (key : List String) (ms : Nodes) : Option Nodes := do
  let k ← key.getLast?
  dive key.dropLast (update k fun
    | none => some (.table .headed [])
    | some (.table .implied ns) => some (.table .headed ns)
    | some _ => none) ms

def openRepeated (key : List String) (ms : Nodes) : Option Nodes := do
  let k ← key.getLast?
  dive key.dropLast (update k fun
    | none => some (.repeated [.table .headed []])
    | some (.repeated ns) => some (.repeated (.table .headed [] :: ns))
    | some _ => none) ms

abbrev Reader := StateT (List Char) Option

def char (c : Char) : Reader Unit
  | d :: s => if c = d then some ((), s) else none
  | [] => none

def isGap (c : Char) : Bool :=
  c == ' ' || c == '\t'

def skipGap : Reader Unit := fun s =>
  some ((), s.dropWhile isGap)

def isPlain (c : Char) : Bool :=
  c == '\t' || (32 ≤ c.toNat && c.toNat != 127)

def newline? : List Char → Option (List Char)
  | '\n' :: s => some s
  | '\r' :: '\n' :: s => some s
  | _ => none

def dropComment : List Char → List Char
  | '#' :: s => s.dropWhile isPlain
  | s => s

def endOfLine : Reader Unit := fun s =>
  match dropComment (s.dropWhile isGap) with
  | [] => some ((), [])
  | t => (newline? t).map (((), ·))

def skipLines (fuel : Nat) : Reader Unit := fun s =>
  let t := dropComment (s.dropWhile isGap)
  match fuel, newline? t with
  | fuel + 1, some t => skipLines fuel t
  | _, _ => some ((), t)

def codePoint (width : Nat) : Reader Char := fun s =>
  if (s.take width).length < width then none
  else do
    let n ← readHex? 0 (s.take width)
    if n.isValidChar then some (Char.ofNat n, s.drop width) else none

def escape : Reader Char
  | '"' :: s => some ('"', s)
  | '\\' :: s => some ('\\', s)
  | 'b' :: s => some ('\x08', s)
  | 'f' :: s => some ('\x0c', s)
  | 'n' :: s => some ('\n', s)
  | 'r' :: s => some ('\r', s)
  | 't' :: s => some ('\t', s)
  | 'u' :: s => codePoint 4 s
  | 'U' :: s => codePoint 8 s
  | _ => none

def escaped (fuel : Nat) : Reader (List Char) := fun s =>
  match fuel, s with
  | _, '"' :: s => some ([], s)
  | fuel + 1, '\\' :: s => do
    let (c, s) ← escape s
    let (cs, s) ← escaped fuel s
    return (c :: cs, s)
  | fuel + 1, c :: s => do
    if isPlain c then
      let (cs, s) ← escaped fuel s
      return (c :: cs, s)
    else failure
  | _, _ => none

def literal : Reader (List Char) := fun s =>
  let cs := s.takeWhile fun c => isPlain c && c != '\''
  match s.drop cs.length with
  | '\'' :: s => some (cs, s)
  | _ => none

def dropBreaks (fuel : Nat) (s : List Char) : List Char :=
  let s := s.dropWhile isGap
  match fuel, newline? s with
  | fuel + 1, some s => dropBreaks fuel s
  | _, _ => s

/-- How many quotes end a string on several lines: three, and up to two more that belong to it. -/
def closing (quote : Char) (s : List Char) : Option Nat :=
  let n := (s.takeWhile (· == quote)).length
  if n < 3 then none else some (min n 5)

/-- The rest of a string on several lines. A backslash at the end of a line joins it to the next
text. -/
def onLines (quote : Char) (fuel : Nat) : Reader (List Char) := fun s =>
  match closing quote s with
  | some n => some (List.replicate (n - 3) quote, s.drop n)
  | none =>
    match fuel, newline? s with
    | 0, _ => none
    | fuel + 1, some s => do
      let (cs, s) ← onLines quote fuel s
      return ('\n' :: cs, s)
    | fuel + 1, none =>
      match s with
      | [] => none
      | c :: s =>
        if c = '\\' ∧ quote = '"' then
          if (newline? (s.dropWhile isGap)).isSome then
            onLines quote fuel (dropBreaks s.length s)
          else do
            let (c, s) ← escape s
            let (cs, s) ← onLines quote fuel s
            return (c :: cs, s)
        else if isPlain c then do
          let (cs, s) ← onLines quote fuel s
          return (c :: cs, s)
        else none

def onLinesFrom (quote : Char) : Reader (List Char) := fun s =>
  let s := (newline? s).getD s
  onLines quote s.length s

def isBareChar (c : Char) : Bool :=
  c.isAlphanum || c == '_' || c == '-'

def keyPart : Reader String
  | '"' :: s => (String.ofList <$> escaped s.length).run s
  | '\'' :: s => (String.ofList <$> literal).run s
  | s =>
    let cs := s.takeWhile isBareChar
    if cs = [] then none else some (String.ofList cs, s.drop cs.length)

/-- How deep keys reach into tables, and how deep lists and tables may nest within a value. -/
def maxDepth : Nat := 79

def keyParts (parts : Nat) : Reader (List String) := fun s =>
  match parts with
  | 0 => none
  | parts + 1 => do
    let (k, s) ← keyPart (s.dropWhile isGap)
    match s.dropWhile isGap with
    | '.' :: s => do
      let (ks, s) ← keyParts parts s
      return (k :: ks, s)
    | s => return ([k], s)

def key : Reader (List String) :=
  keyParts maxDepth

def ungrouped? (isDigit : Char → Bool) (s : List Char) : Option (List Char) :=
  let groups := s.splitOn '_'
  if groups.all fun g => g != [] && g.all isDigit then some groups.flatten else none

def wholeNumber? (s : List Char) : Option Nat := do
  let ds ← ungrouped? Char.isDigit s
  if ds.head? = some '0' ∧ ds ≠ ['0'] then none else some (numberOf ds)

def digitsInBase? (base : Nat) (s : List Char) : Option Nat := do
  let ds ← ungrouped? (fun c => (hexValue? c).any (· < base)) s
  return ds.foldl (fun n c => base * n + (hexValue? c).getD 0) 0

def dropSign : List Char → List Char
  | '+' :: s => s
  | '-' :: s => s
  | s => s

/-- An integer fits a word of 64 bits with a sign; other bases than ten take no sign. -/
def isInteger : List Char → Bool
  | '0' :: 'x' :: s => (digitsInBase? 16 s).any (· ≤ Word.largestCount)
  | '0' :: 'o' :: s => (digitsInBase? 8 s).any (· ≤ Word.largestCount)
  | '0' :: 'b' :: s => (digitsInBase? 2 s).any (· ≤ Word.largestCount)
  | '-' :: s => (wholeNumber? s).any (· ≤ Word.largestCount + 1)
  | s => (wholeNumber? (dropSign s)).any (· ≤ Word.largestCount)

def isNumberChar (c : Char) : Bool :=
  c.isDigit || c == '_'

def exponent? : List Char → Option Int
  | '-' :: s => (ungrouped? Char.isDigit s).map fun ds => -(numberOf ds : Int)
  | '+' :: s => (ungrouped? Char.isDigit s).map fun ds => (numberOf ds : Int)
  | s => (ungrouped? Char.isDigit s).map fun ds => (numberOf ds : Int)

def floatTail? : List Char → Option (List Char × Int)
  | '.' :: s => do
    let ds := s.takeWhile isNumberChar
    let places ← ungrouped? Char.isDigit ds
    match s.drop ds.length with
    | [] => return (places, 0)
    | c :: s =>
      if c = 'e' ∨ c = 'E' then return (places, ← exponent? s) else none
  | c :: s => if c = 'e' ∨ c = 'E' then (exponent? s).map fun e => ([], e) else none
  | [] => none

/-- A decimal that does not round to infinity; with a minus sign it may. -/
def isDecimal (s : List Char) : Bool :=
  let unsigned := dropSign s
  let whole := unsigned.takeWhile isNumberChar
  match wholeNumber? whole, floatTail? (unsigned.drop whole.length) with
  | some n, some (places, e) =>
    s.head? == some '-' ||
      !Binary64.overflows (n * Nat.pow 10 places.length + numberOf places) (e - places.length)
  | _, _ => false

def isFloat (s : List Char) : Bool :=
  let unsigned := dropSign s
  unsigned == ['i', 'n', 'f'] || unsigned == ['n', 'a', 'n'] || isDecimal s

def date : Reader Unit := do
  let year ← Instant.number 4 4
  char '-'
  let month ← Instant.number 2 2
  char '-'
  let day ← Instant.number 2 2
  if Date.IsValid ⟨year, month, day⟩ then pure () else failure

def fraction : Reader Unit
  | '.' :: s => if (s.takeWhile Char.isDigit) = [] then none else some ((), s.dropWhile Char.isDigit)
  | s => some ((), s)

def timeOfDay : Reader Unit := do
  let hour ← Instant.number 2 2
  char ':'
  let minute ← Instant.number 2 2
  char ':'
  let second ← Instant.number 2 2
  fraction
  if hour ≤ 23 ∧ minute ≤ 59 ∧ second ≤ 60 then pure () else failure

def offset : Reader Unit
  | [] => some ((), [])
  | s => do
    let (n, s) ← Instant.offset (char ':') s
    if n.natAbs < 86400 then some ((), s) else none

def readsAs (r : Reader Unit) (s : List Char) : Bool :=
  match r s with
  | some ((), []) => true
  | _ => false

def dateAndTime : Reader Unit := do
  date
  Instant.dateTimeSeparator
  timeOfDay
  offset

def isMoment (s : List Char) : Bool :=
  readsAs date s || readsAs timeOfDay s || readsAs dateAndTime s

/-- What is neither a string nor a collection. A date or time is a table of its own kind. -/
def scalar? (s : List Char) : Option Value :=
  if s = ['t', 'r', 'u', 'e'] then some (.bool true)
  else if s = ['f', 'a', 'l', 's', 'e'] then some (.bool false)
  else if isInteger s || isFloat s then some .number
  else if isMoment s then some (.table [("", .text (String.ofList s))])
  else none

def isScalarChar (c : Char) : Bool :=
  c.isAlphanum || c == '+' || c == '-' || c == '_' || c == '.' || c == ':'

def startsTime : List Char → Bool
  | c :: d :: ':' :: _ => c.isDigit && d.isDigit
  | _ => false

def scalar : Reader Value := fun s =>
  let first := s.takeWhile isScalarChar
  let rest := s.drop first.length
  match rest with
  | ' ' :: t =>
    if readsAs date first && startsTime t then
      let second := t.takeWhile isScalarChar
      (scalar? (first ++ ' ' :: second)).map ((·, t.drop second.length))
    else (scalar? first).map ((·, rest))
  | _ => (scalar? first).map ((·, rest))

def string : Reader String
  | '"' :: '"' :: '"' :: s => (String.ofList <$> onLinesFrom '"').run s
  | '\'' :: '\'' :: '\'' :: s => (String.ofList <$> onLinesFrom '\'').run s
  | '"' :: s => (String.ofList <$> escaped s.length).run s
  | '\'' :: s => (String.ofList <$> literal).run s
  | _ => none

mutual

def value (fuel depth : Nat) : Reader Value := fun s =>
  match fuel, depth, s with
  | fuel + 1, depth + 1, '[' :: s => items fuel depth [] s
  | fuel + 1, depth + 1, '\x7b' :: s =>
    match s.dropWhile isGap with
    | '\x7d' :: s => some (.table [], s)
    | s => members fuel depth [] s
  | _, _, '"' :: _ => (Value.text <$> string).run s
  | _, _, '\'' :: _ => (Value.text <$> string).run s
  | _, _, _ => scalar s

def items (fuel depth : Nat) (read : List Value) : Reader Value := fun s =>
  match fuel with
  | 0 => none
  | fuel + 1 => do
    let (_, s) ← skipLines s.length s
    match s with
    | ']' :: s => return (.list read.reverse, s)
    | s =>
      let (v, s) ← value fuel depth s
      let (_, s) ← skipLines s.length s
      match s with
      | ',' :: s => items fuel depth (v :: read) s
      | ']' :: s => return (.list (v :: read).reverse, s)
      | _ => none

def members (fuel depth : Nat) (read : Nodes) : Reader Value := fun s =>
  match fuel with
  | 0 => none
  | fuel + 1 => do
    let (k, s) ← key s
    let (_, s) ← char '=' s
    let (v, s) ← value fuel depth (s.dropWhile isGap)
    let read ← defineKey k v read
    match s.dropWhile isGap with
    | ',' :: s => members fuel depth read s
    | '\x7d' :: s => return (.table (valuesOfMembers read), s)
    | _ => none

end

structure Draft where
  nodes : Nodes
  header : List String

def line (d : Draft) : Reader Draft := fun s =>
  match s.dropWhile isGap with
  | '[' :: '[' :: s => do
    let (k, s) ← key s
    let (_, s) ← char ']' s
    let (_, s) ← char ']' s
    let (_, s) ← endOfLine s
    return (⟨← openRepeated k d.nodes, k⟩, s)
  | '[' :: s => do
    let (k, s) ← key s
    let (_, s) ← char ']' s
    let (_, s) ← endOfLine s
    return (⟨← openTable k d.nodes, k⟩, s)
  | s =>
    match endOfLine s with
    | some (_, s) => some (d, s)
    | none => do
      let (k, s) ← key s
      let (_, s) ← char '=' s
      let (v, s) ← value (2 * s.length + 2) maxDepth (s.dropWhile isGap)
      let (_, s) ← endOfLine s
      return ({ d with nodes := ← dive d.header (defineKey k v) d.nodes }, s)

def lines (fuel : Nat) (d : Draft) : List Char → Option Draft
  | [] => some d
  | s =>
    match fuel with
    | 0 => none
    | fuel + 1 => do
      let (d, s) ← line d s
      lines fuel d s

def dropMark : List Char → List Char
  | '\ufeff' :: s => s
  | s => s

def read (text : String) : Option Value := do
  let s := dropMark text.toList
  let d ← lines s.length ⟨[], []⟩ s
  return .table (valuesOfMembers d.nodes)

end Timesheet.Settings.Toml
