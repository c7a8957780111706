import Timesheet.Tag
import Timesheet.Text.Digit
import Timesheet.Word

/-!
The grammar of a command line: commands with options, positional arguments and subcommands, and the
reading of arguments by such a grammar. Options may come in any order, values may be attached with an
equals sign, short options may be run together, and two hyphens end the options.
-/

namespace Timesheet.CommandLine

/-- Why arguments were not accepted. The three displays are requests, not mistakes. -/
inductive UsageFault where
  | argumentConflict
  | displayHelp
  | displayHelpOnMissing
  | displayVersion
  | invalidSubcommand
  | invalidValue
  | missingRequiredArgument
  | missingSubcommand
  | tooManyValues
  | unknownArgument
  | valueValidation
  deriving DecidableEq

inductive ValueKind where
  | text
  | path
  | word
  | count
  | bool
  | tagMode
  deriving DecidableEq

def largestCount : Int := 0xffffffff

def word? (s : String) : Option Int :=
  (Text.readInt? s.toList).filter Word.fits

def count? (s : String) : Option Nat :=
  ((word? s).filter fun n => 0 ≤ n ∧ n ≤ largestCount).map Int.toNat

def bool? (s : String) : Option Bool :=
  if s = "true" then some true else if s = "false" then some false else none

/-- A value out of a fixed choice is invalid where another one fails its own check. -/
def ValueKind.check (s : String) : ValueKind → Except UsageFault Unit
  | text => .ok ()
  | path => if s = "" then .error .invalidValue else .ok ()
  | word => if (word? s).isSome then .ok () else .error .valueValidation
  | count => if (count? s).isSome then .ok () else .error .valueValidation
  | bool => if (bool? s).isSome then .ok () else .error .invalidValue
  | tagMode => if (TagMode.parse? s).isSome then .ok () else .error .valueValidation

structure OptionSpec where
  name : String
  short : Option Char := none
  value : Option ValueKind := none
  /-- Its values may be given several times, and are cut at commas. -/
  isList : Bool := false
  required : Bool := false
  takesNegative : Bool := false
  deriving DecidableEq

structure PositionalSpec where
  name : String
  isList : Bool := false
  deriving DecidableEq

structure CommandSpec where
  name : String
  options : List OptionSpec := []
  positionals : List PositionalSpec := []
  subcommands : List CommandSpec := []
  needsSubcommand : Bool := false
  hasVersion : Bool := false

namespace CommandSpec

def subcommand? (c : CommandSpec) (name : String) : Option CommandSpec :=
  c.subcommands.find? fun s => s.name = name

def hasSubcommands (c : CommandSpec) : Bool :=
  !c.subcommands.isEmpty

def isSubcommandName (c : CommandSpec) (name : String) : Bool :=
  c.hasSubcommands && (name = "help" || (c.subcommand? name).isSome)

end CommandSpec

inductive Collecting where
  | option (o : OptionSpec)
  | positional (p : PositionalSpec)
  deriving DecidableEq

namespace Collecting

def name : Collecting → String
  | option o => o.name
  | positional p => p.name

def isList : Collecting → Bool
  | option o => o.isList
  | positional p => p.isList

def kind : Collecting → ValueKind
  | option o => o.value.getD .text
  | positional _ => .text

end Collecting

inductive Expecting where
  | nothing
  | value (o : OptionSpec)
  | more
  deriving DecidableEq

abbrev Matches := List (String × List String)

structure State where
  found : Matches := []
  pending : Option (Collecting × List String) := none
  expecting : Expecting := .nothing
  position : Nat := 0
  trailing : Bool := false

def cutAtCommas (s : String) : List String :=
  (s.toList.splitOn ',').map String.ofList

namespace State

def isFound (s : State) (name : String) : Bool :=
  (s.found.lookup name).isSome

def record (s : State) (name : String) (values : List String) : State :=
  let others := s.found.filter fun m => m.1 != name
  { s with found := others ++ [(name, (s.found.lookup name).getD [] ++ values)] }

def accept (s : State) (a : Collecting) (values : List String) : Except UsageFault State := do
  if values = [] then throw .invalidValue
  if s.isFound a.name ∧ ¬a.isList then throw .argumentConflict
  let values := if a.isList then values.flatMap cutAtCommas else values
  values.forM fun v => a.kind.check v
  return s.record a.name values

def settle (s : State) : Except UsageFault State :=
  match s.pending with
  | none => .ok s
  | some (a, values) => { s with pending := none }.accept a values

def flag (s : State) (name : String) : Except UsageFault State := do
  let s ← s.settle
  if s.isFound name then throw .argumentConflict
  return { s.record name [] with expecting := .nothing }

def option (s : State) (o : OptionSpec) : Option String → Except UsageFault State
  | some v => do
    let s ← (← s.settle).accept (.option o) [v]
    return { s with expecting := .nothing }
  | none => do
    let s ← s.settle
    return { s with pending := some (.option o, []), expecting := .value o }

def request (s : State) (f : UsageFault) : Except UsageFault State := do
  let _ ← s.settle
  throw f

end State

def isNumberTail : Bool → Bool → List Char → Bool
  | _, _, [] => true
  | point, mark, c :: s =>
    if c.isDigit then isNumberTail point mark s
    else if c = '.' then !point && !mark && isNumberTail true mark s
    else if c = 'e' ∨ c = 'E' then !mark && s != [] && isNumberTail point true s
    else false

def isNumber : List Char → Bool
  | [] => true
  | c :: s => c.isDigit && isNumberTail false false s

def cutAtEquals (s : List Char) : List Char × Option String :=
  let name := s.takeWhile fun c => c != '='
  match s.drop name.length with
  | [] => (name, none)
  | _ :: value => (name, some (String.ofList value))

def readLong (c : CommandSpec) (s : State) (body : List Char) : Except UsageFault State :=
  let (name, value) := cutAtEquals body
  let name := String.ofList name
  match c.options.find? fun o => o.name = name with
  | some o =>
    match o.value, value with
    | some _, _ => s.option o value
    | none, none => s.flag name
    | none, some _ => .error .tooManyValues
  | none =>
    if name = "help" then
      if value.isSome then .error .tooManyValues else s.request .displayHelp
    else if name = "version" ∧ c.hasVersion then
      if value.isSome then .error .tooManyValues else s.request .displayVersion
    else .error .unknownArgument

def attached : List Char → Option String
  | [] => none
  | '=' :: s => some (String.ofList s)
  | s => some (String.ofList s)

def readShort (c : CommandSpec) (s : State) : List Char → Except UsageFault State
  | [] => .ok s
  | x :: rest =>
    match c.options.find? fun o => o.short = some x with
    | some o =>
      match o.value with
      | some _ => s.option o (attached rest)
      | none => do readShort c (← s.flag o.name) rest
    | none =>
      if x = 'h' then s.request .displayHelp
      else if x = 'V' ∧ c.hasVersion then s.request .displayVersion
      else .error .unknownArgument

inductive Shape where
  | escape
  | long (body : List Char)
  | short (body : List Char)
  | plain
  deriving DecidableEq

def shape (arg : String) : Shape :=
  match arg.toList with
  | ['-', '-'] => .escape
  | '-' :: '-' :: s => .long s
  | '-' :: c :: s => .short (c :: s)
  | _ => .plain

def State.giveValue (s : State) (o : OptionSpec) (arg : String) : State :=
  { s with pending := some (.option o, [arg]), expecting := .nothing }

def misplaced (c : CommandSpec) (s : State) (arg : String) : UsageFault :=
  if s.trailing ∧ c.isSubcommandName arg then .unknownArgument
  else if c.hasSubcommands then .invalidSubcommand
  else .unknownArgument

def State.place (s : State) (c : CommandSpec) (arg : String) : Except UsageFault State :=
  match c.positionals[s.position]? with
  | none => .error (misplaced c s arg)
  | some p =>
    if p.isList then
      match s.pending with
      | some (.positional q, values) =>
        if p = q then
          .ok { s with pending := some (.positional p, values ++ [arg]), expecting := .more }
        else do
          let s ← s.settle
          return { s with pending := some (.positional p, [arg]), expecting := .more }
      | _ => do
        let s ← s.settle
        return { s with pending := some (.positional p, [arg]), expecting := .more }
    else do
      let s ← s.settle
      return { s with
        pending := some (.positional p, [arg]), position := s.position + 1, expecting := .nothing }

def step (c : CommandSpec) (s : State) (arg : String) : Except UsageFault State :=
  if s.trailing then s.place c arg
  else
    match shape arg, s.expecting with
    | .escape, _ => .ok { s with trailing := true }
    | .long body, _ => readLong c s body
    | .short body, .value o =>
      if o.takesNegative ∧ isNumber body then .ok (s.giveValue o arg) else readShort c s body
    | .short body, _ => readShort c s body
    | .plain, .value o => .ok (s.giveValue o arg)
    | .plain, _ => s.place c arg

def State.finish (s : State) (c : CommandSpec) : Except UsageFault Matches := do
  let s ← s.settle
  if c.needsSubcommand then
    throw (if s.found = [] then .displayHelpOnMissing else .missingSubcommand)
  let needed := (c.options.filter OptionSpec.required).map OptionSpec.name ++
    c.positionals.map PositionalSpec.name
  if needed.all s.isFound then return s.found else throw .missingRequiredArgument

def helpOn (c : CommandSpec) : List String → UsageFault
  | [] => .displayHelp
  | name :: rest =>
    match c.subcommand? name with
    | some sub => helpOn sub rest
    | none =>
      if c.hasSubcommands ∧ name = "help" ∧ rest = [] then .displayHelp else .invalidSubcommand

abbrev Path := List (String × Matches)

/-- Reads arguments by a grammar. A subcommand is read to its end before the command above it. -/
def readFrom (c : CommandSpec) (s : State) : List String → Except UsageFault Path
  | [] => do
    return [(c.name, ← s.finish c)]
  | arg :: rest =>
    if s.trailing ∨ s.expecting ≠ .nothing ∨ ¬c.isSubcommandName arg then
      match step c s arg with
      | .ok s => readFrom c s rest
      | .error e => .error e
    else
      match c.subcommand? arg with
      | some sub => do
        let path ← readFrom sub {} rest
        let s ← s.settle
        return (c.name, s.found) :: path
      | none => .error (helpOn c rest)

def CommandSpec.read (c : CommandSpec) (args : List String) : Except UsageFault Path :=
  readFrom c {} args

end Timesheet.CommandLine
