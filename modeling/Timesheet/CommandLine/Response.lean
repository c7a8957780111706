import Timesheet.CommandLine.Execution

namespace Timesheet.CommandLine

structure Response where
  exit : Nat
  out : String := ""
  err : String := ""
  deriving DecidableEq

namespace UsageFault

def isRequest : UsageFault → Bool
  | displayHelp => true
  | displayVersion => true
  | _ => false

def message : UsageFault → String
  | argumentConflict => "an argument was given more than once"
  | displayHelp => "help"
  | displayHelpOnMissing => "a subcommand is needed"
  | displayVersion => "version"
  | invalidSubcommand => "there is no such subcommand"
  | invalidValue => "an argument has an invalid value"
  | missingRequiredArgument => "a required argument is missing"
  | missingSubcommand => "a subcommand is needed"
  | tooManyValues => "a flag takes no value"
  | unknownArgument => "there is no such argument"
  | valueValidation => "an argument has an invalid value"

end UsageFault

namespace Response

def version : String := "tally 0.1.0"

def help : String :=
  "Usage: tally [OPTIONS] [COMMAND]\n\nCommands:\n" ++
    "".intercalate (Command.grammar.subcommands.map fun c => "  " ++ c.name ++ "\n")

def ofUsage : UsageFault → Response
  | .displayHelp => { exit := 0, out := help }
  | .displayVersion => { exit := 0, out := version ++ "\n" }
  | f => { exit := 2, err := "error: " ++ f.message ++ "\n\n" ++ help }

def ofOutcome (o : Outcome) : Response :=
  match o.fault with
  | none => { exit := 0, out := o.out }
  | some f => { exit := 1, out := o.out, err := f.report }

def ofFault (f : CommandFault) : Response :=
  ofOutcome { out := "", fault := some f }

end Response

def checkedSettings (loaded : Option Settings) : Except CommandFault (Settings × DatePattern) :=
  match loaded with
  | none => .error .unreadableSettings
  | some s => (s.check.mapError CommandFault.settings).map fun p => (s, p)

end Timesheet.CommandLine
