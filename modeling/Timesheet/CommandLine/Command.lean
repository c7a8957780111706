import Timesheet.CommandLine.Grammar

namespace Timesheet.CommandLine

structure EntryOptions where
  description : Option String
  workspace : Option String
  project : Option String
  task : Option String
  billable : Bool
  tags : List String
  durationOnly : Bool
  createdWith : Option String
  deriving DecidableEq

structure ChangeOptions where
  description : Option String
  workspace : Option String
  project : Option String
  task : Option String
  billable : Option Bool
  start : Option String
  stop : Option String
  tags : Option (List String)
  durationOnly : Option Bool
  deriving DecidableEq

structure PageOptions where
  number : Nat
  size : Nat
  deriving DecidableEq

inductive Command where
  | create (entry : EntryOptions) (start : String) (duration : Int)
  | start (entry : EntryOptions)
  | stop (id : String) (moment : Option String)
  | update (ids : String) (changes : ChangeOptions)
  | delete (id : String)
  | tag (ids : String) (tags : List String) (mode : TagMode)
  | detail (id : String)
  | running (page : PageOptions)
  | range (first : String) (last : Option String) (page : PageOptions)
  | dashboard
  | syncTask (id : String)
  | syncProject (id : String)
  | addTask (name : String) (project id : Option String)
  | taskDetail (id : String)
  | addProject (name : String) (workspace : Option String) (autoEstimates : Bool)
      (id : Option String)
  | projectDetail (id : String)
  deriving DecidableEq

/-- A command with what goes for all of them. Without a command there is only help to show. -/
structure Invocation where
  command : Option Command
  json : Bool
  verbose : Bool
  config : Option String
  deriving DecidableEq

namespace Command

def commonOptions : List OptionSpec :=
  [{ name := "verbose", short := some 'v' },
    { name := "config", short := some 'c', value := some .path }]

def jsonOption : OptionSpec :=
  { name := "json" }

def textOption (name : String) : OptionSpec :=
  { name, value := some .text }

def shortTextOption (name : String) (short : Char) : OptionSpec :=
  { name, short := some short, value := some .text }

def assignmentOptions : List OptionSpec :=
  [shortTextOption "description" 'd',
    textOption "workspace",
    shortTextOption "project" 'p',
    shortTextOption "task" 't',
    { name := "tags", value := some .text, isList := true }]

def entryOptions : List OptionSpec :=
  assignmentOptions ++
    [{ name := "billable" }, { name := "duration-only" }, textOption "created-with"]

def changeOptions : List OptionSpec :=
  assignmentOptions ++
    [{ name := "billable", value := some .bool },
      textOption "start",
      textOption "stop",
      { name := "duration-only", value := some .bool }]

def pageOptions : List OptionSpec :=
  [{ name := "page", value := some .count }, { name := "page-size", value := some .count }]

def leaf (name : String) (positionals : List PositionalSpec) (options : List OptionSpec) :
    CommandSpec where
  name := name
  options := options ++ [jsonOption] ++ commonOptions
  positionals := positionals

def family (name : String) (subcommands : List CommandSpec) : CommandSpec where
  name := name
  options := commonOptions
  subcommands := subcommands
  needsSubcommand := true

def idPosition : PositionalSpec :=
  { name := "id" }

def idsPosition : PositionalSpec :=
  { name := "ids" }

def namePosition : PositionalSpec :=
  { name := "name" }

def createSpec : CommandSpec :=
  leaf "create" [] (entryOptions ++
    [{ name := "start", value := some .text, required := true },
      { name := "duration", value := some .word, required := true, takesNegative := true }])

def updateSpec : CommandSpec :=
  leaf "update" [idsPosition] changeOptions

def tagSpec : CommandSpec :=
  leaf "tag" [idsPosition, { name := "tags", isList := true }]
    [{ name := "mode", value := some .tagMode }]

def rangeSpec : CommandSpec :=
  leaf "range" [] ([{ name := "from", value := some .text, required := true }, textOption "to"] ++
    pageOptions)

def syncSpec : CommandSpec :=
  family "sync" [leaf "task" [idPosition] [], leaf "project" [idPosition] []]

def tasksSpec : CommandSpec :=
  family "tasks"
    [leaf "add" [namePosition] [shortTextOption "project" 'p', textOption "id"],
      leaf "show" [idPosition] []]

def projectsSpec : CommandSpec :=
  family "projects"
    [leaf "add" [namePosition] [textOption "workspace", { name := "auto-estimates" }, textOption "id"],
      leaf "show" [idPosition] []]

def grammar : CommandSpec where
  name := "tally"
  options := commonOptions
  subcommands :=
    [createSpec,
      leaf "start" [] entryOptions,
      leaf "stop" [idPosition] [textOption "at"],
      updateSpec,
      leaf "delete" [idPosition] [],
      tagSpec,
      leaf "show" [idPosition] [],
      leaf "running" [] pageOptions,
      rangeSpec,
      leaf "dash" [] [],
      syncSpec,
      tasksSpec,
      projectsSpec]
  hasVersion := true

end Command

namespace Matches

def all (m : Matches) (name : String) : Option (List String) :=
  m.lookup name

def value (m : Matches) (name : String) : Option String :=
  (m.all name).bind List.head?

def isGiven (m : Matches) (name : String) : Bool :=
  (m.all name).isSome

def bool (m : Matches) (name : String) : Option Bool :=
  (m.value name).bind bool?

def count (m : Matches) (name : String) (default : Nat) : Nat :=
  ((m.value name).bind count?).getD default

def text (m : Matches) (name : String) : String :=
  (m.value name).getD ""

def entryOptions (m : Matches) : EntryOptions where
  description := m.value "description"
  workspace := m.value "workspace"
  project := m.value "project"
  task := m.value "task"
  billable := m.isGiven "billable"
  tags := (m.all "tags").getD []
  durationOnly := m.isGiven "duration-only"
  createdWith := m.value "created-with"

def changeOptions (m : Matches) : ChangeOptions where
  description := m.value "description"
  workspace := m.value "workspace"
  project := m.value "project"
  task := m.value "task"
  billable := m.bool "billable"
  start := m.value "start"
  stop := m.value "stop"
  tags := m.all "tags"
  durationOnly := m.bool "duration-only"

def pageOptions (m : Matches) : PageOptions where
  number := m.count "page" 1
  size := m.count "page-size" 50

def tagMode (m : Matches) : TagMode :=
  ((m.value "mode").bind TagMode.parse?).getD .add

def command? (m : Matches) : List String → Option Command
  | ["create"] =>
    some (.create m.entryOptions (m.text "start") (((m.value "duration").bind word?).getD 0))
  | ["start"] => some (.start m.entryOptions)
  | ["stop"] => some (.stop (m.text "id") (m.value "at"))
  | ["update"] => some (.update (m.text "ids") m.changeOptions)
  | ["delete"] => some (.delete (m.text "id"))
  | ["tag"] => some (.tag (m.text "ids") ((m.all "tags").getD []) m.tagMode)
  | ["show"] => some (.detail (m.text "id"))
  | ["running"] => some (.running m.pageOptions)
  | ["range"] => some (.range (m.text "from") (m.value "to") m.pageOptions)
  | ["dash"] => some .dashboard
  | ["sync", "task"] => some (.syncTask (m.text "id"))
  | ["sync", "project"] => some (.syncProject (m.text "id"))
  | ["tasks", "add"] => some (.addTask (m.text "name") (m.value "project") (m.value "id"))
  | ["tasks", "show"] => some (.taskDetail (m.text "id"))
  | ["projects", "add"] =>
    some (.addProject (m.text "name") (m.value "workspace") (m.isGiven "auto-estimates")
      (m.value "id"))
  | ["projects", "show"] => some (.projectDetail (m.text "id"))
  | _ => none

end Matches

def Invocation.ofPath (path : Path) : Invocation :=
  let own : Matches := (path.getLast?.map Prod.snd).getD []
  { command := own.command? ((path.drop 1).map Prod.fst)
    json := own.isGiven "json"
    verbose := path.any fun p => Matches.isGiven p.2 "verbose"
    config := path.reverse.findSome? fun p => Matches.value p.2 "config" }

def Invocation.read (args : List String) : Except UsageFault Invocation :=
  (Command.grammar.read args).map Invocation.ofPath

end Timesheet.CommandLine
