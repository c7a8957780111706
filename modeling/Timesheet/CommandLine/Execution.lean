import Timesheet.CommandLine.Command
import Timesheet.CommandLine.Work
import Timesheet.Exchange
import Timesheet.Report
import Timesheet.Service.Batch

/-!
What commands do at a desk with a database, and what they print: text for people, or a document in
the exchange format. A command that fails has printed nothing, except that a change of several
entries first reports on each of them.
-/

namespace Timesheet.CommandLine

open Work

def EntryOptions.fields (o : EntryOptions) (s : Settings) : EntryFields where
  description := o.description
  workspace := o.workspace.or s.workspace
  project := o.project
  task := o.task
  billable := o.billable
  createdWith := some (o.createdWith.getD s.createdWith)
  tags := if o.tags = [] then none else some o.tags
  durationOnly := o.durationOnly

def ChangeOptions.patch (x : Context) (o : ChangeOptions) : Work Patch := do
  let start ← x.optionalMoment o.start
  let stop ← x.optionalMoment o.stop
  return {
    start, stop
    description := o.description
    workspace := o.workspace
    project := o.project
    task := o.task
    billable := o.billable
    tags := o.tags
    durationOnly := o.durationOnly }

def PageOptions.page (o : PageOptions) : Work Page :=
  ofExcept .paging (Page.of o.number o.size)

def headedLine (x : Context) (heading : String) (e : Entry) : String :=
  heading ++ " " ++ Report.entryLine x.pattern e

def create (x : Context) (json : Bool) (o : EntryOptions) (start : String) (duration : Int) :
    Work Outcome := do
  let owner ← x.owner
  let start ← x.moment start
  let input : NewEntry :=
    { fields := o.fields x.settings, start := some start, duration := some duration }
  let e ← serve .createEntry (Service.create input owner x.now)
  return choose json (Exchange.entry e) (headedLine x "Created" e)

def start (x : Context) (json : Bool) (o : EntryOptions) : Work Outcome := do
  let owner ← x.owner
  let e ← serve .startTimer (Service.start x.settings.policy (o.fields x.settings) owner x.now)
  return choose json (Exchange.entry e) (headedLine x "Started" e)

def stop (x : Context) (json : Bool) (id : String) (moment : Option String) : Work Outcome := do
  let moment ← x.momentOrNow moment
  let e ← serve (.stopEntry id) (Service.stop id moment)
  return choose json (Exchange.entry e) (headedLine x "Stopped" e)

def delete (x : Context) (json : Bool) (id : String) : Work Outcome := do
  let e ← serve (.deleteEntry id) (Service.delete x.settings.policy id x.now)
  return choose json (Exchange.entry e)
    (Report.line ("Deleted time entry " ++ e.id.text) ++ Report.entryDetail x.pattern e)

def batchDocument (changed : List Entry) (failed : List (String × ServiceFault)) : Json :=
  .object [("updated", Exchange.entries changed),
    ("failed", .array (failed.map fun f =>
      .object [("id", .string f.1), ("error", .string f.2.message)]))]

def batchText (x : Context) (change : BatchChange) (changed : List Entry)
    (failed : List (String × ServiceFault)) : String :=
  "".intercalate (changed.map (headedLine x change.heading)) ++
    "".intercalate (failed.map fun f => Report.line ("Failed " ++ f.1 ++ ": " ++ f.2.message))

def reportBatch (x : Context) (json : Bool) (change : BatchChange) (items : List Service.BatchItem) :
    Work Outcome :=
  if items.isEmpty then throw .noEntries
  else
    let changed := items.filterMap Service.BatchItem.succeeded?
    let failed := items.filterMap Service.BatchItem.failed?
    let out := choose json (batchDocument changed failed) (batchText x change changed failed)
    if failed.isEmpty then pure out
    else pure { out with fault := some (.partlyFailed failed.length items.length change) }

def update (x : Context) (json : Bool) (ids : String) (o : ChangeOptions) : Work Outcome := do
  let patch ← o.patch x
  if patch.isEmpty then throw .nothingToUpdate
  reportBatch x json .update (← program (Service.updateBatch x.settings.policy ids patch x.now))

def tag (x : Context) (json : Bool) (ids : String) (tags : List String) (mode : TagMode) :
    Work Outcome := do
  reportBatch x json .tag (← program (Service.updateTagsBatch ids tags mode x.now))

def detail (x : Context) (json : Bool) (id : String) : Work Outcome := do
  let e ← serve (.loadEntry id) (Service.get id)
  return choose json (Exchange.entry e) (Report.entryDetail x.pattern e)

def running (x : Context) (json : Bool) (o : PageOptions) : Work Outcome := do
  let owner ← x.owner
  let page ← o.page
  let es ← serve .listRunning (Service.running owner page)
  return choose json (Exchange.entries es) (Report.entryList x.pattern es "No running timers.")

def range (x : Context) (json : Bool) (first : String) (last : Option String) (o : PageOptions) :
    Work Outcome := do
  let first ← x.moment first
  let last ← x.momentOrNow last
  let owner ← x.owner
  let page ← o.page
  let es ← serve .listEntries (Service.range owner page first last)
  return choose json (Exchange.entries es)
    (Report.entryList x.pattern es "No time entries in range.")

def titled (x : Context) (heading : String) (es : List Entry) : String :=
  Report.line heading ++ Report.entryList x.pattern es "  (none)"

def dashboard (x : Context) (json : Bool) : Work Outcome := do
  let owner ← x.owner
  let d ← serve .loadDashboard (Service.dashboard owner x.now)
  return choose json (Exchange.dashboard d)
    (titled x "Most active (last 7 days):" d.mostActive ++ Report.line "" ++
      titled x "Recent activity:" d.recent)

def syncTask (x : Context) (json : Bool) (id : String) : Work Outcome := do
  let t ← serve (.syncTask id) (Service.syncTaskTime id x.now)
  return choose json (Exchange.taskTotal t)
    (Report.line ("Task " ++ t.task.text ++ ": " ++ Report.duration t.trackedSeconds ++ " tracked"))

def projectTotalText (t : Service.ProjectTotal) : String :=
  let hours := Report.hours t.estimatedHours
  Report.line ("Project " ++ t.project.text ++ ": " ++
    (if t.applied then hours ++ " estimated"
      else "automatic estimates are off, left unchanged (" ++ hours ++ " tracked)"))

def syncProject (x : Context) (json : Bool) (id : String) : Work Outcome := do
  let t ← serve (.syncProject id) (Service.syncProjectTime id x.now)
  return choose json (Exchange.projectTotal t) (projectTotalText t)

def addTask (x : Context) (json : Bool) (name : String) (project id : Option String) :
    Work Outcome := do
  let id ← identifierOrNew .task id
  let project ← ofExcept .identifier (Identifier.parseOptional .project project)
  let t := Task.new id project (Text.trim name) x.now
  store (.createTask id.text) fun d => d.insertTask t
  return choose json (Exchange.task t)
    (Report.line ("Created task " ++ t.id.text ++ " (" ++ t.name ++ ")"))

def taskText (x : Context) (t : Task) : String :=
  Report.line ("Task:     " ++ t.id.text ++ " (" ++ t.name ++ ")") ++
    (if t.project.isAbsent then "" else Report.line ("Project:  " ++ t.project.text)) ++
    Report.line ("Tracked:  " ++ Report.duration t.trackedSeconds) ++
    Report.line ("Updated:  " ++ x.pattern.render t.updated)

def taskDetail (x : Context) (json : Bool) (id : String) : Work Outcome := do
  let key ← ofExcept .identifier (Identifier.parse .task id)
  let t ← load (.loadTask id) fun d => d.task key
  return choose json (Exchange.task t) (taskText x t)

def workspaceText (x : Context) (given : Option String) : Work String :=
  match given.or x.settings.workspace with
  | some text => pure text
  | none => throw .noWorkspace

def addProject (x : Context) (json : Bool) (name : String) (workspace : Option String)
    (autoEstimates : Bool) (id : Option String) : Work Outcome := do
  let id ← identifierOrNew .project id
  let text ← workspaceText x workspace
  let workspace ← ofExcept .identifier (Identifier.parse .workspace text)
  let p := Project.new id workspace (Text.trim name) autoEstimates x.now
  store (.createProject id.text) fun d => d.insertProject p
  return choose json (Exchange.project p)
    (Report.line ("Created project " ++ p.id.text ++ " (" ++ p.name ++ ")"))

def projectText (x : Context) (p : Project) : String :=
  Report.line ("Project:   " ++ p.id.text ++ " (" ++ p.name ++ ")") ++
    Report.line ("Workspace: " ++ p.workspace.text) ++
    Report.line ("Estimate:  " ++ Report.hours p.estimatedHours ++
      (if p.autoEstimates then "" else " (manual)")) ++
    Report.line ("Updated:   " ++ x.pattern.render p.updated)

def projectDetail (x : Context) (json : Bool) (id : String) : Work Outcome := do
  let key ← ofExcept .identifier (Identifier.parse .project id)
  let p ← load (.loadProject id) fun d => d.project key
  return choose json (Exchange.project p) (projectText x p)

def Command.work (x : Context) (json : Bool) : Command → Work Outcome
  | .create o s n => CommandLine.create x json o s n
  | .start o => CommandLine.start x json o
  | .stop id moment => CommandLine.stop x json id moment
  | .update ids o => CommandLine.update x json ids o
  | .delete id => CommandLine.delete x json id
  | .tag ids tags mode => CommandLine.tag x json ids tags mode
  | .detail id => CommandLine.detail x json id
  | .running o => CommandLine.running x json o
  | .range first last o => CommandLine.range x json first last o
  | .dashboard => CommandLine.dashboard x json
  | .syncTask id => CommandLine.syncTask x json id
  | .syncProject id => CommandLine.syncProject x json id
  | .addTask name project id => CommandLine.addTask x json name project id
  | .taskDetail id => CommandLine.taskDetail x json id
  | .addProject name workspace auto id => CommandLine.addProject x json name workspace auto id
  | .projectDetail id => CommandLine.projectDetail x json id

def Command.perform (x : Context) (json : Bool) (c : Command) (d : Desk Database) :
    Outcome × Desk Database :=
  match (c.work x json).run d with
  | (.ok o, d) => (o, d)
  | (.error f, d) => ({ out := "", fault := some f }, d)

end Timesheet.CommandLine
