import Timesheet.Database.Cell
import Timesheet.Instant.Reader
import Timesheet.Instant.Text
import Timesheet.Json.Reader

/-!
Rows of the three tables. Identifiers and instants are text, tags are the text of a list of strings.
Writing a record makes a row; reading first takes every column as its type and then the texts as what
they denote, in a fixed order, so that the first fault is determined.
-/

namespace Timesheet

def readStamp (record text : String) : Except DatabaseFault Instant :=
  match Instant.ofStamp? text with
  | some i => .ok i
  | none => .error (.badInstant record text)

def readStoredId (kind : IdentifierKind) (record text : String) :
    Except DatabaseFault (Identifier kind) :=
  (Identifier.parse kind text).mapError fun e => .badRecord record e.message

def tagsText (tags : TagSet) : String :=
  (Json.array (tags.items.map Json.string)).compact

def readTags (record text : String) : Except DatabaseFault TagSet :=
  match Json.readStrings text with
  | .ok tags => .ok (TagSet.ofList tags)
  | .error e => .error (.badRecord record ("tags: " ++ e.message text))

structure EntryRow where
  key : RowKey
  description : String
  user : String
  workspace : String
  project : String
  task : String
  billable : NumberCell
  start : String
  stop : Option String
  duration : NumberCell
  createdWith : String
  tags : String
  durationOnly : NumberCell
  created : String
  updated : String
  deriving DecidableEq

structure EntryTexts where
  id : String
  description : String
  user : String
  workspace : String
  project : String
  task : String
  billable : Bool
  start : String
  stop : Option String
  duration : Int
  createdWith : String
  tags : String
  durationOnly : Bool
  created : String
  updated : String

namespace EntryRow

def ofEntry (e : Entry) : EntryRow where
  key := .named e.id.text
  description := e.description
  user := e.user.text
  workspace := e.workspace.text
  project := e.project.text
  task := e.task.text
  billable := .ofBool e.billable
  start := e.start.stamp
  stop := e.stop.map Instant.stamp
  duration := .integer e.duration
  createdWith := e.createdWith
  tags := tagsText e.tags
  durationOnly := .ofBool e.durationOnly
  created := e.created.stamp
  updated := e.updated.stamp

def texts (r : EntryRow) : Except EngineFault EntryTexts := do
  let id ← r.key.read "time_entry_id"
  let billable ← r.billable.readBool 6 "billable"
  let duration ← r.duration.readInteger 9 "duration"
  let durationOnly ← r.durationOnly.readBool 12 "dur_only"
  return {
    id, billable, duration, durationOnly
    description := r.description
    user := r.user
    workspace := r.workspace
    project := r.project
    task := r.task
    start := r.start
    stop := r.stop
    createdWith := r.createdWith
    tags := r.tags
    created := r.created
    updated := r.updated }

end EntryRow

namespace EntryTexts

def readStop (t : EntryTexts) : Except DatabaseFault (Option Instant) :=
  match t.stop with
  | some text => some <$> readStamp t.id text
  | none => .ok none

/-- Tags and stop are looked at first, then identifiers, then the other instants. -/
def entry (t : EntryTexts) : Except DatabaseFault Entry := do
  let tags ← readTags t.id t.tags
  let stop ← t.readStop
  let id ← readStoredId .entry t.id t.id
  let user ← readStoredId .user t.id t.user
  let workspace ← readStoredId .workspace t.id t.workspace
  let project ← readStoredId .project t.id t.project
  let task ← readStoredId .task t.id t.task
  let start ← readStamp t.id t.start
  let created ← readStamp t.id t.created
  let updated ← readStamp t.id t.updated
  return {
    id, user, workspace, project, task, start, stop, tags, created, updated
    description := t.description
    billable := t.billable
    duration := t.duration
    createdWith := t.createdWith
    durationOnly := t.durationOnly }

end EntryTexts

namespace EntryRow

def entry (r : EntryRow) : Except DatabaseFault Entry := do
  (← r.texts.mapError .engine).entry

end EntryRow

structure TaskRow where
  key : RowKey
  project : String
  name : String
  trackedSeconds : NumberCell
  created : String
  updated : String
  deriving DecidableEq

namespace TaskRow

def ofTask (t : Task) : TaskRow where
  key := .named t.id.text
  project := t.project.text
  name := t.name
  trackedSeconds := .integer t.trackedSeconds
  created := t.created.stamp
  updated := t.updated.stamp

def task (r : TaskRow) : Except DatabaseFault Task := do
  let record ← (r.key.read "id").mapError .engine
  let trackedSeconds ← (r.trackedSeconds.readInteger 3 "tracked_seconds").mapError .engine
  let id ← readStoredId .task record record
  let project ← readStoredId .project record r.project
  let created ← readStamp record r.created
  let updated ← readStamp record r.updated
  return { id, project, trackedSeconds, created, updated, name := r.name }

end TaskRow

structure ProjectRow where
  key : RowKey
  workspace : String
  name : String
  autoEstimates : NumberCell
  estimatedHours : NumberCell
  created : String
  updated : String
  deriving DecidableEq

/-- A float that is no number is stored as null, which the column does not allow. -/
def hoursCell (x : Binary64) : Except DatabaseFault NumberCell :=
  if x.isNaN then .error (.engine (.nullNotAllowed "projects.estimated_hours"))
  else .ok (.ofFloat x)

namespace ProjectRow

def ofProject (p : Project) : Except DatabaseFault ProjectRow := do
  let estimatedHours ← hoursCell p.estimatedHours
  return {
    key := .named p.id.text
    workspace := p.workspace.text
    name := p.name
    autoEstimates := .ofBool p.autoEstimates
    estimatedHours
    created := p.created.stamp
    updated := p.updated.stamp }

def project (r : ProjectRow) : Except DatabaseFault Project := do
  let record ← (r.key.read "id").mapError .engine
  let autoEstimates ← (r.autoEstimates.readBool 3 "auto_estimates").mapError .engine
  let estimatedHours ← (r.estimatedHours.readFloat 4 "estimated_hours").mapError .engine
  let id ← readStoredId .project record record
  let workspace ← readStoredId .workspace record r.workspace
  let created ← readStamp record r.created
  let updated ← readStamp record r.updated
  return { id, workspace, autoEstimates, estimatedHours, created, updated, name := r.name }

end ProjectRow
end Timesheet
