import Timesheet.Instant.Reader
import Timesheet.Instant.Text
import Timesheet.Json
import Timesheet.Service

/-!
The exchanged form of records: encoding into values of the exchange format and decoding from them.
Decoding looks members up by name and ignores others, so their order does not matter; a list stands
for an object with the members in their usual order. Consistency between fields is not checked.
-/

namespace Timesheet.Exchange

abbrev Members := List (String × Json)

def text (s : String) : Json :=
  .string s

def nullable {α : Type} (encode : α → Json) : Option α → Json
  | some a => encode a
  | none => .null

def identifier {kind : IdentifierKind} (id : Identifier kind) : Json :=
  .string id.text

def instant (i : Instant) : Json :=
  .string i.text

def texts (ss : List String) : Json :=
  .array (ss.map Json.string)

def stopMember : Option Instant → Members
  | some i => [("stop", instant i)]
  | none => []

def entryMembers (e : Entry) : Members :=
  [("id", identifier e.id),
    ("description", text e.description),
    ("user_id", identifier e.user),
    ("workspace_id", identifier e.workspace),
    ("project_id", identifier e.project),
    ("task_id", identifier e.task),
    ("billable", .bool e.billable),
    ("start", instant e.start)] ++ stopMember e.stop ++
  [("duration", .integer e.duration),
    ("created_with", text e.createdWith),
    ("tags", texts e.tags.items),
    ("duration_only", .bool e.durationOnly),
    ("date_created", instant e.created),
    ("date_updated", instant e.updated)]

def entry (e : Entry) : Json :=
  .object (entryMembers e)

def entries (es : List Entry) : Json :=
  .array (es.map entry)

def state (e : Entry) : Json :=
  .string (if e.isRunning then "running" else "stopped")

def fieldMembers (f : EntryFields) : Members :=
  [("description", nullable text f.description),
    ("workspace_id", nullable text f.workspace),
    ("project_id", nullable text f.project),
    ("task_id", nullable text f.task),
    ("billable", .bool f.billable),
    ("created_with", nullable text f.createdWith),
    ("tags", nullable texts f.tags),
    ("duration_only", .bool f.durationOnly)]

def fields (f : EntryFields) : Json :=
  .object (fieldMembers f)

def newEntry (n : NewEntry) : Json :=
  .object (fieldMembers n.fields ++
    [("start", nullable instant n.start), ("duration", nullable Json.integer n.duration)])

def patch (p : Patch) : Json :=
  .object [("description", nullable text p.description),
    ("workspace_id", nullable text p.workspace),
    ("project_id", nullable text p.project),
    ("task_id", nullable text p.task),
    ("billable", nullable Json.bool p.billable),
    ("start", nullable instant p.start),
    ("stop", nullable instant p.stop),
    ("tags", nullable texts p.tags),
    ("duration_only", nullable Json.bool p.durationOnly)]

def policy (p : Policy) : Json :=
  .object [("resync_on_edit", .bool p.resyncOnEdit),
    ("single_running_timer", .bool p.singleRunningTimer)]

def task (t : Task) : Json :=
  .object [("id", identifier t.id),
    ("project_id", identifier t.project),
    ("name", text t.name),
    ("tracked_seconds", .integer t.trackedSeconds),
    ("date_created", instant t.created),
    ("date_updated", instant t.updated)]

def project (p : Project) : Json :=
  .object [("id", identifier p.id),
    ("workspace_id", identifier p.workspace),
    ("name", text p.name),
    ("auto_estimates", .bool p.autoEstimates),
    ("estimated_hours", .float p.estimatedHours),
    ("date_created", instant p.created),
    ("date_updated", instant p.updated)]

def tagMode (m : TagMode) : Json :=
  .string m.text

def taskTotal (t : Service.TaskTotal) : Json :=
  .object [("task_id", identifier t.task), ("tracked_seconds", .integer t.trackedSeconds)]

def projectTotal (t : Service.ProjectTotal) : Json :=
  .object [("project_id", identifier t.project), ("estimated_hours", .float t.estimatedHours),
    ("applied", .bool t.applied)]

def dashboard (d : Service.Dashboard) : Json :=
  .object [("most_active", entries d.mostActive), ("recent", entries d.recent)]

end Timesheet.Exchange
