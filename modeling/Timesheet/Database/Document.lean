import Timesheet.Database
import Timesheet.Exchange.Decoding

/-!
A database as a document, so that it can be kept between runs. Every cell is written with its kind,
and floats as their bits, so that reading gives back the same rows.
-/

namespace Timesheet.Database

open Exchange (Members required)

namespace Document

def numberCell : NumberCell → Json
  | .integer n => .integer n
  | .real x => .array [.integer x.bits.toNat]
  | .text s => .string s

def numberCell? : Json → Option NumberCell
  | .integer n => some (.integer n)
  | .array [.integer n] => some (.real ⟨UInt64.ofNat n.toNat⟩)
  | .string s => some (.text s)
  | _ => none

def rowKey : RowKey → Json
  | .named s => .string s
  | .unnamed n => .integer n

def rowKey? : Json → Option RowKey
  | .string s => some (.named s)
  | .integer n => some (.unnamed n.toNat)
  | _ => none

def optionalText : Option String → Json :=
  Exchange.nullable Exchange.text

def optionalText? : Json → Option (Option String) :=
  Exchange.nullable? Exchange.text?

def entryRow (r : EntryRow) : Json :=
  .object [("key", rowKey r.key),
    ("description", .string r.description),
    ("user", .string r.user),
    ("workspace", .string r.workspace),
    ("project", .string r.project),
    ("task", .string r.task),
    ("billable", numberCell r.billable),
    ("start", .string r.start),
    ("stop", optionalText r.stop),
    ("duration", numberCell r.duration),
    ("createdWith", .string r.createdWith),
    ("tags", .string r.tags),
    ("durationOnly", numberCell r.durationOnly),
    ("created", .string r.created),
    ("updated", .string r.updated)]

def taskRow (r : TaskRow) : Json :=
  .object [("key", rowKey r.key),
    ("project", .string r.project),
    ("name", .string r.name),
    ("trackedSeconds", numberCell r.trackedSeconds),
    ("created", .string r.created),
    ("updated", .string r.updated)]

def projectRow (r : ProjectRow) : Json :=
  .object [("key", rowKey r.key),
    ("workspace", .string r.workspace),
    ("name", .string r.name),
    ("autoEstimates", numberCell r.autoEstimates),
    ("estimatedHours", numberCell r.estimatedHours),
    ("created", .string r.created),
    ("updated", .string r.updated)]

def members? : Json → Option Members
  | .object ms => some ms
  | _ => none

def text? (ms : Members) (name : String) : Option String :=
  required ms name Exchange.text?

def number? (ms : Members) (name : String) : Option NumberCell :=
  required ms name numberCell?

def entryRow? (x : Json) : Option EntryRow := do
  let ms ← members? x
  return {
    key := ← required ms "key" rowKey?
    description := ← text? ms "description"
    user := ← text? ms "user"
    workspace := ← text? ms "workspace"
    project := ← text? ms "project"
    task := ← text? ms "task"
    billable := ← number? ms "billable"
    start := ← text? ms "start"
    stop := ← required ms "stop" optionalText?
    duration := ← number? ms "duration"
    createdWith := ← text? ms "createdWith"
    tags := ← text? ms "tags"
    durationOnly := ← number? ms "durationOnly"
    created := ← text? ms "created"
    updated := ← text? ms "updated" }

def taskRow? (x : Json) : Option TaskRow := do
  let ms ← members? x
  return {
    key := ← required ms "key" rowKey?
    project := ← text? ms "project"
    name := ← text? ms "name"
    trackedSeconds := ← number? ms "trackedSeconds"
    created := ← text? ms "created"
    updated := ← text? ms "updated" }

def projectRow? (x : Json) : Option ProjectRow := do
  let ms ← members? x
  return {
    key := ← required ms "key" rowKey?
    workspace := ← text? ms "workspace"
    name := ← text? ms "name"
    autoEstimates := ← number? ms "autoEstimates"
    estimatedHours := ← number? ms "estimatedHours"
    created := ← text? ms "created"
    updated := ← text? ms "updated" }

def rows? {α : Type} {key : α → RowKey} (row : Json → Option α) : Json → Option (Shelf key)
  | .array xs => (xs.mapM row).map fun rows => rows.foldl Shelf.put Shelf.empty
  | _ => none

end Document

open Document

def document (d : Database) : Json :=
  .object [("entries", .array (d.entries.items.map entryRow)),
    ("tasks", .array (d.tasks.items.map taskRow)),
    ("projects", .array (d.projects.items.map projectRow))]

def ofDocument? (x : Json) : Option Database := do
  let ms ← members? x
  return {
    entries := ← required ms "entries" (rows? entryRow?)
    tasks := ← required ms "tasks" (rows? taskRow?)
    projects := ← required ms "projects" (rows? projectRow?) }

end Timesheet.Database
