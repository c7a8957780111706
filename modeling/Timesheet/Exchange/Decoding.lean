import Timesheet.Exchange
import Timesheet.Word

/-!
Decoding of exchanged records. A member that is not there takes its default if it has one; null
stands only for a member that may be absent by its type.
-/

namespace Timesheet.Exchange

def members? (names : List String) : Json → Option Members
  | .object ms => some ms
  | .array xs => if xs.length ≤ names.length then some (names.zip xs) else none
  | _ => none

def required {α : Type} (ms : Members) (name : String) (decode : Json → Option α) : Option α :=
  (ms.lookup name).bind decode

def defaulted {α : Type} (ms : Members) (name : String) (default : α)
    (decode : Json → Option α) : Option α :=
  match ms.lookup name with
  | some x => decode x
  | none => some default

def nullable? {α : Type} (decode : Json → Option α) : Json → Option (Option α)
  | .null => some none
  | x => (decode x).map some

def optional {α : Type} (ms : Members) (name : String) (decode : Json → Option α) :
    Option (Option α) :=
  defaulted ms name none (nullable? decode)

def text? : Json → Option String
  | .string s => some s
  | _ => none

def bool? : Json → Option Bool
  | .bool b => some b
  | _ => none

def word? : Json → Option Int
  | .integer n => if Word.fits n then some n else none
  | _ => none

def natBelow? (bound : Nat) : Json → Option Nat
  | .integer n => if 0 ≤ n ∧ n < bound then some n.toNat else none
  | _ => none

def float? : Json → Option Binary64
  | .integer n => some (Binary64.ofInt n)
  | .float x => some x
  | _ => none

def identifier? (kind : IdentifierKind) : Json → Option (Identifier kind)
  | .string s => (Identifier.parse kind s).toOption
  | _ => none

def instant? : Json → Option Instant
  | .string s => Instant.ofText? s
  | _ => none

def texts? : Json → Option (List String)
  | .array xs => xs.mapM text?
  | _ => none

def tagSet? (x : Json) : Option TagSet :=
  (texts? x).map TagSet.ofList

def tagMode? : Json → Option TagMode
  | .string s => TagMode.parse? s
  | .object [(s, .null)] => TagMode.parse? s
  | _ => none

def entryNames : List String :=
  ["id", "description", "user_id", "workspace_id", "project_id", "task_id", "billable", "start",
    "stop", "duration", "created_with", "tags", "duration_only", "date_created", "date_updated"]

def entry? (x : Json) : Option Entry := do
  let ms ← members? entryNames x
  let id ← required ms "id" (identifier? .entry)
  let description ← defaulted ms "description" "" text?
  let user ← required ms "user_id" (identifier? .user)
  let workspace ← required ms "workspace_id" (identifier? .workspace)
  let project ← defaulted ms "project_id" Identifier.absent (identifier? .project)
  let task ← defaulted ms "task_id" Identifier.absent (identifier? .task)
  let billable ← defaulted ms "billable" false bool?
  let start ← required ms "start" instant?
  let stop ← optional ms "stop" instant?
  let duration ← required ms "duration" word?
  let createdWith ← required ms "created_with" text?
  let tags ← defaulted ms "tags" Shelf.empty tagSet?
  let durationOnly ← defaulted ms "duration_only" false bool?
  let created ← required ms "date_created" instant?
  let updated ← required ms "date_updated" instant?
  return {
    id, description, user, workspace, project, task, billable, start, stop, duration, createdWith,
    tags, durationOnly, created, updated }

def fieldNames : List String :=
  ["description", "workspace_id", "project_id", "task_id", "billable", "created_with", "tags",
    "duration_only"]

def fieldsOf? (ms : Members) : Option EntryFields := do
  let description ← optional ms "description" text?
  let workspace ← optional ms "workspace_id" text?
  let project ← optional ms "project_id" text?
  let task ← optional ms "task_id" text?
  let billable ← defaulted ms "billable" false bool?
  let createdWith ← optional ms "created_with" text?
  let tags ← optional ms "tags" texts?
  let durationOnly ← defaulted ms "duration_only" false bool?
  return { description, workspace, project, task, billable, createdWith, tags, durationOnly }

def fields? (x : Json) : Option EntryFields := do
  fieldsOf? (← members? fieldNames x)

/-- A new entry is an object always; its fields stand beside start and duration. -/
def newEntry? : Json → Option NewEntry
  | .object ms => do
    let start ← optional ms "start" instant?
    let duration ← optional ms "duration" word?
    let fields ← fieldsOf? ms
    return { fields, start, duration }
  | _ => none

def patchNames : List String :=
  ["description", "workspace_id", "project_id", "task_id", "billable", "start", "stop", "tags",
    "duration_only"]

def patch? (x : Json) : Option Patch := do
  let ms ← members? patchNames x
  let description ← optional ms "description" text?
  let workspace ← optional ms "workspace_id" text?
  let project ← optional ms "project_id" text?
  let task ← optional ms "task_id" text?
  let billable ← optional ms "billable" bool?
  let start ← optional ms "start" instant?
  let stop ← optional ms "stop" instant?
  let tags ← optional ms "tags" texts?
  let durationOnly ← optional ms "duration_only" bool?
  return { description, workspace, project, task, billable, start, stop, tags, durationOnly }

def policyNames : List String :=
  ["resync_on_edit", "single_running_timer"]

def policy? (x : Json) : Option Policy := do
  let ms ← members? policyNames x
  let resyncOnEdit ← defaulted ms "resync_on_edit" false bool?
  let singleRunningTimer ← defaulted ms "single_running_timer" false bool?
  return { resyncOnEdit, singleRunningTimer }

def taskNames : List String :=
  ["id", "project_id", "name", "tracked_seconds", "date_created", "date_updated"]

def task? (x : Json) : Option Task := do
  let ms ← members? taskNames x
  let id ← required ms "id" (identifier? .task)
  let project ← defaulted ms "project_id" Identifier.absent (identifier? .project)
  let name ← required ms "name" text?
  let trackedSeconds ← defaulted ms "tracked_seconds" 0 word?
  let created ← required ms "date_created" instant?
  let updated ← required ms "date_updated" instant?
  return { id, project, name, trackedSeconds, created, updated }

def projectNames : List String :=
  ["id", "workspace_id", "name", "auto_estimates", "estimated_hours", "date_created",
    "date_updated"]

def project? (x : Json) : Option Project := do
  let ms ← members? projectNames x
  let id ← required ms "id" (identifier? .project)
  let workspace ← required ms "workspace_id" (identifier? .workspace)
  let name ← required ms "name" text?
  let autoEstimates ← defaulted ms "auto_estimates" false bool?
  let estimatedHours ← defaulted ms "estimated_hours" Binary64.zero float?
  let created ← required ms "date_created" instant?
  let updated ← required ms "date_updated" instant?
  return { id, workspace, name, autoEstimates, estimatedHours, created, updated }

end Timesheet.Exchange
