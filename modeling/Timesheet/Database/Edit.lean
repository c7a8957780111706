import Timesheet.Database

/-!
Raw changes of single columns, as someone with the database open by hand can make them. The column
decides what becomes of the value. A change is refused if there is no such column, if the table does
not allow null in it, or if another row has the key already. Letter case does not matter in the name
of a column.
-/

namespace Timesheet.Database

inductive RawValue where
  | null
  | integer (n : Int)
  | text (s : String)

namespace RawValue

def asText : RawValue → Option String
  | null => none
  | integer n => some (toString n)
  | text s => some s

def asNumber : RawValue → Option NumberCell
  | null => none
  | integer n => some (.integer n)
  | text s => some (.ofText s)

def asKey (serial : Nat) : RawValue → RowKey
  | null => .unnamed serial
  | integer n => .named (toString n)
  | text s => .named s

end RawValue

def rekey {α : Type} {key : α → RowKey} (set : RowKey → α) (s : Shelf key) (current : RowKey)
    (v : RawValue) : Option (Shelf key) :=
  let serial := (s.items.map fun r => (key r).serial).foldl max 0
  let new := v.asKey serial
  let others := s.erase current
  if others.contains new then none else some (others.put (set new))

def editEntry (r : EntryRow) (column : String) (v : RawValue) : Option EntryRow :=
  match column with
  | "description" => v.asText.map fun s => { r with description := s }
  | "uid" => v.asText.map fun s => { r with user := s }
  | "wid" => v.asText.map fun s => { r with workspace := s }
  | "pid" => v.asText.map fun s => { r with project := s }
  | "tid" => v.asText.map fun s => { r with task := s }
  | "billable" => v.asNumber.map fun n => { r with billable := n }
  | "start" => v.asText.map fun s => { r with start := s }
  | "stop" => some { r with stop := v.asText }
  | "duration" => v.asNumber.map fun n => { r with duration := n }
  | "created_with" => v.asText.map fun s => { r with createdWith := s }
  | "tags" => v.asText.map fun s => { r with tags := s }
  | "dur_only" => v.asNumber.map fun n => { r with durationOnly := n }
  | "date_created" => v.asText.map fun s => { r with created := s }
  | "date_updated" => v.asText.map fun s => { r with updated := s }
  | _ => none

def editTask (r : TaskRow) (column : String) (v : RawValue) : Option TaskRow :=
  match column with
  | "project_id" => v.asText.map fun s => { r with project := s }
  | "name" => v.asText.map fun s => { r with name := s }
  | "tracked_seconds" => v.asNumber.map fun n => { r with trackedSeconds := n }
  | "date_created" => v.asText.map fun s => { r with created := s }
  | "date_updated" => v.asText.map fun s => { r with updated := s }
  | _ => none

def editProject (r : ProjectRow) (column : String) (v : RawValue) : Option ProjectRow :=
  match column with
  | "workspace_id" => v.asText.map fun s => { r with workspace := s }
  | "name" => v.asText.map fun s => { r with name := s }
  | "auto_estimates" => v.asNumber.map fun n => { r with autoEstimates := n }
  | "estimated_hours" => v.asNumber.map fun n => { r with estimatedHours := n.asFloat }
  | "date_created" => v.asText.map fun s => { r with created := s }
  | "date_updated" => v.asText.map fun s => { r with updated := s }
  | _ => none

def entryColumns : List String :=
  ["description", "uid", "wid", "pid", "tid", "billable", "start", "stop", "duration",
   "created_with", "tags", "dur_only", "date_created", "date_updated"]

def taskColumns : List String :=
  ["project_id", "name", "tracked_seconds", "date_created", "date_updated"]

def projectColumns : List String :=
  ["workspace_id", "name", "auto_estimates", "estimated_hours", "date_created", "date_updated"]

/-- Changes a column of the row with a key. The answer is how many rows there were to change, and
`none` if the change is refused. Without a row any value will do. -/
def editRow {α : Type} {key : α → RowKey} (s : Shelf key) (keyColumn : String)
    (columns : List String) (id column : String) (set : α → RowKey → α)
    (edit : α → String → RawValue → Option α) (v : RawValue) : Option (Nat × Shelf key) :=
  let column := column.toLower
  match s.find? (.named id) with
  | none => if column = keyColumn ∨ column ∈ columns then some (0, s) else none
  | some r =>
    if column = keyColumn then (rekey (set r) s (.named id) v).map ((1, ·))
    else (edit r column v).map fun r => (1, s.put r)

def setColumn (d : Database) (table : TableName) (id column : String) (v : RawValue) :
    Option (Nat × Database) :=
  match table with
  | .entries =>
    (editRow d.entries "time_entry_id" entryColumns id column (fun r k => { r with key := k })
      editEntry v).map fun (n, s) => (n, { d with entries := s })
  | .tasks =>
    (editRow d.tasks "id" taskColumns id column (fun r k => { r with key := k })
      editTask v).map fun (n, s) => (n, { d with tasks := s })
  | .projects =>
    (editRow d.projects "id" projectColumns id column (fun r k => { r with key := k })
      editProject v).map fun (n, s) => (n, { d with projects := s })

end Timesheet.Database
