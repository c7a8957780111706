import Timesheet.Entry
import Timesheet.Page
import Timesheet.Record

/-!
What a store of entries answers. Each call either fails and leaves the store as it was, or succeeds
as a whole; a failing call therefore has no new state at all.
-/

namespace Timesheet

inductive TableName where
  | entries
  | tasks
  | projects
  deriving DecidableEq

def TableName.text : TableName → String
  | entries => "time_entries"
  | tasks => "tasks"
  | projects => "projects"

/-- What a database engine complains about by itself. Columns are named with their table. -/
inductive EngineFault where
  | duplicate (column : String)
  | nullNotAllowed (column : String)
  | integerOverflow
  | columnType (found : String) (index : Nat) (name : String)
  deriving DecidableEq

def EngineFault.message : EngineFault → String
  | duplicate column => "UNIQUE constraint failed: " ++ column
  | nullNotAllowed column => "NOT NULL constraint failed: " ++ column
  | integerOverflow => "integer overflow"
  | columnType found index name =>
    "Invalid column type " ++ found ++ " at index: " ++ toString index ++ ", name: " ++ name

inductive DatabaseFault where
  | engine (e : EngineFault)
  | noRow (table : TableName) (id : String)
  | badInstant (record text : String)
  | badRecord (record reason : String)
  deriving DecidableEq

def DatabaseFault.message : DatabaseFault → String
  | engine e => "sqlite error: " ++ e.message
  | noRow table id => table.text ++ " row not found: " ++ id
  | badInstant record text => "invalid timestamp for " ++ record ++ ": " ++ text
  | badRecord record reason => "invalid stored data for " ++ record ++ ": " ++ reason

inductive StoreFault where
  | missing
  | backend (e : DatabaseFault)
  deriving DecidableEq

namespace StoreFault

def message : StoreFault → String
  | missing => "record not found"
  | backend e => "storage backend error: " ++ e.message

def causes : StoreFault → List String
  | missing => []
  | backend e => [e.message]

end StoreFault

/-- Entries, and the two totals that are kept on tasks and projects. Bounds of a range belong to
the range; lists of running and created entries are in ascending order of their identifiers. -/
class Store (σ : Type) where
  insert : σ → Entry → Except StoreFault σ
  fetch : σ → EntryId → Except StoreFault Entry
  replace : σ → Entry → Except StoreFault σ
  erase : σ → EntryId → Except StoreFault σ
  running : σ → UserId → Page → Except StoreFault (List Entry)
  createdBetween : σ → UserId → Page → Instant → Instant → Except StoreFault (List Entry)
  /-- The shortest first, at most `limit`. -/
  stoppedBetween : σ → UserId → Instant → Instant → Nat → Except StoreFault (List Entry)
  recent : σ → UserId → Nat → Except StoreFault (List Entry)
  taskTotal : σ → TaskId → Except StoreFault Int
  projectTotal : σ → ProjectId → Except StoreFault Int
  writeTracked : σ → TaskId → Int → Instant → Except StoreFault σ
  /-- Whether the project follows its tracked time; one that does not is left alone. -/
  writeEstimate : σ → ProjectId → Binary64 → Instant → Except StoreFault (Bool × σ)

end Timesheet
