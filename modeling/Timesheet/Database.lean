import Timesheet.Database.Row
import Timesheet.Word

/-!
A store that holds rows of text, as a database on disk does. It compares instants and identifiers as
text, refuses a second row with a key, and keeps whole seconds only.
-/

namespace Timesheet

structure Database where
  entries : Shelf EntryRow.key := Shelf.empty
  tasks : Shelf TaskRow.key := Shelf.empty
  projects : Shelf ProjectRow.key := Shelf.empty
  deriving DecidableEq

namespace Database

def clampCount (n : Nat) : Nat :=
  min n Word.largestCount

def ofUser (d : Database) (user : UserId) : List EntryRow :=
  d.entries.items.filter fun r => r.user = user.text

def readRows (rows : List EntryRow) : Except StoreFault (List Entry) := do
  let texts ← (rows.mapM EntryRow.texts).mapError fun e => .backend (.engine e)
  (texts.mapM EntryTexts.entry).mapError .backend

def selectPage (p : Page) (rows : List EntryRow) : List EntryRow :=
  (rows.drop (clampCount p.offset)).take (clampCount p.size)

def insert (d : Database) (e : Entry) : Except StoreFault Database :=
  if d.entries.contains (.named e.id.text) then
    .error (.backend (.engine (.duplicate "time_entries.time_entry_id")))
  else .ok { d with entries := d.entries.put (EntryRow.ofEntry e) }

def found {α : Type} : Option α → Except StoreFault α
  | some a => .ok a
  | none => .error .missing

def fetch (d : Database) (id : EntryId) : Except StoreFault Entry := do
  let r ← found (d.entries.find? (.named id.text))
  r.entry.mapError .backend

def replace (d : Database) (e : Entry) : Except StoreFault Database := do
  let _ ← found (d.entries.find? (.named e.id.text))
  return { d with entries := d.entries.put (EntryRow.ofEntry e) }

def erase (d : Database) (id : EntryId) : Except StoreFault Database := do
  let _ ← found (d.entries.find? (.named id.text))
  return { d with entries := d.entries.erase (.named id.text) }

def isRunningRow (r : EntryRow) : Bool :=
  r.duration == .integer Entry.runningDuration

def running (d : Database) (user : UserId) (page : Page) : Except StoreFault (List Entry) :=
  readRows (selectPage page ((d.ofUser user).filter isRunningRow))

def createdBetween (d : Database) (user : UserId) (page : Page) (first last : Instant) :
    Except StoreFault (List Entry) :=
  readRows (selectPage page
    ((d.ofUser user).filter fun r => Text.upTo first.stamp r.created && Text.upTo r.created last.stamp))

def stoppedIn (first last : Instant) (r : EntryRow) : Bool :=
  r.stop.any fun stop => Text.upTo first.stamp stop && Text.upTo stop last.stamp

def noLonger (a b : EntryRow) : Bool :=
  a.duration.atMost b.duration

def noEarlier (a b : EntryRow) : Bool :=
  Text.upTo b.start a.start

def stoppedBetween (d : Database) (user : UserId) (first last : Instant) (limit : Nat) :
    Except StoreFault (List Entry) :=
  readRows ((((d.ofUser user).filter (stoppedIn first last)).mergeSort noLonger).take
    (clampCount limit))

def recent (d : Database) (user : UserId) (limit : Nat) : Except StoreFault (List Entry) :=
  readRows (((d.ofUser user).mergeSort noEarlier).take (clampCount limit))

def sumWords : Int → List Int → Except EngineFault Int
  | total, [] => .ok total
  | total, n :: ns =>
    if Word.fits (total + n) then sumWords (total + n) ns else .error .integerOverflow

def integer? : NumberCell → Option Int
  | .integer n => some n
  | _ => none

/-- The sum of a column. A cell that is no integer makes it a float, which is no valid total. -/
def sumCells (cells : List NumberCell) : Except StoreFault Int :=
  match cells.mapM integer? with
  | some ns => (sumWords 0 ns).mapError fun e => .backend (.engine e)
  | none =>
    .error (.backend (.engine (.columnType "Real" 0 "COALESCE(SUM(duration), 0)")))

/-- Cells that count for a total: the numbers from zero on, and text. -/
def isFinishedCell (c : NumberCell) : Bool :=
  NumberCell.atMost (.integer 0) c

def finishedSum (rows : List EntryRow) : Except StoreFault Int :=
  sumCells ((rows.map EntryRow.duration).filter isFinishedCell)

def taskTotal (d : Database) (id : TaskId) : Except StoreFault Int :=
  finishedSum (d.entries.items.filter fun r => r.task = id.text)

def projectTotal (d : Database) (id : ProjectId) : Except StoreFault Int :=
  finishedSum (d.entries.items.filter fun r => r.project = id.text)

def writeTracked (d : Database) (id : TaskId) (seconds : Int) (now : Instant) :
    Except StoreFault Database := do
  let r ← found (d.tasks.find? (.named id.text))
  let r := { r with trackedSeconds := .integer seconds, updated := now.stamp }
  return { d with tasks := d.tasks.put r }

def writeEstimate (d : Database) (id : ProjectId) (hours : Binary64) (now : Instant) :
    Except StoreFault (Bool × Database) := do
  let r ← found (d.projects.find? (.named id.text))
  let auto ← (r.autoEstimates.readBool 0 "auto_estimates").mapError
    fun e => .backend (.engine e)
  if auto then
    let cell ← (hoursCell hours).mapError .backend
    let r := { r with estimatedHours := cell, updated := now.stamp }
    return (true, { d with projects := d.projects.put r })
  else return (false, d)

def insertTask (d : Database) (t : Task) : Except DatabaseFault Database :=
  if d.tasks.contains (.named t.id.text) then .error (.engine (.duplicate "tasks.id"))
  else .ok { d with tasks := d.tasks.put (TaskRow.ofTask t) }

def insertProject (d : Database) (p : Project) : Except DatabaseFault Database := do
  let r ← ProjectRow.ofProject p
  if d.projects.contains r.key then throw (.engine (.duplicate "projects.id"))
  return { d with projects := d.projects.put r }

def task (d : Database) (id : TaskId) : Except DatabaseFault Task :=
  match d.tasks.find? (.named id.text) with
  | some r => r.task
  | none => .error (.noRow .tasks id.text)

def project (d : Database) (id : ProjectId) : Except DatabaseFault Project :=
  match d.projects.find? (.named id.text) with
  | some r => r.project
  | none => .error (.noRow .projects id.text)

end Database

instance : Store Database where
  insert := Database.insert
  fetch := Database.fetch
  replace := Database.replace
  erase := Database.erase
  running := Database.running
  createdBetween := Database.createdBetween
  stoppedBetween := Database.stoppedBetween
  recent := Database.recent
  taskTotal := Database.taskTotal
  projectTotal := Database.projectTotal
  writeTracked := Database.writeTracked
  writeEstimate := Database.writeEstimate

end Timesheet
