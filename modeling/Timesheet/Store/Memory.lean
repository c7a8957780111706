import Timesheet.Store
import Timesheet.Word

/-!
A store that holds its records as they are. Sums are words of 64 bits and wrap around.
-/

namespace Timesheet

instance : KeyOrder Uuid where
  before a b := decide (a.number < b.number)
  before_irrefl a := decide_eq_false (Nat.lt_irrefl _)
  before_trans hab hbc :=
    decide_eq_true (Nat.lt_trans (of_decide_eq_true hab) (of_decide_eq_true hbc))
  eq_of_not_before {a b} hab hba := by
    cases a
    cases b
    simp only [Uuid.mk.injEq]
    exact Nat.le_antisymm (Nat.le_of_not_lt (of_decide_eq_false hba))
      (Nat.le_of_not_lt (of_decide_eq_false hab))

instance {kind : IdentifierKind} : KeyOrder (Identifier kind) where
  before a b := KeyOrder.before a.uuid b.uuid
  before_irrefl a := KeyOrder.before_irrefl a.uuid
  before_trans hab hbc := KeyOrder.before_trans hab hbc
  eq_of_not_before {a b} hab hba := by
    cases a
    cases b
    simp only [Identifier.mk.injEq]
    exact KeyOrder.eq_of_not_before hab hba

structure Memory where
  entries : Shelf Entry.id := Shelf.empty
  tasks : Shelf Task.id := Shelf.empty
  projects : Shelf Project.id := Shelf.empty
  deriving DecidableEq

namespace Memory

def ofUser (m : Memory) (user : UserId) : List Entry :=
  m.entries.items.filter fun e => e.user = user

def finishedSum (entries : List Entry) : Int :=
  Word.wrap (((entries.filter fun e => !e.isRunning).map Entry.duration).foldl (· + ·) 0)

def found {α : Type} : Option α → Except StoreFault α
  | some a => .ok a
  | none => .error .missing

def insert (m : Memory) (e : Entry) : Except StoreFault Memory :=
  .ok { m with entries := m.entries.put e }

def fetch (m : Memory) (id : EntryId) : Except StoreFault Entry :=
  found (m.entries.find? id)

def replace (m : Memory) (e : Entry) : Except StoreFault Memory := do
  let _ ← m.fetch e.id
  return { m with entries := m.entries.put e }

def erase (m : Memory) (id : EntryId) : Except StoreFault Memory := do
  let _ ← m.fetch id
  return { m with entries := m.entries.erase id }

def running (m : Memory) (user : UserId) (page : Page) : Except StoreFault (List Entry) :=
  .ok (page.select ((m.ofUser user).filter Entry.isRunning))

def createdBetween (m : Memory) (user : UserId) (page : Page) (first last : Instant) :
    Except StoreFault (List Entry) :=
  .ok (page.select ((m.ofUser user).filter fun e => first ≤ e.created ∧ e.created ≤ last))

def stoppedIn (first last : Instant) (e : Entry) : Bool :=
  e.stop.any fun stop => first ≤ stop ∧ stop ≤ last

def noLonger (a b : Entry) : Bool :=
  a.duration ≤ b.duration

def noEarlier (a b : Entry) : Bool :=
  b.start ≤ a.start

def stoppedBetween (m : Memory) (user : UserId) (first last : Instant) (limit : Nat) :
    Except StoreFault (List Entry) :=
  .ok ((((m.ofUser user).filter (stoppedIn first last)).mergeSort noLonger).take limit)

def recent (m : Memory) (user : UserId) (limit : Nat) : Except StoreFault (List Entry) :=
  .ok (((m.ofUser user).mergeSort noEarlier).take limit)

def taskTotal (m : Memory) (id : TaskId) : Except StoreFault Int :=
  .ok (finishedSum (m.entries.items.filter fun e => e.task = id))

def projectTotal (m : Memory) (id : ProjectId) : Except StoreFault Int :=
  .ok (finishedSum (m.entries.items.filter fun e => e.project = id))

def writeTracked (m : Memory) (id : TaskId) (seconds : Int) (now : Instant) :
    Except StoreFault Memory := do
  let t ← found (m.tasks.find? id)
  return { m with tasks := m.tasks.put { t with trackedSeconds := seconds, updated := now } }

def writeEstimate (m : Memory) (id : ProjectId) (hours : Binary64) (now : Instant) :
    Except StoreFault (Bool × Memory) := do
  let p ← found (m.projects.find? id)
  if p.autoEstimates then
    let p := { p with estimatedHours := hours, updated := now }
    return (true, { m with projects := m.projects.put p })
  else return (false, m)

def putTask (m : Memory) (t : Task) : Memory :=
  { m with tasks := m.tasks.put t }

def putProject (m : Memory) (p : Project) : Memory :=
  { m with projects := m.projects.put p }

end Memory

instance : Store Memory where
  insert := Memory.insert
  fetch := Memory.fetch
  replace := Memory.replace
  erase := Memory.erase
  running := Memory.running
  createdBetween := Memory.createdBetween
  stoppedBetween := Memory.stoppedBetween
  recent := Memory.recent
  taskTotal := Memory.taskTotal
  projectTotal := Memory.projectTotal
  writeTracked := Memory.writeTracked
  writeEstimate := Memory.writeEstimate

end Timesheet
