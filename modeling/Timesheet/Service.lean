import Timesheet.Program
import Timesheet.Service.Fault

/-!
The operations on time entries. Arguments are checked before the store is asked anything. After a
duration has become final, the totals of the task and the project of the entry are computed anew; if
that fails the entry stays stored and the answer is a `stale` fault.
-/

namespace Timesheet

/-- What differs between deployments. -/
structure Policy where
  /-- Totals follow changes and deletions too. -/
  resyncOnEdit : Bool := false
  /-- An owner has at most one running entry. -/
  singleRunningTimer : Bool := false
  deriving DecidableEq

abbrev Operation (α : Type) := ExceptT ServiceFault Program α

namespace Service

def checked {α : Type} (r : Except Refusal α) : Operation α :=
  liftM (r.mapError ServiceFault.refused)

def identified {kind : IdentifierKind} (r : Except InvalidIdentifier (Identifier kind)) :
    Operation (Identifier kind) :=
  checked (readIdentifier r)

def asking (action : Action) (c : Call) : Operation c.Answer :=
  ExceptT.mk ((Except.mapError (ServiceFault.store action)) <$> Program.ask c)

def addressFault {kind : IdentifierKind} (action : Action) (id : Identifier kind) :
    StoreFault → ServiceFault
  | .missing => .notFound kind id.uuid
  | .backend e => .store action (.backend e)

def addressing {kind : IdentifierKind} (action : Action) (id : Identifier kind) (c : Call) :
    Operation c.Answer :=
  ExceptT.mk ((Except.mapError (addressFault action id)) <$> Program.ask c)

def draw : Operation EntryId :=
  ExceptT.mk (Except.ok <$> Program.drawId)

def load (id : EntryId) : Operation Entry :=
  addressing .loadEntry id (.fetch id)

def save (e : Entry) : Operation Unit :=
  addressing .updateEntry e.id (.replace e)

structure TaskTotal where
  task : TaskId
  trackedSeconds : Int
  deriving DecidableEq

structure ProjectTotal where
  project : ProjectId
  estimatedHours : Binary64
  applied : Bool
  deriving DecidableEq

def syncTask (id : TaskId) (now : Instant) : Operation TaskTotal := do
  let seconds ← addressing .sumTask id (.taskTotal id)
  addressing .writeTask id (.writeTracked id seconds now.wholeSecond)
  return ⟨id, seconds⟩

def syncProject (id : ProjectId) (now : Instant) : Operation ProjectTotal := do
  let seconds ← addressing .sumProject id (.projectTotal id)
  let hours := hoursOfSeconds seconds
  let applied ← addressing .writeProject id (.writeEstimate id hours now.wholeSecond)
  return ⟨id, hours, applied⟩

def syncTaskTime (id : String) (now : Instant) : Operation TaskTotal := do
  syncTask (← identified (Identifier.parse .task id)) now

def syncProjectTime (id : String) (now : Instant) : Operation ProjectTotal := do
  syncProject (← identified (Identifier.parse .project id)) now

def dedupAdjacent {α : Type} [DecidableEq α] : List α → List α
  | a :: b :: s => if a = b then dedupAdjacent (b :: s) else a :: dedupAdjacent (b :: s)
  | s => s

def targets {kind : IdentifierKind} (ids : List (Identifier kind)) : List (Identifier kind) :=
  dedupAdjacent (ids.filter fun id => !id.isAbsent)

def syncTasks (now : Instant) : List TaskId → Operation Unit
  | [] => return
  | id :: ids => do
    let _ ← syncTask id now
    syncTasks now ids

def syncProjects (now : Instant) : List ProjectId → Operation Unit
  | [] => return
  | id :: ids => do
    let _ ← syncProject id now
    syncProjects now ids

def syncAll (tasks : List TaskId) (projects : List ProjectId) (now : Instant) : Operation Unit := do
  syncTasks now (targets tasks)
  syncProjects now (targets projects)

/-- Totals that could not be brought up to date leave the entry as it was stored. -/
def resync (entry : EntryId) (tasks : List TaskId) (projects : List ProjectId) (now : Instant) :
    Operation Unit :=
  ExceptT.mk (Except.mapError (ServiceFault.stale entry) <$> (syncAll tasks projects now).run)

def resyncEntry (e : Entry) (now : Instant) : Operation Unit :=
  resync e.id [e.task] [e.project] now

def create (input : NewEntry) (owner : String) (now : Instant) : Operation Entry := do
  let user ← identified (Identifier.parse .user owner)
  let details ← checked input.fields.validate
  let start ← checked (require .start input.start)
  let duration ← checked (require .duration input.duration)
  let id ← draw
  let entry ← checked ((Entry.finished id user details start duration now).mapError .invalid)
  asking .insertEntry (.insert entry)
  resyncEntry entry now
  return entry

def refuseSecondTimer (user : UserId) : Operation Unit := do
  match ← asking .listRunning (.running user Page.single) with
  | [] => return
  | e :: _ => throw (.alreadyRunning user e.id)

/-- Starts an entry now. No total changes, since a running entry has no final duration. -/
def start (policy : Policy) (fields : EntryFields) (owner : String) (now : Instant) :
    Operation Entry := do
  let user ← identified (Identifier.parse .user owner)
  let details ← checked fields.validate
  if policy.singleRunningTimer then refuseSecondTimer user
  let entry := Entry.running (← draw) user details now
  asking .insertEntry (.insert entry)
  return entry

/-- Stops an entry now; a finished one gets a new stop. -/
def stop (id : String) (now : Instant) : Operation Entry := do
  let entry ← load (← identified (Identifier.parse .entry id))
  let stopped ← checked ((entry.stopAt now).mapError .invalid)
  save stopped
  resyncEntry stopped now
  return stopped

def update (policy : Policy) (id : String) (patch : Patch) (now : Instant) : Operation Entry := do
  let entry ← load (← identified (Identifier.parse .entry id))
  let patched ← checked (entry.applyPatch patch now)
  save patched
  if policy.resyncOnEdit then
    resync entry.id [entry.task, patched.task] [entry.project, patched.project] now
  return patched

def delete (policy : Policy) (id : String) (now : Instant) : Operation Entry := do
  let id ← identified (Identifier.parse .entry id)
  let entry ← load id
  addressing .deleteEntry id (.erase id)
  if policy.resyncOnEdit then resyncEntry entry now
  return entry

def updateTags (id : String) (tags : List String) (mode : TagMode) (now : Instant) :
    Operation Entry := do
  let entry ← load (← identified (Identifier.parse .entry id))
  let edited := entry.editTags tags mode now
  save edited
  return edited

def get (id : String) : Operation Entry := do
  load (← identified (Identifier.parse .entry id))

def running (owner : String) (page : Page) : Operation (List Entry) := do
  let user ← identified (Identifier.parse .user owner)
  asking .listRunning (.running user page)

/-- The entries of an owner that were created from one instant to another. Bounds outside the
storable years are moved to their ends. -/
def range (owner : String) (page : Page) (first last : Instant) : Operation (List Entry) := do
  let user ← identified (Identifier.parse .user owner)
  if last < first then return []
  else asking .listRange (.createdBetween user page first.clampStorable last.clampStorable)

structure Dashboard where
  mostActive : List Entry
  recent : List Entry

def Dashboard.all (d : Dashboard) : List Entry :=
  d.mostActive ++ d.recent

def dashboardSeconds : Int := 7 * 86400

/-- Seven days earlier. In the first seven days of the calendar there is no such instant, and a
dashboard should not be asked for at all, since it ends the program instead of being answered; the
first instant stands in for it so that there is a value. -/
def dashboardStart (now : Instant) : Instant :=
  (now.addSeconds? (-dashboardSeconds)).getD Instant.earliest

/-- The shortest entries stopped in the last seven days, and those started last. -/
def dashboard (owner : String) (now : Instant) : Operation Dashboard := do
  let user ← identified (Identifier.parse .user owner)
  let mostActive ← asking .listMostActive (.stoppedBetween user (dashboardStart now) now 5)
  let recent ← asking .listRecent (.recent user 20)
  return ⟨mostActive, recent⟩

end Service
end Timesheet
