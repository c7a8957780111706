import Timesheet.Tag
import Timesheet.Validation

/-!
Time entries. A running entry has the duration -1 and no stop; a finished one has a stop, and its
duration is the seconds from start to stop. Every function here that builds or changes an entry keeps
it one of the two.
-/

namespace Timesheet

structure Entry where
  id : EntryId
  description : String
  user : UserId
  workspace : WorkspaceId
  project : ProjectId
  task : TaskId
  billable : Bool
  start : Instant
  stop : Option Instant
  duration : Int
  createdWith : String
  tags : TagSet
  durationOnly : Bool
  created : Instant
  updated : Instant
  deriving DecidableEq

structure EntryFields where
  description : Option String := none
  workspace : Option String := none
  project : Option String := none
  task : Option String := none
  billable : Bool := false
  createdWith : Option String := none
  tags : Option (List String) := none
  durationOnly : Bool := false
  deriving DecidableEq

structure NewEntry where
  fields : EntryFields := {}
  start : Option Instant := none
  duration : Option Int := none
  deriving DecidableEq

/-- A change of some fields. Blank text for a project or task takes it away. -/
structure Patch where
  description : Option String := none
  workspace : Option String := none
  project : Option String := none
  task : Option String := none
  billable : Option Bool := none
  start : Option Instant := none
  stop : Option Instant := none
  tags : Option (List String) := none
  durationOnly : Option Bool := none
  deriving DecidableEq

def Patch.isEmpty (p : Patch) : Bool :=
  p == {}

structure EntryDetails where
  description : String
  workspace : WorkspaceId
  project : ProjectId
  task : TaskId
  billable : Bool
  createdWith : String
  tags : TagSet
  durationOnly : Bool
  deriving DecidableEq

def require {α : Type} (field : Field) : Option α → Except Refusal α
  | some a => .ok a
  | none => .error (.invalid (.missing field))

def readIdentifier {kind : IdentifierKind} (r : Except InvalidIdentifier (Identifier kind)) :
    Except Refusal (Identifier kind) :=
  r.mapError .identifier

def requireText (field : Field) (text : Option String) : Except Refusal String := do
  let t := Text.trim (← require field text)
  if t = "" then throw (.invalid (.empty field)) else return t

namespace EntryFields

/-- Checks the fields in the order workspace, project, task, client label. -/
def validate (f : EntryFields) : Except Refusal EntryDetails := do
  let workspace ← require .workspace f.workspace
  let workspace ← readIdentifier (Identifier.parse .workspace workspace)
  let project ← readIdentifier (Identifier.parseOptional .project f.project)
  let task ← readIdentifier (Identifier.parseOptional .task f.task)
  let createdWith ← requireText .createdWith f.createdWith
  return {
    description := f.description.getD ""
    workspace, project, task
    billable := f.billable
    createdWith
    tags := TagSet.normalize (f.tags.getD [])
    durationOnly := f.durationOnly }

end EntryFields

def storable (field : Field) (i : Instant) : Except Invalid Instant :=
  if i.IsStorable then .ok i else .error (.instantOutOfRange field i)

def intervalSeconds (start stop : Instant) : Except Invalid Int :=
  if stop < start then .error (.stopBeforeStart start stop) else .ok (start.secondsUntil stop)

namespace Entry

/-- The duration that marks a running entry. -/
def runningDuration : Int := -1

def isRunning (e : Entry) : Bool :=
  e.duration == runningDuration

def assemble (id : EntryId) (user : UserId) (d : EntryDetails) (start : Instant)
    (stop : Option Instant) (duration : Int) (now : Instant) : Entry where
  id := id
  description := d.description
  user := user
  workspace := d.workspace
  project := d.project
  task := d.task
  billable := d.billable
  start := start
  stop := stop
  duration := duration
  createdWith := d.createdWith
  tags := d.tags
  durationOnly := d.durationOnly
  created := now.wholeSecond
  updated := now.wholeSecond

def endOf (start : Instant) (duration : Int) : Except Invalid Instant :=
  match start.addSeconds? duration with
  | some stop => if stop.IsStorable then .ok stop else .error (.durationOutOfRange start duration)
  | none => .error (.durationOutOfRange start duration)

def finished (id : EntryId) (user : UserId) (d : EntryDetails) (start : Instant) (duration : Int)
    (now : Instant) : Except Invalid Entry := do
  if duration < 0 then throw (.negativeDuration duration)
  let start ← storable .start start.wholeSecond
  let stop ← endOf start duration
  return assemble id user d start (some stop) duration now

def running (id : EntryId) (user : UserId) (d : EntryDetails) (now : Instant) : Entry :=
  assemble id user d now.wholeSecond none runningDuration now

/-- Moves the stop to now, whether the entry is running or not. -/
def stopAt (e : Entry) (now : Instant) : Except Invalid Entry := do
  let stop ← storable .stop now.wholeSecond
  let duration ← intervalSeconds e.start stop
  return { e with stop := some stop, duration := duration, updated := stop }

structure Interval where
  start : Instant
  stop : Option Instant
  duration : Int
  deriving DecidableEq

def patchedStart (e : Entry) : Option Instant → Except Invalid Instant
  | some i => storable .start i.wholeSecond
  | none => .ok e.start

def patchedStop (e : Entry) : Option Instant → Except Invalid (Option Instant)
  | some i => some <$> storable .stop i.wholeSecond
  | none => .ok e.stop

/-- The duration is derived anew when start or stop is supplied, and only then. -/
def patchedInterval (e : Entry) (p : Patch) : Except Invalid Interval :=
  if p.start = none ∧ p.stop = none then .ok ⟨e.start, e.stop, e.duration⟩
  else do
    let start ← e.patchedStart p.start
    match ← e.patchedStop p.stop with
    | some stop => return ⟨start, some stop, ← intervalSeconds start stop⟩
    | none => return ⟨start, none, runningDuration⟩

def patchedIdentifier {kind : IdentifierKind} (current : Identifier kind)
    (read : String → Except InvalidIdentifier (Identifier kind)) :
    Option String → Except Refusal (Identifier kind)
  | some text => readIdentifier (read text)
  | none => .ok current

/-- Applies the supplied fields of a patch. Identifiers are checked before the interval. -/
def applyPatch (e : Entry) (p : Patch) (now : Instant) : Except Refusal Entry := do
  let workspace ← patchedIdentifier e.workspace (Identifier.parse .workspace) p.workspace
  let project ← patchedIdentifier e.project
    (fun s => Identifier.parseOptional .project (some s)) p.project
  let task ← patchedIdentifier e.task (fun s => Identifier.parseOptional .task (some s)) p.task
  let interval ← (e.patchedInterval p).mapError .invalid
  return { e with
    description := p.description.getD e.description
    workspace, project, task
    billable := p.billable.getD e.billable
    start := interval.start
    stop := interval.stop
    duration := interval.duration
    tags := (p.tags.map TagSet.normalize).getD e.tags
    durationOnly := p.durationOnly.getD e.durationOnly
    updated := now.wholeSecond }

def editTags (e : Entry) (tags : List String) (mode : TagMode) (now : Instant) : Entry :=
  { e with tags := mode.apply e.tags (TagSet.normalize tags), updated := now.wholeSecond }

end Entry
end Timesheet
