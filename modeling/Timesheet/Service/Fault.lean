import Timesheet.Store

namespace Timesheet

inductive Action where
  | insertEntry
  | listRunning
  | loadEntry
  | updateEntry
  | deleteEntry
  | sumTask
  | writeTask
  | sumProject
  | writeProject
  | listRange
  | listMostActive
  | listRecent
  deriving DecidableEq

def Action.text : Action → String
  | insertEntry => "insert time entry"
  | listRunning => "list running time entries"
  | loadEntry => "load time entry"
  | updateEntry => "update time entry"
  | deleteEntry => "delete time entry"
  | sumTask => "sum task durations"
  | writeTask => "write task tracked time"
  | sumProject => "sum project durations"
  | writeProject => "write project estimate"
  | listRange => "list time entries in range"
  | listMostActive => "list most active time entries"
  | listRecent => "list recent time entries"

def IdentifierKind.record : IdentifierKind → String
  | entry => "time entry"
  | user => "user"
  | workspace => "workspace"
  | project => "project"
  | task => "task"

/-- `stale` tells that an entry was stored but one of its totals could not be brought up to date. -/
inductive ServiceFault where
  | refused (r : Refusal)
  | notFound (kind : IdentifierKind) (uuid : Uuid)
  | alreadyRunning (user : UserId) (entry : EntryId)
  | store (action : Action) (cause : StoreFault)
  | stale (entry : EntryId) (cause : ServiceFault)
  deriving DecidableEq

inductive FaultKind where
  | invalidId
  | notFound
  | validation
  | conflict
  | store
  deriving DecidableEq

namespace ServiceFault

def message : ServiceFault → String
  | refused r => r.message
  | notFound kind uuid => kind.record ++ " not found: " ++ uuid.text
  | alreadyRunning user entry =>
    "user " ++ user.text ++ " already has a running time entry: " ++ entry.text
  | store action _ => "failed to " ++ action.text
  | stale entry _ => "time entry " ++ entry.text ++ " was saved but its aggregates are stale"

def causes : ServiceFault → List String
  | store _ cause => cause.message :: cause.causes
  | stale _ cause => cause.message :: cause.causes
  | _ => []

/-- A stale total counts as a fault of the store, whatever its cause. -/
def kind : ServiceFault → FaultKind
  | refused (.identifier _) => .invalidId
  | refused (.invalid _) => .validation
  | notFound _ _ => .notFound
  | alreadyRunning _ _ => .conflict
  | store _ _ => .store
  | stale _ _ => .store

end ServiceFault
end Timesheet
