import Timesheet.Binary64
import Timesheet.Identifier
import Timesheet.Instant

namespace Timesheet

/-- `trackedSeconds` is the sum of the durations of the finished entries of the task. -/
structure Task where
  id : TaskId
  project : ProjectId
  name : String
  trackedSeconds : Int
  created : Instant
  updated : Instant
  deriving DecidableEq

/-- `estimatedHours` follows the tracked time only when `autoEstimates` is on. -/
structure Project where
  id : ProjectId
  workspace : WorkspaceId
  name : String
  autoEstimates : Bool
  estimatedHours : Binary64
  created : Instant
  updated : Instant
  deriving DecidableEq

namespace Task

def new (id : TaskId) (project : ProjectId) (name : String) (now : Instant) : Task :=
  ⟨id, project, name, 0, now, now⟩

end Task

namespace Project

def new (id : ProjectId) (workspace : WorkspaceId) (name : String) (autoEstimates : Bool)
    (now : Instant) : Project :=
  ⟨id, workspace, name, autoEstimates, Binary64.zero, now, now⟩

end Project

/-- Tracked seconds as hours: the nearest float of the seconds, divided by 3600. -/
def hoursOfSeconds (seconds : Int) : Binary64 :=
  (Binary64.ofInt seconds).div (Binary64.ofNat 3600)

end Timesheet
