import Timesheet.Identifier
import Timesheet.Instant.Text
import Timesheet.Tag

namespace Timesheet

inductive Field where
  | workspace
  | createdWith
  | start
  | stop
  | duration
  | page
  | pageSize
  deriving DecidableEq

def Field.label : Field → String
  | workspace => "workspace_id"
  | createdWith => "created_with"
  | start => "start"
  | stop => "stop"
  | duration => "duration"
  | page => "page"
  | pageSize => "page size"

inductive Invalid where
  | missing (field : Field)
  | empty (field : Field)
  | negativeDuration (value : Int)
  | durationOutOfRange (start : Instant) (value : Int)
  | instantOutOfRange (field : Field) (value : Instant)
  | stopBeforeStart (start stop : Instant)
  | tagMode (given : String)
  | belowOne (field : Field)
  deriving DecidableEq

def Invalid.message : Invalid → String
  | missing f => f.label ++ " is required"
  | empty f => f.label ++ " cannot be empty"
  | negativeDuration v => "duration must be non-negative, got " ++ toString v
  | durationOutOfRange s v =>
    "duration " ++ toString v ++ "s is out of range for start " ++ s.display
  | instantOutOfRange f i =>
    f.label ++ " " ++ i.display ++ " is outside the supported range (years 0000 to 9999)"
  | stopBeforeStart start stop => "stop " ++ stop.display ++ " is before start " ++ start.display
  | tagMode given => "invalid tag mode: " ++ given ++ " (expected \"add\" or \"remove\")"
  | belowOne f => f.label ++ " must be at least 1"

/-- A supplied value that was refused: an identifier that does not parse, or another fault. -/
inductive Refusal where
  | identifier (e : InvalidIdentifier)
  | invalid (e : Invalid)
  deriving DecidableEq

def Refusal.message : Refusal → String
  | identifier e => e.message
  | invalid e => e.message

def readTagMode (given : String) : Except Invalid TagMode :=
  match TagMode.parse? given with
  | some m => .ok m
  | none => .error (.tagMode given)

end Timesheet
