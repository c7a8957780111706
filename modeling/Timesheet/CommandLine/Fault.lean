import Timesheet.Moment
import Timesheet.Service.Fault
import Timesheet.Settings

namespace Timesheet.CommandLine

/-- What a command was about to do. Identifiers are shown as they were given. -/
inductive Undertaking where
  | createEntry
  | startTimer
  | stopEntry (id : String)
  | deleteEntry (id : String)
  | loadEntry (id : String)
  | listRunning
  | listEntries
  | loadDashboard
  | syncTask (id : String)
  | syncProject (id : String)
  | createTask (id : String)
  | loadTask (id : String)
  | createProject (id : String)
  | loadProject (id : String)
  deriving DecidableEq

def Undertaking.text : Undertaking → String
  | createEntry => "create time entry"
  | startTimer => "start timer"
  | stopEntry id => "stop time entry " ++ id
  | deleteEntry id => "delete time entry " ++ id
  | loadEntry id => "load time entry " ++ id
  | listRunning => "list running timers"
  | listEntries => "list time entries"
  | loadDashboard => "load dashboard"
  | syncTask id => "sync task " ++ id
  | syncProject id => "sync project " ++ id
  | createTask id => "create task " ++ id
  | loadTask id => "load task " ++ id
  | createProject id => "create project " ++ id
  | loadProject id => "load project " ++ id

inductive BatchChange where
  | update
  | tag
  deriving DecidableEq

namespace BatchChange

def heading : BatchChange → String
  | update => "Updated"
  | tag => "Tagged"

def participle : BatchChange → String
  | update => "updated"
  | tag => "tagged"

end BatchChange

inductive CommandFault where
  | settings (f : SettingsFault)
  | moment (f : MomentFault)
  | identifier (e : InvalidIdentifier)
  | paging (e : Invalid)
  | service (u : Undertaking) (f : ServiceFault)
  | record (u : Undertaking) (f : DatabaseFault)
  | noWorkspace
  | nothingToUpdate
  | noEntries
  | partlyFailed (failed total : Nat) (change : BatchChange)
  | unreadableSettings
  | noDirectory
  | noDatabase (path : String)
  deriving DecidableEq

namespace CommandFault

def message : CommandFault → String
  | settings f => f.message
  | moment f => f.message
  | identifier e => e.message
  | paging _ => "invalid paging"
  | service u _ => "failed to " ++ u.text
  | record u _ => "failed to " ++ u.text
  | noWorkspace => "no workspace given and workspace_id is not configured"
  | nothingToUpdate => "nothing to update: pass at least one field to change"
  | noEntries => "no time entry IDs given"
  | partlyFailed failed total change =>
    toString failed ++ " of " ++ toString total ++ " time entries could not be " ++
      change.participle
  | unreadableSettings => "failed to load configuration"
  | noDirectory => "failed to create database directory"
  | noDatabase path => "failed to open " ++ path

def causes : CommandFault → List String
  | moment f => f.causes
  | paging e => [e.message]
  | service _ f => f.message :: f.causes
  | record _ f => [f.message]
  | _ => []

def indented (width : Nat) (s : String) : String :=
  String.ofList (s.toList.flatMap fun c =>
    if c = '\n' then '\n' :: List.replicate width ' ' else [c])

def numbered : Nat → List String → String
  | _, [] => ""
  | n, s :: ss =>
    "\n" ++ String.ofList (Text.padStart 5 ' ' (Text.digits n)) ++ ": " ++ indented 7 s ++
      numbered (n + 1) ss

def causeLines : List String → String
  | [] => ""
  | [s] => "\n\nCaused by:\n    " ++ indented 4 s
  | ss => "\n\nCaused by:" ++ numbered 0 ss

def report (f : CommandFault) : String :=
  "Error: " ++ f.message ++ causeLines f.causes ++ "\n"

end CommandFault
end Timesheet.CommandLine
