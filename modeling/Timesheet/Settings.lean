import Timesheet.DatePattern
import Timesheet.Service
import Timesheet.Settings.Environment

namespace Timesheet

structure Settings where
  databasePath : String
  user : Option String := none
  workspace : Option String := none
  createdWith : String := "tally-cli"
  dateFormat : String := "%Y-%m-%d %H:%M"
  policy : Policy := {}
  deriving DecidableEq

inductive SettingsFault where
  | dateFormat (given : String)
  | blankCreatedWith
  | noOwner
  deriving DecidableEq

def SettingsFault.message : SettingsFault → String
  | dateFormat given => "invalid date_format: " ++ Text.quoted given
  | blankCreatedWith => "created_with cannot be empty"
  | noOwner => "user_id is not configured (set it in config.toml or TALLY_USER_ID)"

namespace Settings

/-- Checks the settings, and answers the pattern that instants are shown in. -/
def check (s : Settings) : Except SettingsFault DatePattern :=
  match DatePattern.parse? s.dateFormat with
  | none => .error (.dateFormat s.dateFormat)
  | some p => if Text.isBlankText s.createdWith then .error .blankCreatedWith else .ok p

def owner (s : Settings) : Except SettingsFault String :=
  match s.user.map Text.trim with
  | some user => if user = "" then .error .noOwner else .ok user
  | none => .error .noOwner

namespace Value

def text? : Value → Option String
  | text s => some s
  | _ => none

def bool? : Value → Option Bool
  | bool b => some b
  | _ => none

def member {α : Type} (ms : Members) (name : String) (default : α) (read : Value → Option α) :
    Option α :=
  match ms.lookup name with
  | some v => read v
  | none => some default

def policyNames : List String :=
  ["resync_on_edit", "single_running_timer"]

def policyMembers? : Value → Option Members
  | table ms => some ms
  | list vs => some (policyNames.zip vs)
  | _ => none

def policy? (v : Value) : Option Policy := do
  let ms ← policyMembers? v
  let resyncOnEdit ← member ms "resync_on_edit" false bool?
  let singleRunningTimer ← member ms "single_running_timer" false bool?
  return { resyncOnEdit, singleRunningTimer }

end Value

def ofValue? (default : Settings) : Value → Option Settings
  | .table ms => do
    let databasePath ← Value.member ms "database_path" default.databasePath Value.text?
    let user ← Value.member ms "user_id" default.user fun v => v.text?.map some
    let workspace ← Value.member ms "workspace_id" default.workspace fun v => v.text?.map some
    let createdWith ← Value.member ms "created_with" default.createdWith Value.text?
    let dateFormat ← Value.member ms "date_format" default.dateFormat Value.text?
    let policy ← Value.member ms "engine" default.policy Value.policy?
    return { databasePath, user, workspace, createdWith, dateFormat, policy }
  | _ => none

structure Sources where
  userFile : Option String := none
  file : Option String := none
  environment : List (String × String) := []

def readFile? : Option String → Option Value
  | some text => Toml.read text
  | none => some (.table [])

def load (default : Settings) (s : Sources) : Option Settings := do
  let user ← readFile? s.userFile
  let file ← readFile? s.file
  ofValue? default ((user.override file).override (Environment.settings s.environment))

end Settings
end Timesheet
