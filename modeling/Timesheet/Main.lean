import Std.Time.DateTime.Timestamp
import Timesheet.CommandLine.Response
import Timesheet.Database.Document
import Timesheet.Json.Reader

namespace Timesheet

open CommandLine

def readIfThere (path : String) : IO (Option String) := do
  try
    return some (← IO.FS.readFile path)
  catch _ =>
    return none

def joinPath (directory name : String) : String :=
  directory ++ "/" ++ name

def userDirectory (name fallback : String) : IO (Option String) := do
  match ← IO.getEnv name with
  | some path => if path.startsWith "/" then return some path
  | none => pure ()
  return (← IO.getEnv "HOME").map fun home => joinPath home fallback

def settingNames : List String :=
  ["DATABASE_PATH", "USER_ID", "WORKSPACE_ID", "CREATED_WITH", "DATE_FORMAT", "ENGINE",
    "ENGINE__RESYNC_ON_EDIT", "ENGINE__SINGLE_RUNNING_TIMER"]

def environmentSettings : IO (List (String × String)) := do
  let given ← settingNames.mapM fun name => do
    let name := String.ofList Settings.Environment.nameMark ++ name
    return (← IO.getEnv name).map ((name, ·))
  return given.filterMap id

def loadSettings (config : Option String) : IO (Option Settings) := do
  let data ← userDirectory "XDG_DATA_HOME" ".local/share"
  let own ← userDirectory "XDG_CONFIG_HOME" ".config"
  let userFile ← match own with
    | some path => readIfThere (joinPath path "tally/config.toml")
    | none => pure none
  let file ← match config with
    | some path => readIfThere path
    | none => pure none
  let directory := (data.map fun path => joinPath path "tally").getD "."
  return Settings.load { databasePath := joinPath directory "tally.db" }
    { userFile, file, environment := ← environmentSettings }

def parentDirectory (path : String) : Option String :=
  let above := (path.toList.reverse.dropWhile fun c => c != '/').drop 1
  if above = [] then none else some (String.ofList above.reverse)

def readDatabase (path : String) : IO (Option Database) := do
  match ← readIfThere path with
  | none => return some {}
  | some text => return (Json.read text).toOption.bind Database.ofDocument?

def randomIds : IO IdSource := do
  let seed := (← IO.getRandomBytes 16).foldl (fun n b => 256 * n + b.toNat) 0
  return ⟨fun k => ⟨Uuid.ofRandom (seed + k)⟩, 0⟩

def currentInstant : IO Instant := do
  let now := (← Std.Time.Timestamp.now).toNanosecondsSinceUnixEpoch.val
  return (Instant.of? (now / nanosPerSecond) (now % nanosPerSecond).toNat).getD Instant.earliest

def carryOut (s : Settings) (p : DatePattern) (json : Bool) (c : Command) : IO Response := do
  let path := s.databasePath
  match parentDirectory path with
  | some directory =>
    try
      IO.FS.createDirAll directory
    catch _ =>
      return Response.ofFault .noDirectory
  | none => pure ()
  match ← readDatabase path with
  | none => return Response.ofFault (.noDatabase path)
  | some store =>
    let (o, d) := c.perform ⟨s, p, ← currentInstant⟩ json ⟨store, ← randomIds⟩
    try
      IO.FS.writeFile path d.store.document.compact
    catch _ =>
      return Response.ofFault (.noDatabase path)
    return Response.ofOutcome o

def respond (args : List String) : IO Response := do
  match Invocation.read args with
  | .error f => return Response.ofUsage f
  | .ok i =>
    match i.command with
    | none => return { exit := 0, out := Response.help }
    | some c =>
      match checkedSettings (← loadSettings i.config) with
      | .error f => return Response.ofFault f
      | .ok (s, p) => carryOut s p i.json c

end Timesheet

def main (args : List String) : IO UInt32 := do
  let r ← Timesheet.respond args
  (← IO.getStdout).putStr r.out
  (← IO.getStderr).putStr r.err
  return UInt32.ofNat r.exit
