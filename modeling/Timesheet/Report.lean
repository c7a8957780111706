import Timesheet.DatePattern
import Timesheet.Decimal.Places
import Timesheet.Entry

namespace Timesheet.Report

open Text

def duration (seconds : Int) : String :=
  if seconds < 0 then "running"
  else if seconds < 60 then toString seconds ++ "s"
  else
    let minutes := seconds / 60
    if 60 ≤ minutes then toString (minutes / 60) ++ "h " ++ toString (minutes % 60) ++ "m"
    else toString minutes ++ "m"

def hours (x : Binary64) : String :=
  String.ofList (Decimal.withPlaces 2 x) ++ "h"

def line (s : String) : String :=
  s ++ "\n"

def labelled (label text : String) : String :=
  line (String.ofList (label.toList ++ List.replicate (14 - label.length) ' ') ++ text)

def tagList (e : Entry) : String :=
  ", ".intercalate e.tags.items

def stopText (p : DatePattern) : Option Instant → String
  | some i => p.render i
  | none => "..."

/-- Identifier, interval, duration, and description and tags if there are any. -/
def entryLine (p : DatePattern) (e : Entry) : String :=
  line (e.id.text ++ "  " ++ p.render e.start ++ " - " ++ stopText p e.stop ++ "  " ++
    String.ofList (padStart 8 ' ' (duration e.duration).toList) ++
    (if e.description = "" then "" else "  " ++ e.description) ++
    (if e.tags.items = [] then "" else "  [" ++ tagList e ++ "]"))

def entryList (p : DatePattern) (es : List Entry) (none : String) : String :=
  if es = [] then line none else "".intercalate (es.map (entryLine p))

def stateText (e : Entry) : String :=
  if e.isRunning then "Running" else "Stopped"

def identifierLine {kind : IdentifierKind} (label : String) (id : Identifier kind) : String :=
  if id.isAbsent then "" else labelled label id.text

def stopLine (p : DatePattern) : Option Instant → String
  | some i => labelled "Stop:" (p.render i)
  | none => ""

def entryDetail (p : DatePattern) (e : Entry) : String :=
  labelled "Entry:" e.id.text ++
    (if e.description = "" then "" else labelled "Description:" e.description) ++
    labelled "State:" (stateText e) ++
    labelled "Start:" (p.render e.start) ++
    stopLine p e.stop ++
    labelled "Duration:" (duration e.duration) ++
    labelled "Workspace:" e.workspace.text ++
    identifierLine "Project:" e.project ++
    identifierLine "Task:" e.task ++
    labelled "Billable:" (if e.billable then "yes" else "no") ++
    (if e.tags.items = [] then "" else labelled "Tags:" (tagList e)) ++
    labelled "Created with:" e.createdWith

end Timesheet.Report
