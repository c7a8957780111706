import Timesheet.Service

/-!
The same change on several entries. Each is tried on its own: a failure does not undo what came
before it and does not keep the rest from being tried.
-/

namespace Timesheet.Service

def splitCommas (s : List Char) : List (List Char) :=
  s.splitOn ','

/-- The items between commas, trimmed, without blank ones. -/
def parseIdList (ids : String) : List String :=
  ((splitCommas ids.toList).map fun s => String.ofList (Text.trimmed s)).filter fun s => s ≠ ""

structure BatchItem where
  id : String
  result : Except ServiceFault Entry

namespace BatchItem

def succeeded? (i : BatchItem) : Option Entry :=
  i.result.toOption

def failed? (i : BatchItem) : Option (String × ServiceFault) :=
  match i.result with
  | .ok _ => none
  | .error e => some (i.id, e)

end BatchItem

def forEachId (apply : String → Operation Entry) : List String → Program (List BatchItem)
  | [] => return []
  | id :: ids => do
    let result ← (apply id).run
    let items ← forEachId apply ids
    return ⟨id, result⟩ :: items

def updateBatch (policy : Policy) (ids : String) (patch : Patch) (now : Instant) :
    Program (List BatchItem) :=
  forEachId (fun id => update policy id patch now) (parseIdList ids)

def updateTagsBatch (ids : String) (tags : List String) (mode : TagMode) (now : Instant) :
    Program (List BatchItem) :=
  forEachId (fun id => updateTags id tags mode now) (parseIdList ids)

end Timesheet.Service
