import Timesheet.Text.Blank
import Timesheet.Text.Quoted
import Timesheet.Uuid

/-!
Identifiers of entries, users, workspaces, projects and tasks. The kind is part of the type, so one
cannot stand for another. The all-zero identifier says that an entry has no project or no task.
-/

namespace Timesheet

inductive IdentifierKind where
  | entry
  | user
  | workspace
  | project
  | task
  deriving DecidableEq

def IdentifierKind.label : IdentifierKind → String
  | .entry => "time entry ID"
  | .user => "user ID"
  | .workspace => "workspace ID"
  | .project => "project ID"
  | .task => "task ID"

structure Identifier (kind : IdentifierKind) where
  uuid : Uuid
  deriving DecidableEq

abbrev EntryId := Identifier .entry
abbrev UserId := Identifier .user
abbrev WorkspaceId := Identifier .workspace
abbrev ProjectId := Identifier .project
abbrev TaskId := Identifier .task

structure InvalidIdentifier where
  kind : IdentifierKind
  given : String
  deriving DecidableEq

def InvalidIdentifier.message (e : InvalidIdentifier) : String :=
  "invalid " ++ e.kind.label ++ ": " ++ Text.quoted e.given

namespace Identifier

variable {kind : IdentifierKind}

instance : LT (Identifier kind) := ⟨fun a b => a.uuid < b.uuid⟩

instance (a b : Identifier kind) : Decidable (a < b) :=
  inferInstanceAs (Decidable (a.uuid < b.uuid))

def text (a : Identifier kind) : String :=
  a.uuid.text

/-- The identifier that stands for no project or no task. -/
def absent : Identifier kind :=
  ⟨Uuid.zero⟩

def isAbsent (a : Identifier kind) : Bool :=
  a == absent

/-- Blanks around the text are ignored, but an error shows the text as it was given. -/
def parse (kind : IdentifierKind) (given : String) : Except InvalidIdentifier (Identifier kind) :=
  match Uuid.ofChars? (Text.trimmed given.toList) with
  | some u => .ok ⟨u⟩
  | none => .error ⟨kind, given⟩

/-- Blank text and no text mean the absent identifier; an error shows the trimmed text. -/
def parseOptional (kind : IdentifierKind) :
    Option String → Except InvalidIdentifier (Identifier kind)
  | none => .ok absent
  | some given => if Text.trim given = "" then .ok absent else parse kind (Text.trim given)

end Identifier
end Timesheet
