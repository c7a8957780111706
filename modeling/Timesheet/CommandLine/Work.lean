import Timesheet.Database
import Timesheet.CommandLine.Fault
import Timesheet.Json
import Timesheet.Program

namespace Timesheet.CommandLine

structure Context where
  settings : Settings
  pattern : DatePattern
  now : Instant

structure Outcome where
  out : String
  fault : Option CommandFault := none
  deriving DecidableEq

abbrev Work (α : Type) := ExceptT CommandFault (StateM (Desk Database)) α

namespace Work

def ofExcept {ε α : Type} (fault : ε → CommandFault) (r : Except ε α) : Work α :=
  ExceptT.mk (pure (r.mapError fault))

def program {α : Type} (p : Program α) : Work α :=
  ExceptT.mk fun d =>
    let (a, d) := p.run d
    (.ok a, d)

def serve {α : Type} (u : Undertaking) (op : Operation α) : Work α :=
  ExceptT.mk fun d =>
    let (r, d) := op.run.run d
    (r.mapError (.service u), d)

def load {α : Type} (u : Undertaking) (read : Database → Except DatabaseFault α) : Work α :=
  ExceptT.mk fun d => ((read d.store).mapError (.record u), d)

def store (u : Undertaking) (write : Database → Except DatabaseFault Database) : Work Unit :=
  ExceptT.mk fun d =>
    match write d.store with
    | .ok s => (.ok (), { d with store := s })
    | .error e => (.error (.record u e), d)

def identifierOrNew (kind : IdentifierKind) : Option String → Work (Identifier kind)
  | some text => ofExcept .identifier (Identifier.parse kind text)
  | none => ExceptT.mk fun d => (.ok ⟨d.ids.next.uuid⟩, { d with ids := d.ids.advance })

end Work

def document (x : Json) : String :=
  x.pretty ++ "\n"

def choose (json : Bool) (x : Json) (text : String) : Outcome :=
  { out := if json then document x else text }

open Work

namespace Context

def owner (x : Context) : Work String :=
  ofExcept .settings x.settings.owner

def moment (x : Context) (text : String) : Work Instant :=
  ofExcept .moment (Moment.parse text x.now)

def optionalMoment (x : Context) : Option String → Work (Option Instant)
  | some text => do
    return some (← x.moment text)
  | none => return none

def momentOrNow (x : Context) (text : Option String) : Work Instant := do
  return (← x.optionalMoment text).getD x.now

end Context

end Timesheet.CommandLine
