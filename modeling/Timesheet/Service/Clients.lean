import Timesheet.Service.Session

/-!
Clients that share a store and take turns call by call: between two calls of one client any number of
calls of the others may be answered.
-/

namespace Timesheet

/-- What is left of a session, and where the identifiers of its new entries come from. -/
structure Client where
  rest : Program (List Reply)
  ids : IdSource

def Client.of (policy : Policy) (rs : List Request) (ids : IdSource) : Client :=
  ⟨session policy rs, ids⟩

/-- What a turn comes to. A client that is done lets its turn pass. -/
inductive Event where
  | passed
  | drew (id : EntryId)
  | called (c : Call) (r : Except StoreFault c.Answer)

namespace Event

def drawn? : Event → Option EntryId
  | drew id => some id
  | _ => none

def erased? : Event → Option EntryId
  | called (.erase id) (.ok _) => some id
  | _ => none

end Event

structure Clients (ι σ : Type) where
  store : σ
  client : ι → Client

namespace Clients

variable {ι σ : Type}

def of (store : σ) (policy : ι → Policy) (requests : ι → List Request) (ids : ι → IdSource) :
    Clients ι σ :=
  ⟨store, fun i => .of (policy i) (requests i) (ids i)⟩

variable [DecidableEq ι]

def goOn (s : Clients ι σ) (i : ι) (t : σ) (c : Client) : Clients ι σ :=
  ⟨t, fun j => if j = i then c else s.client j⟩

variable [Store σ]

def turn (s : Clients ι σ) (i : ι) : Event × Clients ι σ :=
  let ids := (s.client i).ids
  match (s.client i).rest with
  | .done _ => (.passed, s)
  | .draw next => (.drew ids.next, s.goOn i s.store ⟨next ids.next, ids.advance⟩)
  | .call c next =>
    let r := c.perform s.store
    (.called c r.1, s.goOn i r.2 ⟨next r.1, ids⟩)

def after (s : Clients ι σ) : List ι → Clients ι σ
  | [] => s
  | i :: is => (s.turn i).2.after is

def events (s : Clients ι σ) : List ι → List Event
  | [] => []
  | i :: is => (s.turn i).1 :: (s.turn i).2.events is

def draws (s : Clients ι σ) (schedule : List ι) : List EntryId :=
  (s.events schedule).filterMap Event.drawn?

def erasures (s : Clients ι σ) (schedule : List ι) : List EntryId :=
  (s.events schedule).filterMap Event.erased?

end Clients
end Timesheet
