import Timesheet.Store

/-!
Programs over a store: trees of single calls. A program says which call comes next and goes on with
its answer, so that it can be run alone on any store, and two programs can take turns call by call.
Drawing an identifier for a new entry is a step of its own.
-/

namespace Timesheet

inductive Call where
  | insert (e : Entry)
  | fetch (id : EntryId)
  | replace (e : Entry)
  | erase (id : EntryId)
  | running (user : UserId) (page : Page)
  | createdBetween (user : UserId) (page : Page) (first last : Instant)
  | stoppedBetween (user : UserId) (first last : Instant) (limit : Nat)
  | recent (user : UserId) (limit : Nat)
  | taskTotal (id : TaskId)
  | projectTotal (id : ProjectId)
  | writeTracked (id : TaskId) (seconds : Int) (now : Instant)
  | writeEstimate (id : ProjectId) (hours : Binary64) (now : Instant)

/-- What a call answers when it succeeds. -/
def Call.Answer : Call → Type
  | insert _ => Unit
  | fetch _ => Entry
  | replace _ => Unit
  | erase _ => Unit
  | running _ _ => List Entry
  | createdBetween _ _ _ _ => List Entry
  | stoppedBetween _ _ _ _ => List Entry
  | recent _ _ => List Entry
  | taskTotal _ => Int
  | projectTotal _ => Int
  | writeTracked _ _ _ => Unit
  | writeEstimate _ _ _ => Bool

inductive Program (α : Type) where
  | done (a : α)
  | draw (next : EntryId → Program α)
  | call (c : Call) (next : Except StoreFault c.Answer → Program α)

namespace Program

variable {α β σ : Type}

def bind (p : Program α) (f : α → Program β) : Program β :=
  match p with
  | done a => f a
  | draw next => draw fun id => (next id).bind f
  | call c next => call c fun r => (next r).bind f

instance : Monad Program where
  pure := done
  bind := bind

def ask (c : Call) : Program (Except StoreFault c.Answer) :=
  call c done

def drawId : Program EntryId :=
  draw done

end Program

def changed {σ : Type} (s : σ) : Except StoreFault σ → Except StoreFault Unit × σ
  | .ok t => (.ok (), t)
  | .error e => (.error e, s)

def changedIf {σ : Type} (s : σ) : Except StoreFault (Bool × σ) → Except StoreFault Bool × σ
  | .ok (b, t) => (.ok b, t)
  | .error e => (.error e, s)

def Call.perform {σ : Type} [Store σ] (s : σ) : (c : Call) → Except StoreFault c.Answer × σ
  | insert e => changed s (Store.insert s e)
  | fetch id => (Store.fetch s id, s)
  | replace e => changed s (Store.replace s e)
  | erase id => changed s (Store.erase s id)
  | running user page => (Store.running s user page, s)
  | createdBetween user page first last => (Store.createdBetween s user page first last, s)
  | stoppedBetween user first last limit => (Store.stoppedBetween s user first last limit, s)
  | recent user limit => (Store.recent s user limit, s)
  | taskTotal id => (Store.taskTotal s id, s)
  | projectTotal id => (Store.projectTotal s id, s)
  | writeTracked id seconds now => changed s (Store.writeTracked s id seconds now)
  | writeEstimate id hours now => changedIf s (Store.writeEstimate s id hours now)

/-- Where the identifiers of new entries come from, and how many have been drawn. -/
structure IdSource where
  stream : Nat → EntryId
  drawn : Nat := 0

namespace IdSource

def next (s : IdSource) : EntryId :=
  s.stream s.drawn

def advance (s : IdSource) : IdSource :=
  { s with drawn := s.drawn + 1 }

def after (n : Nat) : IdSource :=
  ⟨fun k => ⟨Uuid.ofNat (n + 1 + k)⟩, 0⟩

end IdSource

/-- A store with a source of identifiers. -/
structure Desk (σ : Type) where
  store : σ
  ids : IdSource

def Program.run {α σ : Type} [Store σ] (d : Desk σ) : Program α → α × Desk σ
  | done a => (a, d)
  | draw next => (next d.ids.next).run { d with ids := d.ids.advance }
  | call c next =>
    let r := c.perform d.store
    (next r.1).run { d with store := r.2 }

end Timesheet
