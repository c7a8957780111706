import Mathlib.Tactic
import Timesheet.Service.Session

/-!
Running programs. What a program may write, and what it may take for granted about the answers it
gets, is read off its tree of calls; a relation between two stores that every such call keeps is
then kept by the whole run, and both runs answer the same.
-/

namespace Timesheet

/-- What holds of every entry that is stored, of every instant that is written on a record, of the
bounds of every range that is asked for, and of every total. -/
structure Contract where
  entry : Entry → Prop
  clock : Instant → Prop
  bound : Instant → Prop
  total : Int → Prop

namespace Call

def Obeys (k : Contract) (drawn : Option EntryId) : Call → Prop
  | insert e => k.entry e ∧ drawn = some e.id
  | replace e => k.entry e
  | createdBetween _ _ first last => k.bound first ∧ k.bound last
  | stoppedBetween _ first last _ => k.bound first ∧ k.bound last
  | writeTracked _ _ now => k.clock now
  | writeEstimate _ hours now => k.clock now ∧ ∃ n, k.total n ∧ hours = hoursOfSeconds n
  | _ => True

def Hands (k : Contract) : (c : Call) → Except StoreFault c.Answer → Prop
  | fetch _, r => ∀ e, r = .ok e → k.entry e
  | taskTotal _, r => ∀ n, r = .ok n → k.total n
  | projectTotal _, r => ∀ n, r = .ok n → k.total n
  | _, _ => True

def unused (drawn : Option EntryId) : Call → Option EntryId
  | insert _ => none
  | _ => drawn

end Call

namespace Program

variable {α β σ τ : Type}

theorem bind_done (p : Program α) : p.bind done = p := by
  induction p with
  | done a => rfl
  | draw next ih => exact congrArg draw (funext ih)
  | call c next ih => exact congrArg (call c) (funext ih)

theorem bind_bind {γ : Type} (p : Program α) (f : α → Program β) (g : β → Program γ) :
    (p.bind f).bind g = p.bind fun a => (f a).bind g := by
  induction p with
  | done a => rfl
  | draw next ih => exact congrArg draw (funext ih)
  | call c next ih => exact congrArg (call c) (funext ih)

instance : LawfulMonad Program :=
  LawfulMonad.mk' _ bind_done (fun _ _ => rfl) bind_bind

theorem run_bind [Store σ] (p : Program α) (f : α → Program β) (d : Desk σ) :
    (p >>= f).run d = (f (p.run d).1).run (p.run d).2 := by
  change (p.bind f).run d = _
  induction p generalizing d with
  | done a => rfl
  | draw next ih => exact ih _ _
  | call c next ih => exact ih _ _

@[simp]
theorem run_map [Store σ] (f : α → β) (p : Program α) (d : Desk σ) :
    (f <$> p).run d = (f (p.run d).1, (p.run d).2) := by
  rw [map_eq_pure_bind, run_bind]
  rfl

theorem drawn_le [Store σ] (p : Program α) (d : Desk σ) :
    d.ids.drawn ≤ (p.run d).2.ids.drawn := by
  induction p generalizing d with
  | done a => exact Nat.le_refl _
  | draw next ih => exact Nat.le_trans (Nat.le_succ _) (ih _ { d with ids := d.ids.advance })
  | call c next ih => exact ih (c.perform d.store).1 { d with store := (c.perform d.store).2 }

theorem stream_run [Store σ] (p : Program α) (d : Desk σ) :
    (p.run d).2.ids.stream = d.ids.stream := by
  induction p generalizing d with
  | done a => rfl
  | draw next ih => exact ih _ { d with ids := d.ids.advance }
  | call c next ih => exact ih (c.perform d.store).1 { d with store := (c.perform d.store).2 }

/-- Every call of a program obeys the contract as long as the answers do, and its result has the
property `post`. -/
def Keeps (k : Contract) (post : α → Prop) : Option EntryId → Program α → Prop
  | _, done a => post a
  | _, draw next => ∀ id, (next id).Keeps k post (some id)
  | drawn, call c next =>
    c.Obeys k drawn ∧ ∀ r, c.Hands k r → (next r).Keeps k post (c.unused drawn)

def trace [Store σ] : Desk σ → Program α → List (σ × Call)
  | _, done _ => []
  | d, draw next => (next d.ids.next).trace { d with ids := d.ids.advance }
  | d, call c next =>
    (d.store, c) :: (next (c.perform d.store).1).trace { d with store := (c.perform d.store).2 }

theorem trace_bind [Store σ] (p : Program α) (f : α → Program β) (d : Desk σ) :
    (p >>= f).trace d = p.trace d ++ (f (p.run d).1).trace (p.run d).2 := by
  change (p.bind f).trace d = _
  induction p generalizing d with
  | done a => rfl
  | draw next ih => exact ih _ _
  | call c next ih => exact congrArg (List.cons _) (ih _ _)

theorem Keeps.run_related [Store σ] [Store τ] {k : Contract} {post : α → Prop}
    {C : τ → Call → Prop} {R : Option EntryId → Desk σ → Desk τ → Prop}
    (hdraw : ∀ drawn d e, R drawn d e → d.ids.next = e.ids.next ∧
      R (some d.ids.next) { d with ids := d.ids.advance } { e with ids := e.ids.advance })
    (hcall : ∀ drawn d e (c : Call), R drawn d e → c.Obeys k drawn → C e.store c →
      (c.perform d.store).1 = (c.perform e.store).1 ∧ c.Hands k (c.perform d.store).1 ∧
        R (c.unused drawn) { d with store := (c.perform d.store).2 }
          { e with store := (c.perform e.store).2 })
    (hdone : ∀ drawn d e, R drawn d e → R none d e)
    {drawn : Option EntryId} {p : Program α} {d : Desk σ} {e : Desk τ} (hp : p.Keeps k post drawn)
    (hc : ∀ x ∈ p.trace e, C x.1 x.2) (hR : R drawn d e) :
    (p.run d).1 = (p.run e).1 ∧ post (p.run d).1 ∧ R none (p.run d).2 (p.run e).2 := by
  induction p generalizing drawn d e with
  | done a => exact ⟨rfl, hp, hdone _ _ _ hR⟩
  | draw next ih =>
    obtain ⟨hid, hR'⟩ := hdraw _ _ _ hR
    have hc' : ∀ x ∈ (next d.ids.next).trace { e with ids := e.ids.advance }, C x.1 x.2 :=
      hid ▸ hc
    have h := ih d.ids.next (hp _) hc' hR'
    change ((next d.ids.next).run _).1 = ((next e.ids.next).run _).1 ∧ _ ∧
      R none _ ((next e.ids.next).run _).2
    rw [← hid]
    exact h
  | call c next ih =>
    obtain ⟨hhead, htail⟩ := List.forall_mem_cons.mp hc
    obtain ⟨hans, hhands, hR'⟩ := hcall _ _ _ c hR hp.1 hhead
    have h := ih _ (hp.2 _ hhands) (hans ▸ htail) hR'
    change ((next (c.perform d.store).1).run _).1 = ((next (c.perform e.store).1).run _).1 ∧ _ ∧
      R none _ ((next (c.perform e.store).1).run _).2
    rw [← hans]
    exact h

theorem Keeps.run_invariant [Store σ] {k : Contract} {post : α → Prop} {I : σ → Prop}
    (hcall : ∀ drawn (s : σ) (c : Call), I s → c.Obeys k drawn →
      c.Hands k (c.perform s).1 ∧ I (c.perform s).2)
    {drawn : Option EntryId} {p : Program α} {d : Desk σ} (hp : p.Keeps k post drawn)
    (hI : I d.store) : post (p.run d).1 ∧ I (p.run d).2.store := by
  induction p generalizing drawn d with
  | done a => exact ⟨hp, hI⟩
  | draw next ih => exact ih _ (hp _) hI
  | call c next ih =>
    obtain ⟨hhands, hI'⟩ := hcall drawn d.store c hI hp.1
    exact ih _ (hp.2 _ hhands) hI'

end Program

theorem Service.identified_of_ok {kind : IdentifierKind}
    {x : Except InvalidIdentifier (Identifier kind)} {id : Identifier kind} (h : x = .ok id) :
    identified x = pure id := by
  rw [h]
  rfl

theorem Service.run_forEachId_cons {σ : Type} [Store σ] (apply : String → Operation Entry)
    (id : String) (ids : List String) (d : Desk σ) : (forEachId apply (id :: ids)).run d =
      (⟨id, ((apply id).run.run d).1⟩ :: ((forEachId apply ids).run ((apply id).run.run d).2).1,
        ((forEachId apply ids).run ((apply id).run.run d).2).2) := by
  simp only [forEachId, Program.run_bind]
  rfl

end Timesheet
