import Mathlib.Logic.Function.Basic
import Timesheet.Proofs.Hand
import Timesheet.Service.Clients

/-!
Turns of clients as moves of a store and of the clients' hands. The moves forget the programs: each
is a draw, or a call that the hand allows, so what every move keeps holds of all clients at all times.
-/

namespace Timesheet

variable {ι σ : Type}

namespace Clients

variable {k : Rules}

/-- The hands are what the clients' programs go by. -/
def Held (k : Rules) (s : Clients ι σ) (w : ι → Hand) : Prop :=
  ∀ i, (s.client i).rest.Heeds k.discipline (fun _ _ => True) (w i)

theorem held_of_sessions {policy : ι → Policy} {requests : ι → List Request} {ids : ι → IdSource}
    (hsingle : ∀ i, k.single = true → (policy i).singleRunningTimer = true)
    (hclock : ∀ i, ∀ r ∈ requests i, ∀ now ∈ r.clock?, k.clock now.wholeSecond) (t : σ) :
    Held k (.of t policy requests ids) fun _ => {} :=
  fun i => session_heeds (fun r hr => r.permitted (hsingle i) (hclock i r hr)) {}

variable [DecidableEq ι]

theorem goOn_client (s : Clients ι σ) (i : ι) (t : σ) (c : Client) :
    (s.goOn i t c).client = Function.update s.client i c := by
  funext j
  rw [Function.update_apply]
  rfl

theorem goOn_client_self (s : Clients ι σ) (i : ι) (t : σ) (c : Client) :
    (s.goOn i t c).client i = c :=
  if_pos rfl

theorem Held.goOn {s : Clients ι σ} {w : ι → Hand} {i : ι} {h : Hand} {t : σ} {c : Client}
    (hs : s.Held k w) (hc : c.rest.Heeds k.discipline (fun _ _ => True) h) :
    (s.goOn i t c).Held k (Function.update w i h) := by
  intro j
  rw [goOn_client]
  by_cases hj : j = i
  · subst hj
    rw [Function.update_self, Function.update_self]
    exact hc
  · rw [Function.update_of_ne hj, Function.update_of_ne hj]
    exact hs j

end Clients

variable [DecidableEq ι] [Store σ]

/-- A step of the store and the hands, and the event that it is. -/
inductive Move (k : Rules) (s : σ) (w : ι → Hand) : Event → σ → (ι → Hand) → Prop
  | passed : Move k s w .passed s w
  | drew (i : ι) (id : EntryId) :
    Move k s w (.drew id) s (Function.update w i (k.discipline.drew (w i) id))
  | called (i : ι) (c : Call) (h : (w i).Allows k c) :
    Move k s w (.called c (c.perform s).1) (c.perform s).2
      (Function.update w i (k.discipline.heard (w i) c (c.perform s).1))

inductive Moves (k : Rules) : σ → (ι → Hand) → List Event → σ → (ι → Hand) → Prop
  | nil {s : σ} {w : ι → Hand} : Moves k s w [] s w
  | cons {s s' t : σ} {w w' v : ι → Hand} {e : Event} {es : List Event} (h : Move k s w e s' w')
    (hs : Moves k s' w' es t v) : Moves k s w (e :: es) t v

theorem Moves.keep {k : Rules} {P : σ → (ι → Hand) → List EntryId → Prop}
    (step : ∀ {s t : σ} {w v : ι → Hand} {e : Event} {future : List EntryId}, Move k s w e t v →
      P s w (e.drawn?.toList ++ future) → P t v future)
    {s t : σ} {w v : ι → Hand} {es : List Event} (h : Moves k s w es t v) (future : List EntryId)
    (hs : P s w (es.filterMap Event.drawn? ++ future)) : P t v future := by
  induction h with
  | nil => exact hs
  | @cons _ _ _ _ _ _ e es hmove _ ih =>
    refine ih (step hmove ?_)
    cases hdrawn : e.drawn? <;> simpa [List.filterMap_cons, hdrawn] using hs

namespace Clients

variable {s : Clients ι σ} {i : ι}

theorem turn_of_done {a : List Reply} (h : (s.client i).rest = .done a) :
    s.turn i = (.passed, s) := by
  rw [turn, h]

theorem turn_of_draw {next : EntryId → Program (List Reply)}
    (h : (s.client i).rest = .draw next) :
    s.turn i = (.drew (s.client i).ids.next,
      s.goOn i s.store ⟨next (s.client i).ids.next, (s.client i).ids.advance⟩) := by
  rw [turn, h]

theorem turn_of_call {c : Call} {next : Except StoreFault c.Answer → Program (List Reply)}
    (h : (s.client i).rest = .call c next) :
    s.turn i = (.called c (c.perform s.store).1,
      s.goOn i (c.perform s.store).2 ⟨next (c.perform s.store).1, (s.client i).ids⟩) := by
  rw [turn, h]

theorem after_append (s : Clients ι σ) (first later : List ι) :
    s.after (first ++ later) = (s.after first).after later := by
  induction first generalizing s with
  | nil => rfl
  | cons i first ih => exact ih _

theorem events_append (s : Clients ι σ) (first later : List ι) :
    s.events (first ++ later) = s.events first ++ (s.after first).events later := by
  induction first generalizing s with
  | nil => rfl
  | cons i first ih => exact congrArg (List.cons _) (ih _)

theorem exists_after_alone (s : Clients ι σ) (i : ι) :
    ∃ n, (s.after (List.replicate n i)).store =
        ((s.client i).rest.run ⟨s.store, (s.client i).ids⟩).2.store ∧
      (s.after (List.replicate n i)).client i =
        ⟨.done ((s.client i).rest.run ⟨s.store, (s.client i).ids⟩).1,
          ((s.client i).rest.run ⟨s.store, (s.client i).ids⟩).2.ids⟩ := by
  obtain ⟨p, ids, hp⟩ : ∃ p ids, s.client i = ⟨p, ids⟩ := ⟨_, _, rfl⟩
  rw [hp]
  induction p generalizing s ids with
  | done a => exact ⟨0, rfl, hp⟩
  | draw next ih =>
    obtain ⟨n, h⟩ := ih ids.next _ ids.advance (s.goOn_client_self i s.store _)
    refine ⟨n + 1, ?_⟩
    rw [List.replicate_succ, after, turn_of_draw (congrArg Client.rest hp), hp]
    exact h
  | call c next ih =>
    obtain ⟨n, h⟩ := ih (c.perform s.store).1 _ ids (s.goOn_client_self i (c.perform s.store).2 _)
    refine ⟨n + 1, ?_⟩
    rw [List.replicate_succ, after, turn_of_call (congrArg Client.rest hp), hp]
    exact h

theorem keep_after {k : Contract} {I : σ → Prop}
    (hcall : ∀ drawn (t : σ) (c : Call), I t → c.Obeys k drawn →
      c.Hands k (c.perform t).1 ∧ I (c.perform t).2)
    (hs : ∀ i, ∃ drawn, (s.client i).rest.Keeps k (fun _ => True) drawn) (hI : I s.store)
    (schedule : List ι) : I (s.after schedule).store := by
  induction schedule generalizing s with
  | nil => exact hI
  | cons i schedule ih =>
    have hgoOn {t : σ} {c : Client} (hc : ∃ drawn, c.rest.Keeps k (fun _ => True) drawn) (j : ι) :
        ∃ drawn, ((s.goOn i t c).client j).rest.Keeps k (fun _ => True) drawn := by
      rw [goOn_client, Function.update_apply]
      split
      · exact hc
      · exact hs j
    obtain ⟨drawn, hkeeps⟩ := hs i
    cases h : (s.client i).rest with
    | done a =>
      rw [after, turn_of_done h]
      exact ih hs hI
    | draw next =>
      rw [after, turn_of_draw h]
      rw [h] at hkeeps
      exact ih (hgoOn ⟨_, hkeeps _⟩) hI
    | call c next =>
      rw [after, turn_of_call h]
      rw [h] at hkeeps
      obtain ⟨hhands, hI'⟩ := hcall drawn s.store c hI hkeeps.1
      exact ih (hgoOn ⟨_, hkeeps.2 _ hhands⟩) hI'

variable {k : Rules} {w : ι → Hand}

theorem Held.turn (hs : s.Held k w) (i : ι) :
    ∃ w', Move k s.store w (s.turn i).1 (s.turn i).2.store w' ∧ (s.turn i).2.Held k w' := by
  have hi := hs i
  cases h : (s.client i).rest with
  | done a =>
    rw [turn_of_done h]
    exact ⟨w, .passed, hs⟩
  | draw next =>
    rw [h] at hi
    rw [turn_of_draw h]
    exact ⟨_, .drew i _, hs.goOn (hi _)⟩
  | call c next =>
    rw [h] at hi
    rw [turn_of_call h]
    exact ⟨_, .called i c hi.1, hs.goOn (hi.2 _ trivial)⟩

theorem Held.after (hs : s.Held k w) (schedule : List ι) :
    ∃ v, Moves k s.store w (s.events schedule) (s.after schedule).store v ∧
      (s.after schedule).Held k v := by
  induction schedule generalizing s w with
  | nil => exact ⟨w, .nil, hs⟩
  | cons i schedule ih =>
    obtain ⟨w', hmove, hs'⟩ := hs.turn i
    obtain ⟨v, hmoves, hv⟩ := ih hs'
    exact ⟨v, .cons hmove hmoves, hv⟩

end Clients
end Timesheet
