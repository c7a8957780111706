import Timesheet.Proofs.Discipline
import Timesheet.Proofs.SingleTimer

/-!
What a client has in hand between two calls: the entry it loaded last, or the owner it found to have
no running entry, and the identifier it drew. An entry that it inserts has that identifier, and an
entry that it saves follows from the one it loaded.
-/

namespace Timesheet

open Service

/-- What the answer to the last call allows. -/
inductive Finding where
  | nothing
  | copy (e : Entry)
  | idle (user : UserId)

structure Hand where
  finding : Finding := .nothing
  drawn : Option EntryId := none

namespace Finding

def ofLoad : Except StoreFault Entry → Finding
  | .ok e => copy e
  | .error _ => nothing

def ofList (user : UserId) (page : Page) : Except StoreFault (List Entry) → Finding
  | .ok [] => if page = Page.single then idle user else nothing
  | _ => nothing

variable {e : Entry} {user user' : UserId} {page : Page}

theorem ofLoad_eq_copy {r : Except StoreFault Entry} : ofLoad r = copy e ↔ r = .ok e := by
  cases r <;> simp [ofLoad]

theorem ofLoad_ne_idle (r : Except StoreFault Entry) : ofLoad r ≠ idle user := by
  cases r <;> simp [ofLoad]

theorem ofList_eq_idle {r : Except StoreFault (List Entry)} :
    ofList user page r = idle user' ↔ r = .ok [] ∧ page = Page.single ∧ user = user' := by
  rcases r with _ | _ | ⟨e, es⟩
  · simp [ofList]
  · by_cases h : page = Page.single <;> simp [ofList, h]
  · simp [ofList]

theorem ofList_ne_copy (r : Except StoreFault (List Entry)) : ofList user page r ≠ copy e := by
  rcases r with _ | _ | ⟨e', es⟩ <;> simp only [ofList, ne_eq, reduceCtorEq, not_false_eq_true]
  split <;> simp

end Finding

namespace Call

def finds : (c : Call) → Except StoreFault c.Answer → Finding
  | fetch _, r => .ofLoad r
  | running user page, r => .ofList user page r
  | _, _ => .nothing

variable {σ : Type} [Store σ] {s : σ} {c : Call}

theorem fetch_of_finds {e : Entry} (h : c.finds (c.perform s).1 = .copy e) :
    ∃ id, Store.fetch s id = .ok e := by
  cases c with
  | fetch id => exact ⟨id, Finding.ofLoad_eq_copy.mp h⟩
  | running user page => exact absurd h (Finding.ofList_ne_copy _)
  | _ => cases h

theorem running_of_finds {user : UserId} (h : c.finds (c.perform s).1 = .idle user) :
    Store.running s user Page.single = .ok [] ∧ (c.perform s).2 = s := by
  cases c with
  | fetch id => exact absurd h (Finding.ofLoad_ne_idle _)
  | running user' page =>
    obtain ⟨hnil, rfl, rfl⟩ := Finding.ofList_eq_idle.mp h
    exact ⟨hnil, rfl⟩
  | _ => cases h

end Call

structure Rules where
  clock : Instant → Prop
  single : Bool

namespace Hand

variable (k : Rules) (h : Hand)

structure Inserts (e : Entry) : Prop where
  drawn : h.drawn = some e.id
  timed : e.IsTimed
  idle : e.isRunning = true → k.single = true → h.finding = .idle e.user
  clock : e.isRunning = true → ∀ i ∈ e.instants, k.clock i

structure Replaces (e₀ e : Entry) : Prop where
  copy : h.finding = .copy e₀
  id : e.id = e₀.id
  follows : e.Follows e₀
  clock : k.clock e.updated

def Allows : Call → Prop
  | .insert e => h.Inserts k e
  | .replace e => ∃ e₀, h.Replaces k e₀ e
  | _ => True

end Hand

namespace Rules

def discipline (k : Rules) : Discipline Hand where
  drew h id := { h with drawn := some id }
  heard _ c r := ⟨c.finds r, none⟩
  Allows h c := h.Allows k c
  Trusts _ _ := True
  free {_ c} h := by cases c <;> first | exact h.elim | trivial

variable {k : Rules} {now : Instant}

theorem syncs : k.discipline.Syncs now where
  tracked _ _ _ := trivial
  estimate _ _ _ _ := trivial

theorem creates {input : NewEntry} : k.discipline.Creates input now := by
  intro h id user details start duration e _ _ he
  obtain ⟨hd, -, stop, -, -, rfl⟩ := Entry.finished_eq_ok.mp he
  have hnot := Entry.not_isRunning_of_nonneg
    (e := .assemble id user details start.wholeSecond (some stop) duration now) hd
  exact ⟨rfl, .inr rfl, fun hrun => absurd hrun hnot, fun hrun => absurd hrun hnot⟩

theorem starts {policy : Policy} (hsingle : k.single = true → policy.singleRunningTimer = true)
    (hclock : k.clock now.wholeSecond) : k.discipline.Starts policy now := by
  intro h id user details hidle
  refine ⟨rfl, .inl rfl, fun _ hk => ?_, fun _ i hi => ?_⟩
  · obtain ⟨w, rfl⟩ := hidle (hsingle hk)
    exact Finding.ofList_eq_idle.mpr ⟨rfl, rfl, rfl⟩
  · rcases Entry.mem_instants.mp hi with rfl | rfl | rfl | hi
    · exact hclock
    · exact hclock
    · exact hclock
    · cases hi

theorem saves_of_edit? {r : Request} {text : String} {f : Entry → Except Refusal Entry}
    (hr : r.edit? = some (text, f)) (hnow : r.clock? = some now)
    (hclock : k.clock now.wholeSecond) : k.discipline.Saves f := by
  intro h id e e' _ he
  have hwritten := Request.writtenAt_of_edit? hr (fun i hi => Option.some.inj (hi.symm.trans hnow)) he
  exact ⟨e, rfl, Request.id_of_edit? hr he, Request.follows_of_edit? hr he,
    hwritten.updated ▸ hclock⟩

end Rules

theorem Request.permitted {k : Rules} {policy : Policy}
    (hsingle : k.single = true → policy.singleRunningTimer = true) {r : Request}
    (hclock : ∀ now ∈ r.clock?, k.clock now.wholeSecond) : r.Permitted k.discipline policy := by
  cases r with
  | create input owner now => exact ⟨Rules.syncs, Rules.creates⟩
  | start fields owner now => exact Rules.starts hsingle (hclock now rfl)
  | stop id now => exact ⟨Rules.syncs, Rules.saves_of_edit? (r := .stop id now) rfl rfl (hclock now rfl)⟩
  | update id patch now =>
    exact ⟨Rules.syncs, Rules.saves_of_edit? (r := .update id patch now) rfl rfl (hclock now rfl)⟩
  | updateBatch ids patch now =>
    exact ⟨Rules.syncs, Rules.saves_of_edit? (r := .update ids patch now) rfl rfl (hclock now rfl)⟩
  | updateTags id tags mode now =>
    exact Rules.saves_of_edit? (r := .updateTags id tags mode now) rfl rfl (hclock now rfl)
  | updateTagsBatch ids tags mode now =>
    exact Rules.saves_of_edit? (r := .updateTags ids tags mode now) rfl rfl (hclock now rfl)
  | delete id now => exact Rules.syncs
  | syncTaskTime id now => exact Rules.syncs
  | syncProjectTime id now => exact Rules.syncs
  | range owner page first last => exact fun _ _ => trivial
  | dashboard owner now => exact fun _ _ => trivial
  | get id => trivial
  | running owner page => trivial

end Timesheet
