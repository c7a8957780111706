import Timesheet.Proofs.Effect
import Timesheet.Proofs.Listing
import Timesheet.Proofs.Range
import Timesheet.Proofs.Readable

/-!
The bounds of ranges and dashboards, in a memory and in a database of the same entries. Main
statement: the database lists what the memory lists from the beginning of the second that the lower
bound lies in, but nothing that stopped before a dashboard of a year after the storable ones.
-/

namespace Timesheet

open Service

theorem dashboard_reply {σ : Type} [Store σ] (policy : Policy) {owner : String} {user : UserId}
    (howner : Identifier.parse .user owner = .ok user)
    {now : Instant} {d : Desk σ} {mostActive recent : List Entry}
    (hactive : Store.stoppedBetween d.store user (dashboardStart now) now 5 = .ok mostActive)
    (hrecent : Store.recent d.store user 20 = .ok recent) :
    (((Request.dashboard owner now).program policy).run d).1 =
      .dashboard (.ok ⟨mostActive, recent⟩) := by
  have hfirst := Operation.ran_asking d .listMostActive
    (.stoppedBetween user (dashboardStart now) now 5)
  have hsecond := Operation.ran_asking d .listRecent (.recent user 20)
  simp only [Call.perform, hactive, hrecent, Except.mapError] at hfirst hsecond
  rw [Request.program, Program.run_map, Service.dashboard, identified_of_ok howner, pure_bind]
  have hran : Ran d (asking .listMostActive (.stoppedBetween user (dashboardStart now) now 5) >>=
      fun mostActive => asking .listRecent (.recent user 20) >>=
        fun recent => pure (⟨mostActive, recent⟩ : Dashboard)).run (.ok ⟨mostActive, recent⟩) d _ :=
    Operation.ran_bind_ok hfirst (Operation.ran_bind_ok hsecond (Operation.ran_ok d _))
  exact congrArg (fun x => Reply.dashboard x.1) hran.run

def Memory.shortest (m : Memory) (user : UserId) (first last : Instant) (limit : Nat) :
    List Entry :=
  (((m.ofUser user).filter (stoppedIn first last)).mergeSort noLonger).take limit

/-- A database lists what a memory of the same entries lists, as if every lower bound were cut to
the second. A range is moved into the storable years before that, but a dashboard is not: once they are
over, nothing has stopped up to now. -/
theorem bounds_select (policy : Policy) {owner : String} {user : UserId} {d : Database} {m : Memory}
    (ids : IdSource) (howner : Identifier.parse .user owner = .ok user) (h : d.Copies m)
    (hlength : m.entries.items.length ≤ Word.largestCount) :
    (∀ page first last,
      (((Request.range owner page first last).program policy).run ⟨d, ids⟩).1 =
        (((Request.range owner page (if first ≤ last then first.wholeSecond else first) last).program
          policy).run ⟨m, ids⟩).1) ∧
    ∀ now first, now.addSeconds? (-dashboardSeconds) = some first → ∃ recent,
      (((Request.dashboard owner now).program policy).run ⟨m, ids⟩).1 =
        .dashboard (.ok ⟨m.shortest user first now 5, recent⟩) ∧
      (((Request.dashboard owner now).program policy).run ⟨d, ids⟩).1 =
        .dashboard (.ok ⟨if Instant.lastStorable < now.second then []
          else m.shortest user first.wholeSecond now 5, recent⟩) := by
  constructor
  · intro page first last
    rw [run_range policy howner, run_range policy howner]
    by_cases hle : first ≤ last
    · have hlt : ¬last < first := Instant.not_lt.mpr hle
      have hcut : ¬last < first.wholeSecond := fun hlast => by
        have hwhole := first.wholeSecond_le
        rw [Instant.le_def] at hle hwhole
        rw [Instant.lt_def] at hlast
        omega
      have hlists := h.createdBetween hlength user page first.clampStorable_second_le
        last.clampStorable_second_le
      rw [← Instant.clampStorable_wholeSecond] at hlists
      rw [if_pos hle, if_neg hlt, if_neg hcut]
      exact congrArg (fun x => Reply.entries (x.mapError (.store .listRange))) hlists
    · have hlt : last < first := by
        by_contra hnot
        exact hle (Instant.not_lt.mp hnot)
      rw [if_neg hle, if_pos hlt, if_pos hlt]
  · intro now first hfirst
    have hstart : dashboardStart now = first := by
      rw [dashboardStart, hfirst]
      rfl
    refine ⟨((m.ofUser user).mergeSort Memory.noEarlier).take 20, ?_, ?_⟩
    · apply dashboard_reply policy howner
      · rw [hstart]
        rfl
      · rfl
    · apply dashboard_reply policy howner
      · rw [hstart]
        split_ifs with hlate
        · exact h.stoppedBetween_of_late user 5 hlate
        · have hnow : now.second ≤ Instant.lastStorable := Int.not_lt.mp hlate
          have hearlier := Instant.second_le_of_addSeconds? (by decide) hfirst
          exact h.stoppedBetween hlength user 5 (hearlier.trans hnow) hnow
      · exact h.recent hlength user 20

def weekBeforeUnstorable : Instant :=
  .ofSecond 253401696000 (by decide)

def lastingTimer : Entry :=
  { timerFrom .epoch with stop := some .lastPlain, duration := Instant.lastStorable }

theorem bounds_select_halfSecond :
    let m : Memory := { entries := Shelf.empty.put lastingTimer }
    let d : Database := { entries := Shelf.empty.put (.ofEntry lastingTimer) }
    let range := Request.range "00000000-0000-0000-0000-000000000002" .first halfSecond halfSecond
    let dashboard := Request.dashboard "00000000-0000-0000-0000-000000000002" firstUnstorable
    ((range.program {}).run ⟨d, .after 1⟩).1 = .entries (.ok [lastingTimer]) ∧
      ((range.program {}).run ⟨m, .after 1⟩).1 = .entries (.ok []) ∧ ∃ recent,
      ((dashboard.program {}).run ⟨d, .after 1⟩).1 = .dashboard (.ok ⟨[], recent⟩) ∧
      ((dashboard.program {}).run ⟨m, .after 1⟩).1 = .dashboard (.ok ⟨[lastingTimer], recent⟩) := by
  intro m d range dashboard
  have howner : Identifier.parse .user "00000000-0000-0000-0000-000000000002" =
      .ok ⟨.ofNat 2⟩ := by decide +kernel
  have hcopies : d.Copies m :=
    ⟨rfl, Shelf.holds_empty.put (by unfold Entry.HasPlainInstants; decide)⟩
  obtain ⟨hrange, hdashboard⟩ := bounds_select {} (.after 1) howner hcopies (by decide)
  obtain ⟨recent, hmemory, hdatabase⟩ := hdashboard firstUnstorable weekBeforeUnstorable rfl
  have hstopped : (m.ofUser ⟨.ofNat 2⟩).filter
      (Memory.stoppedIn weekBeforeUnstorable firstUnstorable) = [lastingTimer] := rfl
  have hshortest : m.shortest ⟨.ofNat 2⟩ weekBeforeUnstorable firstUnstorable 5 =
      [lastingTimer] := by
    unfold Memory.shortest
    rw [hstopped, List.mergeSort_singleton]
    rfl
  rw [hshortest] at hmemory
  rw [if_pos (by decide)] at hdatabase
  exact ⟨(hrange _ _ _).trans rfl, rfl, recent, hdatabase, hmemory⟩

end Timesheet
