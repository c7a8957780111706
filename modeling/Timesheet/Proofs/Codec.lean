import Timesheet.Proofs.Hours
import Timesheet.Proofs.Identifier
import Timesheet.Proofs.Row
import Timesheet.Proofs.Stamp
import Timesheet.Proofs.Tags

namespace Timesheet

namespace Entry

def instants (e : Entry) : List Instant :=
  e.start :: e.created :: e.updated :: e.stop.toList

def wholeSeconds (e : Entry) : Entry :=
  { e with
    start := e.start.wholeSecond
    stop := e.stop.map Instant.wholeSecond
    created := e.created.wholeSecond
    updated := e.updated.wholeSecond }

variable {e : Entry}

theorem mem_instants {i : Instant} :
    i ∈ e.instants ↔ i = e.start ∨ i = e.created ∨ i = e.updated ∨ e.stop = some i := by
  simp [instants]

theorem mem_instants_wholeSeconds (h : ∀ i ∈ e.instants, i.IsStorable) :
    ∀ i ∈ e.wholeSeconds.instants, i.IsStorable := by
  intro i hi
  have hmem : ∃ j ∈ e.instants, j.wholeSecond = i := by
    rcases mem_instants.mp hi with rfl | rfl | rfl | hstop
    · exact ⟨e.start, mem_instants.mpr (.inl rfl), rfl⟩
    · exact ⟨e.created, mem_instants.mpr (.inr (.inl rfl)), rfl⟩
    · exact ⟨e.updated, mem_instants.mpr (.inr (.inr (.inl rfl))), rfl⟩
    · obtain ⟨j, hj, rfl⟩ := Option.map_eq_some_iff.mp hstop
      exact ⟨j, mem_instants.mpr (.inr (.inr (.inr hj))), rfl⟩
  obtain ⟨j, hj, rfl⟩ := hmem
  exact Instant.wholeSecond_isStorable.mpr (h j hj)

end Entry

theorem NumberCell.ofBool_denotes (b : Bool) : ∃ n, ofBool b = integer n ∧ (n != 0) = b := by
  cases b <;> exact ⟨_, rfl, rfl⟩

theorem EntryRow.Denotes.unique {r : EntryRow} {e e' : Entry} (h : r.Denotes e)
    (h' : r.Denotes e') : e = e' :=
  Except.ok.inj ((entry_eq_ok.mpr h).symm.trans (entry_eq_ok.mpr h'))

theorem EntryRow.Denotes.id_eq {r : EntryRow} {e : Entry} (h : r.Denotes e) {id : EntryId}
    (hkey : r.key = .named id.text) : e.id = id := by
  obtain ⟨s, hs, hparse⟩ := h.key
  obtain rfl := RowKey.named.inj (hkey.symm.trans hs)
  rw [Identifier.parse_text] at hparse
  exact (Except.ok.inj hparse).symm

theorem EntryRow.ofEntry_denotes {e e' : Entry} : (ofEntry e).Denotes e' ↔
    (∀ i ∈ e.instants, i.IsStorable) ∧ e.wholeSeconds = e' := by
  have hstamp {i : Instant} (h : i.IsStorable) : Instant.ofStamp? i.stamp = some i.wholeSecond :=
    Instant.ofStamp?_stamp_eq_some.mpr ⟨h, rfl⟩
  have hback {i j : Instant} (h : Instant.ofStamp? i.stamp = some j) : i.IsStorable :=
    (Instant.ofStamp?_stamp_eq_some.mp h).1
  have hforth (h : ∀ i ∈ e.instants, i.IsStorable) : (ofEntry e).Denotes e.wholeSeconds := by
    simp only [Entry.instants, List.mem_cons, forall_eq_or_imp, Option.mem_toList] at h
    obtain ⟨hstart, hcreated, hupdated, hstop⟩ := h
    refine ⟨⟨_, rfl, Identifier.parse_text _⟩, rfl, Identifier.parse_text _, Identifier.parse_text _,
      Identifier.parse_text _, Identifier.parse_text _, NumberCell.ofBool_denotes _, hstamp hstart, ?_,
      rfl, rfl, readTags_eq_ok.mp (readTags_tagsText "" _), NumberCell.ofBool_denotes _,
      hstamp hcreated, hstamp hupdated⟩
    change (e.stop.map Instant.stamp).map Instant.ofStamp? = (e.stop.map Instant.wholeSecond).map some
    cases hs : e.stop with
    | none => rfl
    | some i => exact congrArg some (hstamp (hstop i hs))
  constructor
  · intro h
    have hstorable : ∀ i ∈ e.instants, i.IsStorable := by
      simp only [Entry.instants, List.mem_cons, forall_eq_or_imp, Option.mem_toList]
      refine ⟨hback h.start, hback h.created, hback h.updated, ?_⟩
      intro i hi
      have hstop : (e.stop.map Instant.stamp).map Instant.ofStamp? = e'.stop.map some := h.stop
      rw [hi] at hstop
      obtain ⟨j, -, hj⟩ := Option.map_eq_some_iff.mp hstop.symm
      exact hback hj.symm
    exact ⟨hstorable, (hforth hstorable).unique h⟩
  · rintro ⟨h, rfl⟩
    exact hforth h

theorem TaskRow.Denotes.unique {r : TaskRow} {t t' : Task} (h : r.Denotes t) (h' : r.Denotes t') :
    t = t' :=
  Except.ok.inj ((task_eq_ok.mpr h).symm.trans (task_eq_ok.mpr h'))

theorem ProjectRow.Denotes.unique {r : ProjectRow} {p p' : Project} (h : r.Denotes p)
    (h' : r.Denotes p') : p = p' :=
  Except.ok.inj ((project_eq_ok.mpr h).symm.trans (project_eq_ok.mpr h'))

theorem TaskRow.written_denotes {r : TaskRow} {t t' : Task} (h : r.Denotes t) {seconds : Int}
    {now : Instant} :
    { r with trackedSeconds := .integer seconds, updated := now.stamp : TaskRow }.Denotes t' ↔
      now.IsStorable ∧
        { t with trackedSeconds := seconds, updated := now.wholeSecond } = t' := by
  have hforth (hnow : now.IsStorable) :
      { r with trackedSeconds := .integer seconds, updated := now.stamp : TaskRow }.Denotes
        { t with trackedSeconds := seconds, updated := now.wholeSecond } :=
    ⟨h.key, h.project, h.name, rfl, h.created, Instant.ofStamp?_stamp_eq_some.mpr ⟨hnow, rfl⟩⟩
  constructor
  · intro h'
    have hnow := (Instant.ofStamp?_stamp_eq_some.mp h'.updated).1
    exact ⟨hnow, (hforth hnow).unique h'⟩
  · rintro ⟨hnow, rfl⟩
    exact hforth hnow

theorem ProjectRow.written_denotes {r : ProjectRow} {p p' : Project} (h : r.Denotes p)
    {hours : Binary64} {now : Instant} :
    { r with estimatedHours := .ofFloat hours, updated := now.stamp : ProjectRow }.Denotes p' ↔
      now.IsStorable ∧
        { p with estimatedHours := hours.unsigned, updated := now.wholeSecond } = p' := by
  have hforth (hnow : now.IsStorable) :
      { r with estimatedHours := .ofFloat hours, updated := now.stamp : ProjectRow }.Denotes
        { p with estimatedHours := hours.unsigned, updated := now.wholeSecond } :=
    ⟨h.key, h.workspace, h.name, h.autoEstimates, rfl, h.created,
      Instant.ofStamp?_stamp_eq_some.mpr ⟨hnow, rfl⟩⟩
  constructor
  · intro h'
    have hnow := (Instant.ofStamp?_stamp_eq_some.mp h'.updated).1
    exact ⟨hnow, (hforth hnow).unique h'⟩
  · rintro ⟨hnow, rfl⟩
    exact hforth hnow

end Timesheet
