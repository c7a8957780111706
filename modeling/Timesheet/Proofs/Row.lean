import Timesheet.Database.Row
import Timesheet.Proofs.Entry

namespace Timesheet

theorem readStamp_eq_ok {record text : String} {i : Instant} :
    readStamp record text = .ok i ↔ Instant.ofStamp? text = some i := by
  unfold readStamp
  cases Instant.ofStamp? text <;> simp

theorem readStoredId_eq_ok {kind : IdentifierKind} {record text : String} {id : Identifier kind} :
    readStoredId kind record text = .ok id ↔ Identifier.parse kind text = .ok id :=
  mapError_eq_ok

theorem readTags_eq_ok {record text : String} {tags : TagSet} :
    readTags record text = .ok tags ↔
      ∃ s, Json.readStrings text = .ok s ∧ TagSet.ofList s = tags := by
  unfold readTags
  cases Json.readStrings text <;> simp

theorem RowKey.read_eq_ok {name s : String} {key : RowKey} :
    key.read name = .ok s ↔ key = .named s := by
  cases key <;> simp [RowKey.read]

namespace NumberCell

theorem readInteger_eq_ok {index : Nat} {name : String} {c : NumberCell} {n : Int} :
    c.readInteger index name = .ok n ↔ c = .integer n := by
  cases c <;> simp [readInteger]

theorem readBool_eq_ok {index : Nat} {name : String} {c : NumberCell} {b : Bool} :
    c.readBool index name = .ok b ↔ ∃ n, c = .integer n ∧ (n != 0) = b := by
  unfold readBool
  simp only [bind_eq_ok, readInteger_eq_ok, pure, Except.pure, Except.ok.injEq]

end NumberCell

theorem EntryTexts.readStop_eq_ok {t : EntryTexts} {stop : Option Instant} :
    t.readStop = .ok stop ↔ t.stop.map Instant.ofStamp? = stop.map some := by
  unfold readStop
  cases t.stop with
  | none => cases stop <;> simp
  | some text =>
    simp only [map_eq_pure_bind, bind_eq_ok, readStamp_eq_ok]
    cases stop with
    | none => simp [pure, Except.pure]
    | some i => simp [pure, Except.pure]

theorem EntryRow.texts_eq_ok {r : EntryRow} {t : EntryTexts} :
    r.texts = .ok t ↔ r.key = .named t.id ∧ (∃ n, r.billable = .integer n ∧ (n != 0) = t.billable) ∧
      r.duration = .integer t.duration ∧
      (∃ n, r.durationOnly = .integer n ∧ (n != 0) = t.durationOnly) ∧
      r.description = t.description ∧ r.user = t.user ∧ r.workspace = t.workspace ∧
      r.project = t.project ∧ r.task = t.task ∧ r.start = t.start ∧ r.stop = t.stop ∧
      r.createdWith = t.createdWith ∧ r.tags = t.tags ∧ r.created = t.created ∧
      r.updated = t.updated := by
  unfold texts
  simp only [bind_eq_ok, RowKey.read_eq_ok, NumberCell.readBool_eq_ok,
    NumberCell.readInteger_eq_ok, pure, Except.pure, Except.ok.injEq]
  constructor
  · rintro ⟨id, hid, b, hb, n, hn, b', hb', rfl⟩
    exact ⟨hid, hb, hn, hb', rfl, rfl, rfl, rfl, rfl, rfl, rfl, rfl, rfl, rfl, rfl⟩
  · rintro ⟨hid, hb, hn, hb', h⟩
    refine ⟨_, hid, _, hb, _, hn, _, hb', ?_⟩
    obtain ⟨h1, h2, h3, h4, h5, h6, h7, h8, h9, h10, h11⟩ := h
    cases t
    simp_all

/-- What the columns of a row must hold for it to be read as an entry. -/
structure EntryRow.Denotes (r : EntryRow) (e : Entry) : Prop where
  key : ∃ s, r.key = .named s ∧ Identifier.parse .entry s = .ok e.id
  description : r.description = e.description
  user : Identifier.parse .user r.user = .ok e.user
  workspace : Identifier.parse .workspace r.workspace = .ok e.workspace
  project : Identifier.parse .project r.project = .ok e.project
  task : Identifier.parse .task r.task = .ok e.task
  billable : ∃ n, r.billable = .integer n ∧ (n != 0) = e.billable
  start : Instant.ofStamp? r.start = some e.start
  stop : r.stop.map Instant.ofStamp? = e.stop.map some
  duration : r.duration = .integer e.duration
  createdWith : r.createdWith = e.createdWith
  tags : ∃ s, Json.readStrings r.tags = .ok s ∧ TagSet.ofList s = e.tags
  durationOnly : ∃ n, r.durationOnly = .integer n ∧ (n != 0) = e.durationOnly
  created : Instant.ofStamp? r.created = some e.created
  updated : Instant.ofStamp? r.updated = some e.updated

theorem EntryRow.entry_eq_ok {r : EntryRow} {e : Entry} : r.entry = .ok e ↔ r.Denotes e := by
  unfold entry EntryTexts.entry
  simp only [bind_eq_ok, mapError_eq_ok, texts_eq_ok, readTags_eq_ok, EntryTexts.readStop_eq_ok,
    readStoredId_eq_ok, readStamp_eq_ok, pure, Except.pure, Except.ok.injEq]
  constructor
  · rintro ⟨t, ⟨hkey, hb, hn, hb', h1, h2, h3, h4, h5, h6, h7, h8, h9, h10, h11⟩, tags, htags, stop,
      hstop, id, hid, user, huser, workspace, hworkspace, project, hproject, task, htask, start,
      hstart, created, hcreated, updated, hupdated, rfl⟩
    exact ⟨⟨_, hkey, hid⟩, h1, h2 ▸ huser, h3 ▸ hworkspace, h4 ▸ hproject, h5 ▸ htask, hb,
      h6 ▸ hstart, h7 ▸ hstop, hn, h8, h9 ▸ htags, hb', h10 ▸ hcreated, h11 ▸ hupdated⟩
  · rintro ⟨⟨s, hkey, hid⟩, h1, huser, hworkspace, hproject, htask, hb, hstart, hstop, hn, h8, htags,
      hb', hcreated, hupdated⟩
    refine ⟨⟨s, r.description, r.user, r.workspace, r.project, r.task, e.billable, r.start, r.stop,
      e.duration, r.createdWith, r.tags, e.durationOnly, r.created, r.updated⟩,
      ⟨hkey, hb, hn, hb', rfl, rfl, rfl, rfl, rfl, rfl, rfl, rfl, rfl, rfl, rfl⟩,
      _, htags, _, hstop, _, hid, _, huser, _, hworkspace, _, hproject, _, htask, _, hstart, _,
      hcreated, _, hupdated, ?_⟩
    cases e
    simp_all

theorem EntryRow.Denotes.of_created {r : EntryRow} {e : Entry} {s : String} {i : Instant}
    (h : r.Denotes e) (hs : Instant.ofStamp? s = some i) :
    ({ r with created := s } : EntryRow).Denotes { e with created := i } :=
  { h with created := hs }

structure TaskRow.Denotes (r : TaskRow) (t : Task) : Prop where
  key : ∃ s, r.key = .named s ∧ Identifier.parse .task s = .ok t.id
  project : Identifier.parse .project r.project = .ok t.project
  name : r.name = t.name
  trackedSeconds : r.trackedSeconds = .integer t.trackedSeconds
  created : Instant.ofStamp? r.created = some t.created
  updated : Instant.ofStamp? r.updated = some t.updated

theorem TaskRow.task_eq_ok {r : TaskRow} {t : Task} : r.task = .ok t ↔ r.Denotes t := by
  unfold task
  simp only [bind_eq_ok, mapError_eq_ok, RowKey.read_eq_ok, NumberCell.readInteger_eq_ok,
    readStoredId_eq_ok, readStamp_eq_ok, pure, Except.pure, Except.ok.injEq]
  constructor
  · rintro ⟨s, hs, n, hn, id, hid, project, hproject, created, hcreated, updated, hupdated, rfl⟩
    exact ⟨⟨s, hs, hid⟩, hproject, rfl, hn, hcreated, hupdated⟩
  · rintro ⟨⟨s, hs, hid⟩, hproject, hname, hn, hcreated, hupdated⟩
    refine ⟨s, hs, _, hn, _, hid, _, hproject, _, hcreated, _, hupdated, ?_⟩
    rw [hname]

structure ProjectRow.Denotes (r : ProjectRow) (p : Project) : Prop where
  key : ∃ s, r.key = .named s ∧ Identifier.parse .project s = .ok p.id
  workspace : Identifier.parse .workspace r.workspace = .ok p.workspace
  name : r.name = p.name
  autoEstimates : ∃ n, r.autoEstimates = .integer n ∧ (n != 0) = p.autoEstimates
  estimatedHours : r.estimatedHours.readFloat 4 "estimated_hours" = .ok p.estimatedHours
  created : Instant.ofStamp? r.created = some p.created
  updated : Instant.ofStamp? r.updated = some p.updated

theorem ProjectRow.project_eq_ok {r : ProjectRow} {p : Project} :
    r.project = .ok p ↔ r.Denotes p := by
  unfold project
  simp only [bind_eq_ok, mapError_eq_ok, RowKey.read_eq_ok, NumberCell.readBool_eq_ok,
    readStoredId_eq_ok, readStamp_eq_ok, pure, Except.pure, Except.ok.injEq]
  constructor
  · rintro ⟨s, hs, b, hb, x, hx, id, hid, workspace, hworkspace, created, hcreated, updated, hupdated,
      rfl⟩
    exact ⟨⟨s, hs, hid⟩, hworkspace, rfl, hb, hx, hcreated, hupdated⟩
  · rintro ⟨⟨s, hs, hid⟩, hworkspace, hname, hb, hx, hcreated, hupdated⟩
    refine ⟨s, hs, _, hb, _, hx, _, hid, _, hworkspace, _, hcreated, _, hupdated, ?_⟩
    rw [hname]

end Timesheet
