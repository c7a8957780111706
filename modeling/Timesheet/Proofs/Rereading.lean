import Timesheet.Proofs.Mirror
import Timesheet.Proofs.Resending

/-!
What a database gives back of a record that is written into it. Main statement: an entry that is
inserted or replaced, and a task that is inserted, is read back as it was exactly if all its instants are
plain, and every other record is read as before.
-/

namespace Timesheet

theorem Shelf.mem_put_iff_of_ne {κ α : Type} [KeyOrder κ] [DecidableEq κ] {key : α → κ} {s : Shelf key}
    {a b : α} (h : key b ≠ key a) : b ∈ (s.put a).items ↔ b ∈ s.items := by
  refine ⟨fun hb => ?_, mem_put_of_ne h⟩
  rcases mem_place hb with rfl | hb
  · exact absurd rfl h
  · exact hb

theorem EntryRow.ofEntry_denotes_self {e : Entry} : (ofEntry e).Denotes e ↔ e.HasPlainInstants := by
  constructor
  · intro h
    obtain ⟨hstorable, hwhole⟩ := ofEntry_denotes.mp h
    intro i hi
    refine ⟨?_, hstorable i hi⟩
    rw [← hwhole, Entry.mem_instants] at hi
    rcases hi with rfl | rfl | rfl | hstop
    · exact Instant.wholeSecond_isWhole _
    · exact Instant.wholeSecond_isWhole _
    · exact Instant.wholeSecond_isWhole _
    · obtain ⟨stop, -, rfl⟩ := Option.map_eq_some_iff.mp hstop
      exact Instant.wholeSecond_isWhole stop
  · exact fun h => EntryRow.entry_eq_ok.mp h.entry_ofEntry

theorem TaskRow.ofTask_denotes_self {k : Task} : (ofTask k).Denotes k ↔ k.IsPlain := by
  constructor
  · exact fun h => ⟨Instant.ofStamp?_stamp_iff.mp h.created, Instant.ofStamp?_stamp_iff.mp h.updated⟩
  · exact fun h => task_eq_ok.mp h.task_ofTask

instance (e : Entry) : Decidable e.HasPlainInstants :=
  inferInstanceAs (Decidable (∀ i ∈ e.instants, i.IsPlain))

namespace Database

variable {d t : Database} {e : Entry} {k : Task}

/-- `t` is `d` with the row of an entry in it, in the place of the one that had its identifier. -/
structure EntryWritten (d : Database) (e : Entry) (t : Database) : Prop where
  reread : t.fetch e.id = .ok e ↔ e.HasPlainInstants
  others : ∀ id, id ≠ e.id → t.fetch id = d.fetch id
  rows : ∀ r : EntryRow, r.key ≠ .named e.id.text → (r ∈ t.entries.items ↔ r ∈ d.entries.items)
  tasks : t.tasks = d.tasks
  projects : t.projects = d.projects

theorem entryWritten_put (d : Database) (e : Entry) :
    d.EntryWritten e { d with entries := d.entries.put (.ofEntry e) } where
  reread := by
    rw [← EntryRow.ofEntry_denotes_self, fetch_eq_ok]
    constructor
    · rintro ⟨r, hr, h⟩
      obtain rfl := Option.some.inj ((Shelf.find?_put_self d.entries (.ofEntry e)).symm.trans hr)
      exact h
    · exact fun h => ⟨_, Shelf.find?_put_self _ _, h⟩
  others id hid := by
    have hkey : (EntryRow.ofEntry e).key ≠ .named id.text := fun h =>
      hid (Identifier.text_inj.mp (RowKey.named.inj h)).symm
    unfold fetch
    rw [Shelf.find?_put_of_ne _ hkey]
  rows _ hr := Shelf.mem_put_iff_of_ne hr
  tasks := rfl
  projects := rfl

structure TaskWritten (d : Database) (k : Task) (t : Database) : Prop where
  reread : t.task k.id = .ok k ↔ k.IsPlain
  others : ∀ id, id ≠ k.id → t.task id = d.task id
  rows : ∀ r : TaskRow, r.key ≠ .named k.id.text → (r ∈ t.tasks.items ↔ r ∈ d.tasks.items)
  entries : t.entries = d.entries
  projects : t.projects = d.projects

theorem taskWritten_put (d : Database) (k : Task) :
    d.TaskWritten k { d with tasks := d.tasks.put (.ofTask k) } where
  reread := by
    have hself : (d.tasks.put (TaskRow.ofTask k)).find? (.named k.id.text) = some (.ofTask k) :=
      Shelf.find?_put_self d.tasks (.ofTask k)
    rw [← TaskRow.ofTask_denotes_self, ← TaskRow.task_eq_ok]
    unfold task
    rw [hself]
  others id hid := by
    have hkey : (TaskRow.ofTask k).key ≠ .named id.text := fun h =>
      hid (Identifier.text_inj.mp (RowKey.named.inj h)).symm
    unfold task
    rw [Shelf.find?_put_of_ne _ hkey]
  rows _ hr := Shelf.mem_put_iff_of_ne hr
  entries := rfl
  projects := rfl

theorem insertTask_eq_ok : d.insertTask k = .ok t ↔
    d.tasks.find? (.named k.id.text) = none ∧
      t = { d with tasks := d.tasks.put (.ofTask k) } := by
  unfold insertTask Shelf.contains
  cases d.tasks.find? (.named k.id.text) <;> simp [eq_comm]

end Database

theorem records_reread (d : Database) (e : Entry) (k : Task) :
    (d.entries.find? (.named e.id.text) = none →
      ∃ t, d.insert e = .ok t ∧ d.EntryWritten e t) ∧
    (d.entries.find? (.named e.id.text) ≠ none →
      ∃ t, d.replace e = .ok t ∧ d.EntryWritten e t) ∧
    (d.tasks.find? (.named k.id.text) = none →
      ∃ t, d.insertTask k = .ok t ∧ d.TaskWritten k t) := by
  refine ⟨fun h => ?_, fun h => ?_, fun h => ?_⟩
  · exact ⟨_, Database.insert_eq_ok.mpr ⟨h, rfl⟩, Database.entryWritten_put d e⟩
  · obtain ⟨r, hr⟩ := Option.ne_none_iff_exists'.mp h
    exact ⟨_, Database.replace_eq_ok.mpr ⟨⟨r, hr⟩, rfl⟩, Database.entryWritten_put d e⟩
  · exact ⟨_, Database.insertTask_eq_ok.mpr ⟨h, rfl⟩, Database.taskWritten_put d k⟩

def quotedEntry : Entry :=
  { leapSecondEntry with
    description := "say \"yes\"\n\\"
    start := .epoch
    stop := some leapSecond
    tags := .ofList ["a\tb", "\"", "\\", "\u0001", "é"]
    task := ⟨.ofNat 0xa⟩ }

def leapTask : Task :=
  .new ⟨.ofNat 0xa⟩ ⟨.ofNat 0xb⟩ "it is; --" leapSecond

theorem records_reread_quoted : ∃ t u v : Database,
    ({} : Database).insert quotedEntry = .ok t ∧ t.fetch quotedEntry.id = .ok quotedEntry ∧
    t.replace leapSecondEntry = .ok u ∧ u.fetch quotedEntry.id = .ok leapSecondEntry ∧
    u.insertTask leapTask = .ok v ∧ v.task leapTask.id = .ok leapTask ∧
    v.entries = u.entries := by
  obtain ⟨t, ht, hwritten⟩ := (records_reread {} quotedEntry leapTask).1 rfl
  have hfetch : t.fetch quotedEntry.id = .ok quotedEntry := hwritten.reread.mpr (by decide)
  have hfound : t.entries.find? (.named leapSecondEntry.id.text) ≠ none := by
    obtain ⟨r, hr, -⟩ := Database.fetch_eq_ok.mp hfetch
    exact Option.ne_none_iff_exists'.mpr ⟨r, hr⟩
  obtain ⟨u, hu, hreplaced⟩ := (records_reread t leapSecondEntry leapTask).2.1 hfound
  have hlacking : u.tasks.find? (.named leapTask.id.text) = none := by
    rw [hreplaced.tasks, hwritten.tasks]
    rfl
  obtain ⟨v, hv, hadded⟩ := (records_reread u leapSecondEntry leapTask).2.2 hlacking
  have htask : leapTask.IsPlain := ⟨by decide, by decide⟩
  exact ⟨t, u, v, ht, hfetch, hu, hreplaced.reread.mpr (by decide), hv, hadded.reread.mpr htask,
    hadded.entries⟩

end Timesheet
