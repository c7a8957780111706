import Timesheet.Proofs.Holding
import Timesheet.Proofs.Identifier

namespace Timesheet

theorem sum_filter {α : Type} (p : α → Bool) (w : α → Int) (s : List α) :
    ((s.filter p).map w).sum = (s.map fun a => if p a then w a else 0).sum := by
  induction s with
  | nil => rfl
  | cons a s ih => cases h : p a <;> simp [h, ih]

theorem Word.wrap_of_fits {n : Int} (h : Word.fits n = true) : Word.wrap n = n := by
  unfold Word.fits Word.smallest Word.largest at h
  simp only [Bool.and_eq_true, decide_eq_true_eq] at h
  unfold Word.wrap Word.count
  exact Int.bmod_eq_of_le (by omega) (by omega)

namespace Memory

def countedSeconds (duration : Int) : Int :=
  if duration == Entry.runningDuration then 0 else duration

def seconds (m : Memory) (counts : Entry → Bool) : Int :=
  (m.entries.items.map fun e => if counts e then countedSeconds e.duration else 0).sum

def taskSeconds (m : Memory) (id : TaskId) : Int :=
  m.seconds fun e => e.task = id

def projectSeconds (m : Memory) (id : ProjectId) : Int :=
  m.seconds fun e => e.project = id

theorem finishedSum_filter (m : Memory) (counts : Entry → Bool) :
    finishedSum (m.entries.items.filter counts) = Word.wrap (m.seconds counts) := by
  have hseconds : m.seconds counts =
      (((m.entries.items.filter counts).filter fun e => !e.isRunning).map Entry.duration).sum := by
    rw [sum_filter]
    unfold seconds
    rw [← sum_filter]
    congr 1
    apply List.map_congr_left
    intro e _
    cases h : e.isRunning <;> unfold Entry.isRunning at h <;> simp [countedSeconds, h]
  rw [hseconds, finishedSum, List.sum_eq_foldl]

end Memory

/-- The columns that totals are taken from, as the store writes them. -/
structure EntryRow.IsCanonical (r : EntryRow) : Prop where
  task : ∃ id : TaskId, r.task = id.text
  project : ∃ id : ProjectId, r.project = id.text
  duration : ∃ n, r.duration = .integer n

theorem EntryRow.ofEntry_isCanonical (e : Entry) : (ofEntry e).IsCanonical :=
  ⟨⟨e.task, rfl⟩, ⟨e.project, rfl⟩, ⟨e.duration, rfl⟩⟩

theorem EntryRow.Denotes.task_text {r : EntryRow} {e : Entry} (h : r.Denotes e)
    (hr : r.IsCanonical) : r.task = e.task.text := by
  obtain ⟨id, hid⟩ := hr.task
  have htask := h.task
  rw [hid, Identifier.parse_text] at htask
  rw [hid, Except.ok.inj htask]

theorem EntryRow.Denotes.project_text {r : EntryRow} {e : Entry} (h : r.Denotes e)
    (hr : r.IsCanonical) : r.project = e.project.text := by
  obtain ⟨id, hid⟩ := hr.project
  have hproject := h.project
  rw [hid, Identifier.parse_text] at hproject
  rw [hid, Except.ok.inj hproject]

namespace Database

def countedSeconds (duration : Int) : Int :=
  if 0 ≤ duration then duration else 0

def share (counts : EntryRow → Bool) (r : EntryRow) : Int :=
  if counts r then (integer? r.duration).elim 0 countedSeconds else 0

def seconds (d : Database) (counts : EntryRow → Bool) : Int :=
  (d.entries.items.map (share counts)).sum

def taskSeconds (d : Database) (id : TaskId) : Int :=
  d.seconds fun r => r.task = id.text

def projectSeconds (d : Database) (id : ProjectId) : Int :=
  d.seconds fun r => r.project = id.text

theorem sumWords_eq_ok {s : List Int} {n total : Int} (h : sumWords total s = .ok n) :
    n = total + s.sum := by
  induction s generalizing total with
  | nil =>
    obtain ⟨⟩ := h
    simp
  | cons a s ih =>
    unfold sumWords at h
    split at h
    · rw [ih h, List.sum_cons]
      omega
    · cases h

theorem mapM_integer? (s : List Int) : (s.map NumberCell.integer).mapM integer? = some s := by
  induction s with
  | nil => rfl
  | cons n s ih => simp [ih, integer?]

theorem sumCells_eq_ok {s : List Int} {n : Int} (h : sumCells (s.map .integer) = .ok n) :
    n = s.sum := by
  unfold sumCells at h
  rw [mapM_integer?] at h
  have hn := sumWords_eq_ok (mapError_eq_ok.mp h)
  omega

theorem sumWords_of_fits {s : List Int} {total : Int} (hs : ∀ n ∈ s, 0 ≤ n) (htotal : 0 ≤ total)
    (hfits : Word.fits (total + s.sum) = true) : sumWords total s = .ok (total + s.sum) := by
  induction s generalizing total with
  | nil => simp [sumWords]
  | cons n s ih =>
    have hn := hs n List.mem_cons_self
    have hrest : ∀ n ∈ s, 0 ≤ n := fun n hn => hs n (List.mem_cons_of_mem _ hn)
    have hsum : 0 ≤ s.sum := List.sum_nonneg hrest
    rw [List.sum_cons, ← Int.add_assoc] at hfits ⊢
    have hhead : Word.fits (total + n) = true := by
      unfold Word.fits Word.smallest at *
      simp only [Bool.and_eq_true, decide_eq_true_eq] at *
      omega
    rw [sumWords, if_pos hhead]
    exact ih hrest (by omega) hfits

theorem sumCells_of_fits {s : List Int} (hs : ∀ n ∈ s, 0 ≤ n) (hfits : Word.fits s.sum = true) :
    sumCells (s.map .integer) = .ok s.sum := by
  unfold sumCells
  rw [mapM_integer?]
  rw [← Int.zero_add s.sum] at hfits ⊢
  exact mapError_eq_ok.mpr (sumWords_of_fits hs (Int.le_refl 0) hfits)

theorem exists_finished {rows : List EntryRow}
    (h : ∀ r ∈ rows, isFinishedCell r.duration = true → ∃ n, r.duration = .integer n) :
    ∃ s : List Int, (rows.map EntryRow.duration).filter isFinishedCell = s.map .integer ∧
      (∀ n ∈ s, 0 ≤ n) ∧
      s.sum = (rows.map fun r => (integer? r.duration).elim 0 countedSeconds).sum := by
  induction rows with
  | nil => exact ⟨[], rfl, by simp, rfl⟩
  | cons r rows ih =>
    obtain ⟨s, hs, hpos, hsum⟩ := ih fun r hr => h r (List.mem_cons_of_mem _ hr)
    rw [List.map_cons]
    cases hr : isFinishedCell r.duration with
    | true =>
      obtain ⟨n, hn⟩ := h r List.mem_cons_self hr
      have hle : 0 ≤ n := (isFinishedCell_integer n).mp (hn ▸ hr)
      refine ⟨n :: s, ?_, List.forall_mem_cons.mpr ⟨hle, hpos⟩, ?_⟩
      · rw [List.filter_cons_of_pos hr, hs, hn, List.map_cons]
      · simp [hn, integer?, countedSeconds, hle, hsum]
    | false =>
      have hnone : (integer? r.duration).elim 0 countedSeconds = 0 := by
        cases hn : r.duration with
        | integer n =>
          have hle : ¬0 ≤ n := fun hle => by
            cases hr.symm.trans (hn ▸ (isFinishedCell_integer n).mpr hle)
          simp [integer?, countedSeconds, hle]
        | _ => rfl
      refine ⟨s, ?_, hpos, ?_⟩
      · rw [List.filter_cons_of_neg (by simp [hr]), hs]
      · rw [List.map_cons, List.sum_cons, hnone, hsum, Int.zero_add]

theorem exists_finished_of_canonical {d : Database} (hd : d.entries.Holds EntryRow.IsCanonical)
    (counts : EntryRow → Bool) : ∃ s : List Int,
      ((d.entries.items.filter counts).map EntryRow.duration).filter isFinishedCell =
        s.map .integer ∧ (∀ n ∈ s, 0 ≤ n) ∧ s.sum = d.seconds counts := by
  have hrows : ∀ r ∈ d.entries.items.filter counts, isFinishedCell r.duration = true →
      ∃ n, r.duration = .integer n :=
    fun r hr _ => (hd r (List.mem_filter.mp hr).1).duration
  obtain ⟨s, hs, hpos, hsum⟩ := exists_finished hrows
  exact ⟨s, hs, hpos, hsum.trans (sum_filter _ _ _)⟩

theorem finishedSum_filter {d : Database} (hd : d.entries.Holds EntryRow.IsCanonical)
    {counts : EntryRow → Bool} {n : Int}
    (h : finishedSum (d.entries.items.filter counts) = .ok n) : n = d.seconds counts := by
  obtain ⟨s, hs, -, hsum⟩ := exists_finished_of_canonical hd counts
  unfold finishedSum at h
  rw [hs] at h
  rw [sumCells_eq_ok h, hsum]

theorem finishedSum_of_fits {d : Database} (hd : d.entries.Holds EntryRow.IsCanonical)
    {counts : EntryRow → Bool} (hfits : Word.fits (d.seconds counts) = true) :
    finishedSum (d.entries.items.filter counts) = .ok (d.seconds counts) := by
  obtain ⟨s, hs, hpos, hsum⟩ := exists_finished_of_canonical hd counts
  unfold finishedSum
  rw [hs, ← hsum]
  rw [← hsum] at hfits
  exact sumCells_of_fits hpos hfits

theorem seconds_nonneg (d : Database) (counts : EntryRow → Bool) : 0 ≤ d.seconds counts := by
  apply List.sum_nonneg
  intro n hn
  obtain ⟨r, -, rfl⟩ := List.mem_map.mp hn
  unfold share
  split
  · cases integer? r.duration with
    | none => exact Int.le_refl 0
    | some n =>
      change 0 ≤ countedSeconds n
      unfold countedSeconds
      split
      · assumption
      · exact Int.le_refl 0
  · exact Int.le_refl 0

end Database
end Timesheet
