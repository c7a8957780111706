import Timesheet.Proofs.Range
import Timesheet.Proofs.Resending
import Timesheet.Proofs.SingleTimer
import Timesheet.Proofs.Sums
import Timesheet.Proofs.Turns

/-!
How long entries are, and how many of them add up within a word. Main statement: whatever clients make
of an empty store at storable times, no finished entry is longer than all storable years, leap second
included, and sums over so many entries as fit a word of the longest are words at every step, in
whatever order the entries come.
-/

namespace Timesheet

open Entry (Interval)

/-- The seconds of the storable years, and a leap second at their end. -/
def longestDuration : Int := 315569520000

def mostEntries : Nat := 29227702

theorem longestDuration_eq :
    longestDuration = Instant.lastStorable - Instant.firstStorable + 1 := by
  decide

theorem mostEntries_mul_longestDuration : mostEntries * longestDuration ≤ Word.largest := by
  decide

namespace Entry.Interval

variable {i : Interval}

def IsDated (i : Interval) : Prop :=
  i.IsMade ∧ i.start.IsStorable

theorem EndsAt.duration_bounds {stop : Instant} (h : i.EndsAt stop) (hs : i.start.IsStorable) :
    0 ≤ i.duration ∧ i.duration ≤ longestDuration := by
  have hpos := Instant.secondsUntil_nonneg h.start_le
  obtain ⟨hle, hleap⟩ := Instant.secondsUntil_le h.start_le
  have hfirst := hs.1
  have hlast := h.storable.2
  rw [longestDuration_eq]
  rcases h.duration with hd | ⟨hl, hday, hd⟩
  · omega
  · have hshort := hleap hl hday
    omega

theorem IsDated.duration_bounds (h : i.IsDated) :
    i.duration = runningDuration ∨ 0 ≤ i.duration ∧ i.duration ≤ longestDuration := by
  obtain ⟨⟨-, hopen | ⟨stop, hends⟩⟩, hs⟩ := h
  · exact .inl hopen.1
  · exact .inr (hends.duration_bounds hs)

end Entry.Interval

section Dating

def dating : Contract where
  entry e := e.interval.IsDated
  clock _ := True
  bound _ := True
  total _ := True

theorem Entry.isDated_applyPatch {e e' : Entry} {p : Patch} {now : Instant}
    (he : e.interval.IsDated) (h : e.applyPatch p now = .ok e') : e'.interval.IsDated := by
  refine ⟨isMade_applyPatch he.1 h, ?_⟩
  rcases patchedInterval_eq_ok (applyPatch_eq_ok h).1 with heq | ⟨hs | ⟨-, -, -, hs⟩, -⟩
  · rw [heq]
    exact he.2
  · rw [hs]
    exact he.2
  · exact hs

theorem Request.builds_dating {r : Request} (hclock : ∀ now ∈ r.clock?, now.IsStorable) :
    r.Builds dating := by
  cases r with
  | create input owner now =>
    intro id user details start duration e _ _ h
    refine ⟨Entry.isMade_finished h, ?_⟩
    obtain ⟨-, hs, stop, -, -, rfl⟩ := Entry.finished_eq_ok.mp h
    exact hs
  | start fields owner now =>
    exact fun _ _ _ => ⟨Interval.isMade_open now, Instant.wholeSecond_isStorable.mpr (hclock now rfl)⟩
  | stop id now =>
    intro e e' he h
    refine ⟨Entry.isMade_stopAt he.1 h, ?_⟩
    obtain ⟨-, -, rfl⟩ := Entry.stopAt_eq_ok.mp h
    exact he.2
  | update id patch now => exact fun _ _ => Entry.isDated_applyPatch
  | updateBatch ids patch now => exact fun _ _ => Entry.isDated_applyPatch
  | updateTags id tags mode now => exact fun _ he => he
  | updateTagsBatch ids tags mode now => exact fun _ he => he
  | range owner page first last => exact ⟨trivial, trivial⟩
  | dashboard owner now => exact ⟨trivial, trivial⟩
  | _ => trivial

theorem session_keeps_dating (policy : Policy) {rs : List Request}
    (hclock : ∀ r ∈ rs, ∀ now ∈ r.clock?, now.IsStorable) :
    (session policy rs).Keeps dating (fun _ => True) none :=
  session_keeps (fun r hr => ⟨Request.builds_dating (hclock r hr), fun _ _ => trivial⟩) policy none

def EntryRow.IsDated (r : EntryRow) : Prop :=
  ∃ e, dating.entry e ∧ r = .ofEntry e

theorem EntryRow.dating_of_denotes {r : EntryRow} {e : Entry} (hr : r.IsDated) (h : r.Denotes e) :
    dating.entry e := by
  obtain ⟨e', he', rfl⟩ := hr
  obtain ⟨-, rfl⟩ := ofEntry_denotes.mp h
  have hinterval : e'.wholeSeconds.interval = e'.interval :=
    Interval.wholeSeconds_of_isWhole he'.1.1
  change e'.wholeSeconds.interval.IsDated
  rw [hinterval]
  exact he'

end Dating

section Sums

variable {s : List Int}

/-- In whatever order the numbers are added, every sum on the way is a word, and not negative. -/
def AddsUp (s : List Int) : Prop :=
  ∀ order, order.Perm s → ∀ part, part <+: order → 0 ≤ part.sum ∧ Word.fits part.sum = true

theorem addsUp_of_bounds (hs : ∀ n ∈ s, 0 ≤ n ∧ n ≤ longestDuration) (hlength : s.length ≤ mostEntries) :
    AddsUp s := by
  intro order hperm part hpart
  have hmem : ∀ n ∈ part, 0 ≤ n ∧ n ≤ longestDuration :=
    fun n hn => hs n (hperm.mem_iff.mp (hpart.mem hn))
  have hpartLength : part.length ≤ mostEntries :=
    (hpart.length_le.trans hperm.length_eq.le).trans hlength
  have hpos : 0 ≤ part.sum := List.sum_nonneg fun n hn => (hmem n hn).1
  have hsum : part.sum ≤ part.length • longestDuration :=
    List.sum_le_card_nsmul _ _ fun n hn => (hmem n hn).2
  have hlargest : part.sum ≤ Word.largest := by
    calc part.sum ≤ part.length * longestDuration := by rwa [nsmul_eq_mul] at hsum
      _ ≤ mostEntries * longestDuration :=
        Int.mul_le_mul_of_nonneg_right (Int.ofNat_le.mpr hpartLength) (by decide)
      _ ≤ Word.largest := mostEntries_mul_longestDuration
  exact ⟨hpos, Word.fits_of_bounds ((by decide : Word.smallest ≤ 0).trans hpos) hlargest⟩

theorem AddsUp.fits (h : AddsUp s) : Word.fits s.sum = true :=
  (h s (.refl s) s (List.prefix_refl s)).2

end Sums

namespace Memory

variable {m : Memory}

def summed (m : Memory) (counts : Entry → Bool) : List Int :=
  ((m.entries.items.filter counts).filter fun e => !e.isRunning).map Entry.duration

/-- The sum over the entries that count is taken without overflow, unless they are too many. -/
def AddsUpTo (m : Memory) (counts : Entry → Bool) (total : Except StoreFault Int) : Prop :=
  (m.entries.items.filter counts).length ≤ mostEntries →
    AddsUp (m.summed counts) ∧ total = .ok (m.summed counts).sum

structure IsBounded (m : Memory) : Prop where
  duration : m.entries.Holds fun e =>
    e.isRunning = false → 0 ≤ e.duration ∧ e.duration ≤ longestDuration
  task : ∀ id, m.AddsUpTo (fun e => e.task = id) (m.taskTotal id)
  project : ∀ id, m.AddsUpTo (fun e => e.project = id) (m.projectTotal id)

theorem duration_bounds (h : m.entries.Holds dating.entry) : m.entries.Holds fun e =>
    e.isRunning = false → 0 ≤ e.duration ∧ e.duration ≤ longestDuration := by
  intro e he hfinished
  rcases Interval.IsDated.duration_bounds (h e he) with hopen | hbounds
  · exact absurd (beq_iff_eq.mpr hopen) (Bool.eq_false_iff.mp hfinished)
  · exact hbounds

theorem addsUpTo_finishedSum (h : m.entries.Holds dating.entry) (counts : Entry → Bool) :
    m.AddsUpTo counts (.ok (finishedSum (m.entries.items.filter counts))) := by
  intro hlength
  have hbounds : ∀ n ∈ m.summed counts, 0 ≤ n ∧ n ≤ longestDuration := by
    intro n hn
    obtain ⟨e, he, rfl⟩ := List.mem_map.mp hn
    obtain ⟨he, hfinished⟩ := List.mem_filter.mp he
    exact duration_bounds h e (List.mem_filter.mp he).1 (Bool.not_eq_true' _ ▸ hfinished)
  have hadds : AddsUp (m.summed counts) := by
    apply addsUp_of_bounds hbounds
    rw [summed, List.length_map]
    exact (List.length_filter_le _ _).trans hlength
  refine ⟨hadds, congrArg Except.ok ?_⟩
  rw [finishedSum, ← List.sum_eq_foldl]
  exact Word.wrap_of_fits hadds.fits

theorem isBounded (h : m.entries.Holds dating.entry) : m.IsBounded :=
  ⟨duration_bounds h, fun _ => addsUpTo_finishedSum h _, fun _ => addsUpTo_finishedSum h _⟩

end Memory

namespace Database

variable {d : Database}

def summed (d : Database) (counts : EntryRow → Bool) : List Int :=
  (((d.entries.items.filter counts).map EntryRow.duration).filter isFinishedCell).filterMap integer?

def AddsUpTo (d : Database) (counts : EntryRow → Bool) (total : Except StoreFault Int) : Prop :=
  (d.entries.items.filter counts).length ≤ mostEntries →
    AddsUp (d.summed counts) ∧
      (∀ order, order.Perm (d.summed counts) → sumWords 0 order = .ok (d.summed counts).sum) ∧
        total = .ok (d.summed counts).sum

structure IsBounded (d : Database) : Prop where
  duration : d.entries.Holds fun r => ∃ n, r.duration = .integer n ∧
    (isRunningRow r = false → 0 ≤ n ∧ n ≤ longestDuration)
  task : ∀ id, d.AddsUpTo (fun r => r.task = id.text) (d.taskTotal id)
  project : ∀ id, d.AddsUpTo (fun r => r.project = id.text) (d.projectTotal id)

theorem duration_bounds (h : d.entries.Holds EntryRow.IsDated) :
    d.entries.Holds fun r => ∃ n, r.duration = .integer n ∧
      (isRunningRow r = false → 0 ≤ n ∧ n ≤ longestDuration) := by
  intro r hr
  obtain ⟨e, he, rfl⟩ := h r hr
  refine ⟨e.duration, rfl, fun hfinished => ?_⟩
  rw [isRunningRow_ofEntry] at hfinished
  rcases Interval.IsDated.duration_bounds he with hopen | hbounds
  · exact absurd (beq_iff_eq.mpr hopen) (Bool.eq_false_iff.mp hfinished)
  · exact hbounds

theorem addsUpTo_finishedSum (h : d.entries.Holds EntryRow.IsDated) (counts : EntryRow → Bool) :
    d.AddsUpTo counts (finishedSum (d.entries.items.filter counts)) := by
  intro hlength
  have hcanonical : d.entries.Holds EntryRow.IsCanonical := by
    intro r hr
    obtain ⟨e, -, rfl⟩ := h r hr
    exact EntryRow.ofEntry_isCanonical e
  obtain ⟨s, hs, hpos, hsum⟩ := exists_finished_of_canonical hcanonical counts
  have hsummed : d.summed counts = s := by
    rw [summed, hs, List.filterMap_map]
    exact List.filterMap_some
  have hbounds : ∀ n ∈ s, 0 ≤ n ∧ n ≤ longestDuration := by
    intro n hn
    have hcell : NumberCell.integer n ∈
        ((d.entries.items.filter counts).map EntryRow.duration).filter isFinishedCell :=
      hs ▸ List.mem_map_of_mem hn
    obtain ⟨r, hr, hcell⟩ := List.mem_map.mp (List.mem_filter.mp hcell).1
    obtain ⟨n', hn', hbounds⟩ := duration_bounds h r (List.mem_filter.mp hr).1
    obtain rfl := NumberCell.integer.inj (hcell.symm.trans hn')
    apply hbounds
    rw [isRunningRow, hcell, beq_eq_false_iff_ne]
    intro hrunning
    have hminus : n = -1 := NumberCell.integer.inj hrunning
    exact absurd (hpos n hn) (by omega)
  have hshort : s.length ≤ mostEntries := by
    rw [← List.length_map (f := NumberCell.integer), ← hs]
    apply (List.length_filter_le _ _).trans
    rwa [List.length_map]
  have hadds := addsUp_of_bounds hbounds hshort
  have hwords (order : List Int) (hperm : order.Perm s) : sumWords 0 order = .ok s.sum := by
    have hfits : Word.fits (0 + order.sum) = true := by
      rw [Int.zero_add, hperm.sum_eq]
      exact hadds.fits
    rw [sumWords_of_fits (fun n hn => hpos n (hperm.mem_iff.mp hn)) (Int.le_refl 0) hfits,
      Int.zero_add, hperm.sum_eq]
  have htotal : finishedSum (d.entries.items.filter counts) = .ok s.sum := by
    unfold finishedSum
    rw [hs]
    exact sumCells_of_fits hpos hadds.fits
  rw [hsummed]
  exact ⟨hadds, hwords, htotal⟩

theorem isBounded (h : d.entries.Holds EntryRow.IsDated) : d.IsBounded :=
  ⟨duration_bounds h, fun _ => addsUpTo_finishedSum h _, fun _ => addsUpTo_finishedSum h _⟩

end Database

/-- At any time, also between the calls of one operation, every finished entry is bounded and every sum
over entries that are not too many fits, if clients began with no entries and go by storable clocks. -/
theorem clients_sums_fit {ι : Type} [DecidableEq ι] (policy : ι → Policy)
    (requests : ι → List Request) (ids : ι → IdSource) (schedule : List ι)
    (hclock : ∀ i, ∀ r ∈ requests i, ∀ now ∈ r.clock?, now.IsStorable) :
    (∀ m : Memory, m.entries = Shelf.empty →
      ((Clients.of m policy requests ids).after schedule).store.IsBounded) ∧
    ∀ d : Database, d.entries = Shelf.empty →
      ((Clients.of d policy requests ids).after schedule).store.IsBounded := by
  have hkeeps (i : ι) : ∃ drawn, (session (policy i) (requests i)).Keeps dating (fun _ => True)
      drawn := ⟨none, session_keeps_dating (policy i) (hclock i)⟩
  constructor
  · intro m hm
    apply Memory.isBounded
    exact Clients.keep_after (s := .of m policy requests ids)
      (I := fun m : Memory => m.entries.Holds dating.entry)
      (fun _ _ _ hI hc => Memory.perform_holds (fun _ => trivial) hI hc) hkeeps
      (hm ▸ Shelf.holds_empty) schedule
  · intro d hd
    apply Database.isBounded
    exact Clients.keep_after (s := .of d policy requests ids)
      (I := fun d : Database => d.entries.Holds EntryRow.IsDated)
      (fun _ _ _ hI hc => Database.perform_holds (fun _ => trivial) (fun e he => ⟨e, he, rfl⟩)
        (fun _ _ => EntryRow.dating_of_denotes) hI hc) hkeeps (hd ▸ Shelf.holds_empty) schedule

def throughAllYears : List Request :=
  [.start timerFields "00000000-0000-0000-0000-000000000002" Instant.firstPlain,
    .stop "00000000-0000-0000-0000-000000000001" Instant.lastLeap]

def createAllYears : Request :=
  .create { fields := timerFields, start := some .firstPlain, duration := some 315569519999 }
    "00000000-0000-0000-0000-000000000002" .epoch

theorem clients_sums_fit_allYears :
    (let s := ((Clients.of ({} : Memory) (fun _ : Unit => {}) (fun _ => throughAllYears)
        fun _ => .after 0).after [(), (), (), ()]).store
    s.IsBounded ∧ s.taskTotal .absent = .ok longestDuration) ∧
    let s := ((Clients.of ({} : Database) (fun _ : Unit => {}) (fun _ => [createAllYears])
      fun _ => .after 0).after [(), ()]).store
    s.IsBounded ∧ s.taskTotal .absent = .ok (longestDuration - 1) := by
  constructor
  · have hfit := (clients_sums_fit (fun _ : Unit => {}) (fun _ => throughAllYears)
      (fun _ => .after 0) [(), (), (), ()] (by decide +kernel)).1 {} rfl
    refine ⟨hfit, ?_⟩
    rw [(hfit.task .absent (by decide +kernel)).2]
    decide +kernel
  · have hfit := (clients_sums_fit (fun _ : Unit => {}) (fun _ => [createAllYears])
      (fun _ => .after 0) [(), ()] (by decide +kernel)).2 {} rfl
    refine ⟨hfit, ?_⟩
    rw [(hfit.task .absent (by decide +kernel)).2.2]
    decide +kernel

end Timesheet
