import Timesheet.Proofs.Fresh
import Timesheet.Proofs.Handling
import Timesheet.Proofs.Listing
import Timesheet.Proofs.Pairing
import Timesheet.Proofs.Sums

/-!
Databases that hold the rows of what a memory holds. Main statement: on a memory and on a database
that mirrors it every call has the same answer, and afterwards the database mirrors the memory still.
-/

namespace Timesheet

/-- What rows hold without loss: plain instants, and a duration that says whether there is a stop. -/
structure Entry.IsPlain (e : Entry) : Prop where
  instants : ∀ i ∈ e.instants, i.IsPlain
  interval : e.interval.IsOpen ∨ e.interval.IsClosed

structure Task.IsPlain (t : Task) : Prop where
  created : t.created.IsPlain
  updated : t.updated.IsPlain

structure Project.IsPlain (p : Project) : Prop where
  created : p.created.IsPlain
  updated : p.updated.IsPlain
  estimatedHours : p.estimatedHours.isNaN = false

def ProjectRow.written (p : Project) : ProjectRow where
  key := .named p.id.text
  workspace := p.workspace.text
  name := p.name
  autoEstimates := .ofBool p.autoEstimates
  estimatedHours := .ofFloat p.estimatedHours
  created := p.created.stamp
  updated := p.updated.stamp

/-- The project as it is read back: a zero of hours has no sign. -/
def Project.unsigned (p : Project) : Project :=
  { p with estimatedHours := p.estimatedHours.unsigned }

section Rows

theorem named_text_keepsOrder (kind : IdentifierKind) :
    Shelf.KeepsOrder fun id : Identifier kind => RowKey.named id.text :=
  fun a b => Identifier.before_text a b

theorem ProjectRow.ofProject_eq_ok {p : Project} {r : ProjectRow} :
    ofProject p = .ok r ↔ p.estimatedHours.isNaN = false ∧ r = written p := by
  unfold ofProject
  simp only [bind_eq_ok, Database.hoursCell_eq_ok, pure, Except.pure, Except.ok.injEq]
  constructor
  · rintro ⟨c, ⟨hn, rfl⟩, rfl⟩
    exact ⟨hn, rfl⟩
  · rintro ⟨hn, rfl⟩
    exact ⟨_, ⟨hn, rfl⟩, rfl⟩

theorem Instant.IsPlain.ofStamp?_stamp {i : Instant} (h : i.IsPlain) :
    Instant.ofStamp? i.stamp = some i :=
  Instant.ofStamp?_stamp_eq_some.mpr ⟨h.2, Instant.wholeSecond_of_isWhole h.1⟩

theorem Task.IsPlain.task_ofTask {t : Task} (h : t.IsPlain) : (TaskRow.ofTask t).task = .ok t :=
  TaskRow.task_eq_ok.mpr ⟨⟨_, rfl, Identifier.parse_text _⟩, Identifier.parse_text _, rfl, rfl,
    h.created.ofStamp?_stamp, h.updated.ofStamp?_stamp⟩

theorem Project.IsPlain.project_written {p : Project} (h : p.IsPlain) :
    (ProjectRow.written p).project = .ok p.unsigned :=
  ProjectRow.project_eq_ok.mpr ⟨⟨_, rfl, Identifier.parse_text _⟩, Identifier.parse_text _, rfl,
    NumberCell.ofBool_denotes _, rfl, h.created.ofStamp?_stamp, h.updated.ofStamp?_stamp⟩

theorem mapM_eq_ok {ε α β : Type} {f : α → Except ε β} {g : α → β} {s : List α}
    (h : ∀ a ∈ s, f a = .ok (g a)) : s.mapM f = .ok (s.map g) := by
  rw [mapM_eq_ok_iff, List.map_map]
  exact List.map_congr_left h

end Rows

structure Database.Mirrors (d : Database) (m : Memory) : Prop where
  entries : Shelf.IsImage EntryRow.ofEntry m.entries d.entries
  tasks : Shelf.IsImage TaskRow.ofTask m.tasks d.tasks
  projects : Shelf.IsImage ProjectRow.written m.projects d.projects
  plainEntries : m.entries.Holds Entry.IsPlain
  plainTasks : m.tasks.Holds Task.IsPlain
  plainProjects : m.projects.Holds Project.IsPlain

def mirroring : Contract where
  entry := Entry.IsPlain
  clock := Instant.IsPlain
  bound i := i.IsWhole ∧ i.second ≤ Instant.lastStorable
  total n := 0 ≤ n

/-- The numbers that a call is about fit a word: a sum of durations, or the count of the entries that are
listed, of which no memory has room for more. -/
def Call.Fits (m : Memory) : Call → Prop
  | taskTotal id => Word.fits (m.taskSeconds id) = true
  | projectTotal id => Word.fits (m.projectSeconds id) = true
  | running _ _ => m.entries.items.length ≤ Word.largestCount
  | createdBetween _ _ _ _ => m.entries.items.length ≤ Word.largestCount
  | stoppedBetween _ _ _ _ => m.entries.items.length ≤ Word.largestCount
  | recent _ _ => m.entries.items.length ≤ Word.largestCount
  | _ => True

instance (m : Memory) : DecidablePred (Call.Fits m)
  | .taskTotal id => inferInstanceAs (Decidable (Word.fits (m.taskSeconds id) = true))
  | .projectTotal id => inferInstanceAs (Decidable (Word.fits (m.projectSeconds id) = true))
  | .running _ _ => inferInstanceAs (Decidable (_ ≤ _))
  | .createdBetween _ _ _ _ => inferInstanceAs (Decidable (_ ≤ _))
  | .stoppedBetween _ _ _ _ => inferInstanceAs (Decidable (_ ≤ _))
  | .recent _ _ => inferInstanceAs (Decidable (_ ≤ _))
  | .insert _ => isTrue trivial
  | .fetch _ => isTrue trivial
  | .replace _ => isTrue trivial
  | .erase _ => isTrue trivial
  | .writeTracked _ _ _ => isTrue trivial
  | .writeEstimate _ _ _ => isTrue trivial

namespace Database.Mirrors

variable {d : Database} {m : Memory}

theorem find?_entry (h : d.Mirrors m) (id : EntryId) :
    d.entries.find? (.named id.text) = (m.entries.find? id).map EntryRow.ofEntry :=
  h.entries.find? (named_text_keepsOrder .entry) (fun _ => rfl) id

theorem find?_task (h : d.Mirrors m) (id : TaskId) :
    d.tasks.find? (.named id.text) = (m.tasks.find? id).map TaskRow.ofTask :=
  h.tasks.find? (named_text_keepsOrder .task) (fun _ => rfl) id

theorem find?_project (h : d.Mirrors m) (id : ProjectId) :
    d.projects.find? (.named id.text) = (m.projects.find? id).map ProjectRow.written :=
  h.projects.find? (named_text_keepsOrder .project) (fun _ => rfl) id

theorem putEntry (h : d.Mirrors m) {e : Entry} (he : e.IsPlain) :
    { d with entries := d.entries.put (.ofEntry e) : Database }.Mirrors
      { m with entries := m.entries.put e } :=
  { h with
    entries := h.entries.put (named_text_keepsOrder .entry) (fun _ => rfl) e
    plainEntries := h.plainEntries.put he }

theorem eraseEntry (h : d.Mirrors m) (id : EntryId) :
    { d with entries := d.entries.erase (.named id.text) : Database }.Mirrors
      { m with entries := m.entries.erase id } :=
  { h with
    entries := h.entries.erase (named_text_keepsOrder .entry) (fun _ => rfl) id
    plainEntries := h.plainEntries.erase id }

theorem putTask (h : d.Mirrors m) {t : Task} (ht : t.IsPlain) :
    { d with tasks := d.tasks.put (.ofTask t) : Database }.Mirrors (m.putTask t) :=
  { h with
    tasks := h.tasks.put (named_text_keepsOrder .task) (fun _ => rfl) t
    plainTasks := h.plainTasks.put ht }

theorem putProject (h : d.Mirrors m) {p : Project} (hp : p.IsPlain) :
    { d with projects := d.projects.put (.written p) : Database }.Mirrors (m.putProject p) :=
  { h with
    projects := h.projects.put (named_text_keepsOrder .project) (fun _ => rfl) p
    plainProjects := h.plainProjects.put hp }

end Database.Mirrors

inductive Mirrored : Except StoreFault Database → Except StoreFault Memory → Prop
  | failed (f : StoreFault) : Mirrored (.error f) (.error f)
  | done {d : Database} {m : Memory} (h : d.Mirrors m) : Mirrored (.ok d) (.ok m)

section Changes

variable {d : Database} {m : Memory}

theorem Mirrored.changed {rd : Except StoreFault Database} {rm : Except StoreFault Memory}
    (hr : Mirrored rd rm) (h : d.Mirrors m) :
    (changed d rd).1 = (changed m rm).1 ∧ (changed d rd).2.Mirrors (changed m rm).2 := by
  cases hr with
  | failed f => exact ⟨rfl, h⟩
  | done h' => exact ⟨rfl, h'⟩

theorem mirrored_insert (h : d.Mirrors m) {e : Entry} (he : e.IsPlain) (hnew : m.Unused e.id) :
    Mirrored (d.insert e) (m.insert e) := by
  have hnone : d.entries.find? (.named e.id.text) = none := by
    rw [h.find?_entry, hnew]
    rfl
  rw [Database.insert_eq_ok.mpr ⟨hnone, rfl⟩]
  exact .done (h.putEntry he)

theorem mirrored_replace (h : d.Mirrors m) {e : Entry} (he : e.IsPlain) :
    Mirrored (d.replace e) (m.replace e) := by
  unfold Database.replace Memory.replace Memory.fetch
  rw [h.find?_entry]
  cases m.entries.find? e.id with
  | none => exact .failed .missing
  | some old => exact .done (h.putEntry he)

theorem mirrored_erase (h : d.Mirrors m) (id : EntryId) : Mirrored (d.erase id) (m.erase id) := by
  unfold Database.erase Memory.erase Memory.fetch
  rw [h.find?_entry]
  cases m.entries.find? id with
  | none => exact .failed .missing
  | some old => exact .done (h.eraseEntry id)

theorem mirrored_writeTracked (h : d.Mirrors m) (id : TaskId) (seconds : Int) {now : Instant}
    (hnow : now.IsPlain) :
    Mirrored (d.writeTracked id seconds now) (m.writeTracked id seconds now) := by
  unfold Database.writeTracked Memory.writeTracked
  rw [h.find?_task]
  cases ht : m.tasks.find? id with
  | none => exact .failed .missing
  | some t =>
    have hplain : { t with trackedSeconds := seconds, updated := now : Task }.IsPlain :=
      ⟨(h.plainTasks.of_find? ht).created, hnow⟩
    exact .done (h.putTask hplain)

theorem mirrors_writeEstimate (h : d.Mirrors m) (id : ProjectId) {hours : Binary64} {now : Instant}
    (hhours : hours.isNaN = false) (hnow : now.IsPlain) :
    (changedIf d (d.writeEstimate id hours now)).1 = (changedIf m (m.writeEstimate id hours now)).1 ∧
      (changedIf d (d.writeEstimate id hours now)).2.Mirrors
        (changedIf m (m.writeEstimate id hours now)).2 := by
  cases hp : m.projects.find? id with
  | none =>
    have hd : d.writeEstimate id hours now = .error .missing := by
      unfold Database.writeEstimate
      rw [h.find?_project, hp]
      rfl
    have hm : m.writeEstimate id hours now = .error .missing := by
      unfold Memory.writeEstimate
      rw [hp]
      rfl
    rw [hd, hm]
    exact ⟨rfl, h⟩
  | some p =>
    have hfind : d.projects.find? (.named id.text) = some (.written p) := by
      rw [h.find?_project, hp]
      rfl
    have hauto : ∃ n, (ProjectRow.written p).autoEstimates = .integer n ∧
        (n != 0) = p.autoEstimates := NumberCell.ofBool_denotes _
    have hplain : { p with estimatedHours := hours, updated := now : Project }.IsPlain :=
      ⟨(h.plainProjects.of_find? hp).created, hnow, hhours⟩
    cases hb : p.autoEstimates with
    | false =>
      have hd : d.writeEstimate id hours now = .ok (false, d) :=
        Database.writeEstimate_eq_ok.mpr ⟨_, hfind, hb ▸ hauto, rfl⟩
      have hm : m.writeEstimate id hours now = .ok (false, m) :=
        Memory.writeEstimate_eq_ok.mpr ⟨p, hp, hb.symm, rfl⟩
      rw [hd, hm]
      exact ⟨rfl, h⟩
    | true =>
      have hd : d.writeEstimate id hours now = .ok (true, { d with
          projects := d.projects.put (.written { p with estimatedHours := hours, updated := now }) }) :=
        Database.writeEstimate_eq_ok.mpr ⟨_, hfind, hb ▸ hauto, hhours, rfl⟩
      have hm : m.writeEstimate id hours now =
          .ok (true, m.putProject { p with estimatedHours := hours, updated := now }) :=
        Memory.writeEstimate_eq_ok.mpr ⟨p, hp, hb.symm, rfl⟩
      rw [hd, hm]
      exact ⟨rfl, h.putProject hplain⟩

end Changes

namespace Database.Mirrors

variable {d : Database} {m : Memory}

theorem copies (h : d.Mirrors m) : d.Copies m :=
  ⟨h.entries, fun e he => (h.plainEntries e he).instants⟩

theorem createdBetween (h : d.Mirrors m) (hlength : m.entries.items.length ≤ Word.largestCount)
    (user : UserId) (page : Page) {first last : Instant} (hfirst : mirroring.bound first)
    (hlast : mirroring.bound last) :
    d.createdBetween user page first last = m.createdBetween user page first last := by
  have hcut := h.copies.createdBetween hlength user page hfirst.2 hlast.2
  rwa [Instant.wholeSecond_of_isWhole hfirst.1] at hcut

theorem stoppedBetween (h : d.Mirrors m) (hlength : m.entries.items.length ≤ Word.largestCount)
    (user : UserId) (limit : Nat) {first last : Instant} (hfirst : mirroring.bound first)
    (hlast : mirroring.bound last) :
    d.stoppedBetween user first last limit = m.stoppedBetween user first last limit := by
  have hcut := h.copies.stoppedBetween hlength user limit hfirst.2 hlast.2
  rwa [Instant.wholeSecond_of_isWhole hfirst.1] at hcut

theorem isCanonical (h : d.Mirrors m) : d.entries.Holds EntryRow.IsCanonical := by
  intro r hr
  rw [h.entries] at hr
  obtain ⟨e, -, rfl⟩ := List.mem_map.mp hr
  exact EntryRow.ofEntry_isCanonical e

theorem seconds (h : d.Mirrors m) {counts : EntryRow → Bool} {c : Entry → Bool}
    (hc : ∀ e, counts (.ofEntry e) = c e) : d.seconds counts = m.seconds c := by
  unfold Database.seconds Memory.seconds
  rw [h.entries, List.map_map]
  congr 1
  apply List.map_congr_left
  intro e he
  have hcounted : Database.countedSeconds e.duration = Memory.countedSeconds e.duration := by
    have hrunning : Entry.runningDuration = -1 := rfl
    unfold Database.countedSeconds Memory.countedSeconds
    rw [hrunning]
    rcases (h.plainEntries e he).interval with hi | hi
    · rw [show e.duration = -1 from hi.1]
      rfl
    · have hpos : 0 ≤ e.duration := hi.1
      rw [if_pos hpos, if_neg]
      simp only [beq_iff_eq]
      omega
  have hshare : share counts (.ofEntry e) =
      if counts (.ofEntry e) then Database.countedSeconds e.duration else 0 := rfl
  rw [Function.comp_apply, hshare, hc, hcounted]

theorem finishedSum (h : d.Mirrors m) (counts : EntryRow → Bool) (c : Entry → Bool)
    (hc : ∀ e, counts (.ofEntry e) = c e) (hfits : Word.fits (m.seconds c) = true) :
    Database.finishedSum (d.entries.items.filter counts) =
        .ok (Memory.finishedSum (m.entries.items.filter c)) ∧
      0 ≤ Memory.finishedSum (m.entries.items.filter c) := by
  rw [m.finishedSum_filter, Word.wrap_of_fits hfits, ← h.seconds hc]
  rw [← h.seconds hc] at hfits
  exact ⟨finishedSum_of_fits h.isCanonical hfits, d.seconds_nonneg counts⟩

theorem taskTotal (h : d.Mirrors m) {id : TaskId} (hfits : Word.fits (m.taskSeconds id) = true) :
    d.taskTotal id = m.taskTotal id ∧ ∀ n, m.taskTotal id = .ok n → 0 ≤ n := by
  obtain ⟨hsum, hpos⟩ := h.finishedSum (fun r => r.task = id.text) (fun e => e.task = id)
    (fun e => decide_eq_decide.mpr Identifier.text_inj) hfits
  refine ⟨hsum, ?_⟩
  rintro n ⟨⟩
  exact hpos

theorem projectTotal (h : d.Mirrors m) {id : ProjectId}
    (hfits : Word.fits (m.projectSeconds id) = true) :
    d.projectTotal id = m.projectTotal id ∧ ∀ n, m.projectTotal id = .ok n → 0 ≤ n := by
  obtain ⟨hsum, hpos⟩ := h.finishedSum (fun r => r.project = id.text)
    (fun e => e.project = id) (fun e => decide_eq_decide.mpr Identifier.text_inj) hfits
  refine ⟨hsum, ?_⟩
  rintro n ⟨⟩
  exact hpos

theorem fetch (h : d.Mirrors m) (id : EntryId) : d.fetch id = m.fetch id := by
  cases he : m.entries.find? id with
  | none =>
    unfold Database.fetch Memory.fetch
    rw [h.find?_entry, he]
    rfl
  | some e =>
    have hfind : d.entries.find? (.named id.text) = some (.ofEntry e) := by
      rw [h.find?_entry, he]
      rfl
    have hread := EntryRow.entry_eq_ok.mp (h.copies.plain.of_find? he).entry_ofEntry
    exact (fetch_eq_ok.mpr ⟨_, hfind, hread⟩).trans (Memory.found_eq_ok.mpr he).symm

theorem perform (h : d.Mirrors m) {drawn : Option EntryId} {c : Call}
    (hc : c.Obeys mirroring drawn) (hfits : c.Fits m)
    (hnew : ∀ e, c = .insert e → m.Unused e.id) :
    (c.perform d).1 = (c.perform m).1 ∧ c.Hands mirroring (c.perform m).1 ∧
      (c.perform d).2.Mirrors (c.perform m).2 := by
  have changes {rd : Except StoreFault Database} {rm : Except StoreFault Memory}
      (hr : Mirrored rd rm) : (changed d rd).1 = (changed m rm).1 ∧ True ∧
        (changed d rd).2.Mirrors (changed m rm).2 :=
    ⟨(hr.changed h).1, trivial, (hr.changed h).2⟩
  cases c with
  | insert e => exact changes (mirrored_insert h hc.1 (hnew e rfl))
  | fetch id =>
    exact ⟨h.fetch id, fun e he => h.plainEntries.of_find? (Memory.found_eq_ok.mp he), h⟩
  | replace e => exact changes (mirrored_replace h hc)
  | erase id => exact changes (mirrored_erase h id)
  | running user page => exact ⟨h.copies.running hfits user page, trivial, h⟩
  | createdBetween user page first last =>
    exact ⟨h.createdBetween hfits user page hc.1 hc.2, trivial, h⟩
  | stoppedBetween user first last limit =>
    exact ⟨h.stoppedBetween hfits user limit hc.1 hc.2, trivial, h⟩
  | recent user limit => exact ⟨h.copies.recent hfits user limit, trivial, h⟩
  | taskTotal id => exact ⟨(h.taskTotal hfits).1, (h.taskTotal hfits).2, h⟩
  | projectTotal id => exact ⟨(h.projectTotal hfits).1, (h.projectTotal hfits).2, h⟩
  | writeTracked id seconds now => exact changes (mirrored_writeTracked h id seconds hc)
  | writeEstimate id hours now =>
    obtain ⟨hnow, n, -, rfl⟩ := hc
    obtain ⟨hsame, hafter⟩ := mirrors_writeEstimate h id (hoursOfSeconds_isNaN n) hnow
    exact ⟨hsame, trivial, hafter⟩

end Database.Mirrors

theorem Memory.perform_projects {P : Project → Prop} {m : Memory} {drawn : Option EntryId} {c : Call}
    (hP : ∀ p n now, P p → 0 ≤ n →
      P { p with estimatedHours := hoursOfSeconds n, updated := now })
    (hm : m.projects.Holds P) (hc : c.Obeys mirroring drawn) : (c.perform m).2.projects.Holds P := by
  have keep {r : Except StoreFault Memory} (h : ∀ t, r = .ok t → t.projects = m.projects) :
      (changed m r).2.projects.Holds P :=
    changed_snd (P := fun t : Memory => t.projects.Holds P) hm fun t ht => h t ht ▸ hm
  cases c with
  | insert e => exact hm
  | replace e => exact keep fun t ht => (replace_eq_ok.mp ht).2 ▸ rfl
  | erase id => exact keep fun t ht => (erase_eq_ok.mp ht).2 ▸ rfl
  | writeTracked id seconds now =>
    refine keep fun t ht => ?_
    obtain ⟨r, -, rfl⟩ := writeTracked_eq_ok.mp ht
    rfl
  | writeEstimate id hours now =>
    obtain ⟨-, n, hn, rfl⟩ := hc
    refine changedIf_snd (P := fun t : Memory => t.projects.Holds P) hm fun b t ht => ?_
    obtain ⟨p, hp, -, rfl⟩ := writeEstimate_eq_ok.mp ht
    split
    · exact hm.put (hP p n now (hm.of_find? hp) hn)
    · exact hm
  | _ => exact hm

end Timesheet
