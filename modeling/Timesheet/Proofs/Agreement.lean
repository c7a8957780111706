import Timesheet.Proofs.Mirror
import Timesheet.Proofs.Outcome

/-!
Sessions on a memory and on a database. Main statement: started from the same tasks and projects, the
two give the same replies and hold the same records after every request, as long as requests name
whole seconds of years with four digits and all sums fit a word.
-/

namespace Timesheet

namespace Request

def times : Request → List Instant
  | create input _ now => now :: input.start.toList
  | start _ _ now => [now]
  | stop _ now => [now]
  | update _ patch now => now :: (patch.start.toList ++ patch.stop.toList)
  | delete _ now => [now]
  | updateTags _ _ _ now => [now]
  | updateBatch _ patch now => now :: (patch.start.toList ++ patch.stop.toList)
  | updateTagsBatch _ _ _ now => [now]
  | syncTaskTime _ now => [now]
  | syncProjectTime _ now => [now]
  | get _ => []
  | running _ _ => []
  | range _ _ first last => [first, last]
  | dashboard _ now => [now]

variable {r : Request}

theorem mem_times_of_clock {now : Instant} (h : now ∈ r.clock?) : now ∈ r.times := by
  cases r <;> simp_all [clock?, times]

end Request

theorem Instant.IsPlain.wholeSecond {i : Instant} (h : i.IsPlain) : i.wholeSecond.IsPlain := by
  rw [Instant.wholeSecond_of_isWhole h.1]
  exact h

theorem Instant.IsPlain.clampStorable {i : Instant} (h : i.IsPlain) : i.clampStorable = i := by
  unfold Instant.clampStorable
  rw [if_neg (Int.not_lt.mpr h.2.1), if_neg (Int.not_lt.mpr h.2.2)]

theorem bound_dashboardStart {now : Instant} (h : now.IsPlain) :
    mirroring.bound (Service.dashboardStart now) := by
  unfold Service.dashboardStart
  cases hadd : now.addSeconds? (-Service.dashboardSeconds) with
  | none => exact ⟨.inl rfl, by decide⟩
  | some i =>
    exact ⟨Instant.isWhole_of_addSeconds? h.1 hadd,
      (Instant.second_le_of_addSeconds? (by decide) hadd).trans h.2.2⟩

theorem Entry.WrittenAt.isPlain {now : Instant} {old : Option Entry} {e : Entry}
    (h : e.WrittenAt now old) (hnow : now.IsPlain)
    (hold : ∀ e₀ ∈ old, ∀ i ∈ e₀.instants, i.IsPlain) : ∀ i ∈ e.instants, i.IsPlain := by
  intro i hi
  rcases h.instants i hi with rfl | hi | ⟨e₀, he₀, hi⟩
  · exact hnow.wholeSecond
  · exact hi
  · exact hold e₀ he₀ i hi

theorem Request.builds_mirroring {r : Request} (h : ∀ i ∈ r.times, i.IsPlain) :
    r.Builds mirroring := by
  have hpaired := r.builds_pairing
  have hkeep {e e' : Entry} {now : Instant} (hnow : now.IsPlain) (he : e.IsPlain)
      (hwritten : e'.WrittenAt now (some e)) : ∀ i ∈ e'.instants, i.IsPlain := by
    apply hwritten.isPlain hnow
    rintro _ ⟨⟩
    exact he.instants
  cases r with
  | create input owner now =>
    intro id user details start duration e hstart hduration he
    refine ⟨?_, hpaired id user details start duration e hstart hduration he⟩
    exact (Entry.finished_writtenAt he).isPlain (h now (by simp [times])) (by simp)
  | start fields owner now =>
    intro id user details
    refine ⟨?_, hpaired id user details⟩
    exact (Entry.running_writtenAt id user details now).isPlain (h now (by simp [times])) (by simp)
  | stop id now =>
    intro e e' he hstop
    exact ⟨hkeep (h now (by simp [times])) he (Entry.stopAt_writtenAt hstop),
      hpaired e e' he.interval hstop⟩
  | update id patch now | updateBatch ids patch now =>
    intro e e' he hpatch
    exact ⟨hkeep (h now (by simp [times])) he (Entry.applyPatch_writtenAt hpatch),
      hpaired e e' he.interval hpatch⟩
  | updateTags id tags mode now | updateTagsBatch ids tags mode now =>
    intro e he
    exact ⟨hkeep (h now (by simp [times])) he (Entry.editTags_writtenAt e tags mode now),
      hpaired e he.interval⟩
  | range owner page first last =>
    have hfirst := h first (by simp [times])
    have hlast := h last (by simp [times])
    change mirroring.bound first.clampStorable ∧ mirroring.bound last.clampStorable
    rw [hfirst.clampStorable, hlast.clampStorable]
    exact ⟨⟨hfirst.1, hfirst.2.2⟩, ⟨hlast.1, hlast.2.2⟩⟩
  | dashboard owner now =>
    have hnow := h now (by simp [times])
    exact ⟨bound_dashboardStart hnow, hnow.1, hnow.2.2⟩
  | _ => trivial

theorem session_keeps_mirroring (policy : Policy) {rs : List Request}
    (h : ∀ r ∈ rs, ∀ i ∈ r.times, i.IsPlain) :
    (session policy rs).Keeps mirroring (fun _ => True) none := by
  refine session_keeps (fun r hr => ⟨Request.builds_mirroring (h r hr), fun now hnow => ?_⟩) policy
    none
  exact (h r hr now (Request.mem_times_of_clock hnow)).wholeSecond

/-- Sums that are asked for fit a word, and so does the count of entries whenever they are listed. -/
def Memory.Fits (policy : Policy) (rs : List Request) (d : Desk Memory) : Prop :=
  ∀ x ∈ (session policy rs).trace d, x.2.Fits x.1

/-- A session on a memory and on its mirror gives the same replies and ends in a memory and its
mirror. What holds of the projects and is kept by writing totals holds of them in the end. -/
theorem session_mirrors (policy : Policy) {rs : List Request} {d : Database} {m : Memory}
    {ids : IdSource} {P : Project → Prop} (h : d.Mirrors m) (hm : m.projects.Holds P)
    (hP : ∀ p n now, P p → 0 ≤ n →
      P { p with estimatedHours := hoursOfSeconds n, updated := now })
    (htimes : ∀ r ∈ rs, ∀ i ∈ r.times, i.IsPlain)
    (hfresh : ids.IsFresh ((session policy rs).run ⟨m, ids⟩).2.ids.drawn m.Unused)
    (hfits : Memory.Fits policy rs ⟨m, ids⟩) :
    ((session policy rs).run ⟨d, ids⟩).1 = ((session policy rs).run ⟨m, ids⟩).1 ∧
      ((session policy rs).run ⟨d, ids⟩).2.store.Mirrors
          ((session policy rs).run ⟨m, ids⟩).2.store ∧
        ((session policy rs).run ⟨m, ids⟩).2.store.projects.Holds P := by
  have hinserts := Memory.session_inserts policy rs ⟨m, ids⟩ hfresh
  have hcall (drawn : Option EntryId) (d : Desk Database) (e : Desk Memory) (c : Call)
      (hR : d.ids = e.ids ∧ d.store.Mirrors e.store ∧ e.store.projects.Holds P)
      (hc : c.Obeys mirroring drawn)
      (hcond : c.Fits e.store ∧ ∀ entry, c = .insert entry → e.store.Unused entry.id) :
      (c.perform d.store).1 = (c.perform e.store).1 ∧ c.Hands mirroring (c.perform d.store).1 ∧
        d.ids = e.ids ∧ (c.perform d.store).2.Mirrors (c.perform e.store).2 ∧
          (c.perform e.store).2.projects.Holds P := by
    obtain ⟨hids, hmirrors, hprojects⟩ := hR
    obtain ⟨hsame, hhands, hafter⟩ := hmirrors.perform hc hcond.1 hcond.2
    rw [hsame]
    exact ⟨rfl, hhands, hids, hafter, Memory.perform_projects hP hprojects hc⟩
  obtain ⟨hreplies, -, -, hafter⟩ := (session_keeps_mirroring policy htimes).run_related
    (C := fun m c => c.Fits m ∧ ∀ entry, c = .insert entry → m.Unused entry.id)
    (R := fun _ (d : Desk Database) (e : Desk Memory) =>
      d.ids = e.ids ∧ d.store.Mirrors e.store ∧ e.store.projects.Holds P)
    (fun _ d e hR => ⟨congrArg IdSource.next hR.1, congrArg IdSource.advance hR.1, hR.2⟩)
    hcall (fun _ d e hR => hR) (d := ⟨d, ids⟩) (e := ⟨m, ids⟩)
    (fun x hx => ⟨hfits x hx, hinserts x hx⟩) ⟨rfl, h, hm⟩
  exact ⟨hreplies, hafter⟩

def Memory.ofRecords (ts : List Task) (ps : List Project) : Memory :=
  ps.foldl Memory.putProject (ts.foldl Memory.putTask {})

def Database.ofRecords (ts : List Task) (ps : List Project) : Except DatabaseFault Database := do
  ps.foldlM Database.insertProject (← ts.foldlM Database.insertTask {})

section Records

theorem mirrors_foldl {α κ : Type} {put : Memory → α → Memory}
    {insert : Database → α → Except DatabaseFault Database} {key : α → κ}
    {F : Memory → κ → Prop} {P : α → Prop}
    (hput : ∀ d m a, d.Mirrors m → P a → F m (key a) →
      ∃ d', insert d a = .ok d' ∧ d'.Mirrors (put m a))
    (hfree : ∀ m a k, F m k → key a ≠ k → F (put m a) k)
    {s : List α} {d : Database} {m : Memory} (h : d.Mirrors m) (hs : ∀ a ∈ s, P a)
    (hkeys : (s.map key).Nodup) (hm : ∀ a ∈ s, F m (key a)) :
    ∃ d', s.foldlM insert d = .ok d' ∧ d'.Mirrors (s.foldl put m) := by
  induction s generalizing d m with
  | nil => exact ⟨d, rfl, h⟩
  | cons a s ih =>
    obtain ⟨hnew, hkeys⟩ := List.nodup_cons.mp hkeys
    obtain ⟨d₁, hinsert, h₁⟩ := hput d m a h (hs a List.mem_cons_self) (hm a List.mem_cons_self)
    have hrest : ∀ b ∈ s, F (put m a) (key b) := by
      intro b hb
      apply hfree m a _ (hm b (List.mem_cons_of_mem _ hb))
      intro he
      exact hnew (he ▸ List.mem_map_of_mem hb)
    obtain ⟨d₂, hfold, h₂⟩ := ih h₁ (fun b hb => hs b (List.mem_cons_of_mem _ hb)) hkeys hrest
    refine ⟨d₂, ?_, h₂⟩
    rw [List.foldlM_cons, hinsert]
    exact hfold

theorem exists_insertTask {d : Database} {m : Memory} {t : Task} (h : d.Mirrors m) (ht : t.IsPlain)
    (hnew : m.tasks.find? t.id = none) : ∃ d', d.insertTask t = .ok d' ∧ d'.Mirrors (m.putTask t) := by
  refine ⟨_, ?_, h.putTask ht⟩
  unfold Database.insertTask Shelf.contains
  rw [h.find?_task, hnew]
  rfl

theorem exists_insertProject {d : Database} {m : Memory} {p : Project} (h : d.Mirrors m)
    (hp : p.IsPlain) (hnew : m.projects.find? p.id = none) :
    ∃ d', d.insertProject p = .ok d' ∧ d'.Mirrors (m.putProject p) := by
  have hnone : d.projects.contains (ProjectRow.written p).key = false := by
    unfold Shelf.contains
    rw [show (ProjectRow.written p).key = .named p.id.text from rfl, h.find?_project, hnew]
    rfl
  refine ⟨_, ?_, h.putProject hp⟩
  unfold Database.insertProject
  rw [ProjectRow.ofProject_eq_ok.mpr ⟨hp.estimatedHours, rfl⟩]
  simp [bind, Except.bind, pure, Except.pure, hnone]

variable {ts : List Task} {ps : List Project}

theorem projects_foldl_putTask (m : Memory) (ts : List Task) :
    (ts.foldl Memory.putTask m).projects = m.projects := by
  induction ts generalizing m with
  | nil => rfl
  | cons t ts ih => exact ih _

theorem entries_ofRecords (ts : List Task) (ps : List Project) :
    (Memory.ofRecords ts ps).entries = Shelf.empty := by
  have htasks (m : Memory) : (ts.foldl Memory.putTask m).entries = m.entries := by
    induction ts generalizing m with
    | nil => rfl
    | cons t ts ih => exact ih _
  have hprojects (m : Memory) : (ps.foldl Memory.putProject m).entries = m.entries := by
    induction ps generalizing m with
    | nil => rfl
    | cons p ps ih => exact ih _
  exact (hprojects _).trans (htasks _)

theorem projects_foldl_holds {P : Project → Prop} {m : Memory} (hm : m.projects.Holds P)
    (hps : ∀ p ∈ ps, P p) : (ps.foldl Memory.putProject m).projects.Holds P := by
  induction ps generalizing m with
  | nil => exact hm
  | cons p ps ih =>
    obtain ⟨hp, hps⟩ := List.forall_mem_cons.mp hps
    exact ih (hm.put hp) hps

theorem mirrors_empty : ({} : Database).Mirrors {} :=
  ⟨rfl, rfl, rfl, Shelf.holds_empty, Shelf.holds_empty, Shelf.holds_empty⟩

theorem mirrors_ofRecords (hts : (ts.map Task.id).Nodup) (hps : (ps.map Project.id).Nodup)
    (htasks : ∀ t ∈ ts, t.IsPlain) (hprojects : ∀ p ∈ ps, p.IsPlain) :
    ∃ d, Database.ofRecords ts ps = .ok d ∧ d.Mirrors (Memory.ofRecords ts ps) := by
  obtain ⟨d₁, hfold₁, h₁⟩ := mirrors_foldl (F := fun m id => m.tasks.find? id = none)
    (fun _ _ _ => exists_insertTask)
    (fun m t _ hnone hne => (Shelf.find?_put_of_ne m.tasks hne).trans hnone)
    mirrors_empty htasks hts (fun _ _ => rfl)
  obtain ⟨d₂, hfold₂, h₂⟩ := mirrors_foldl (F := fun m id => m.projects.find? id = none)
    (fun _ _ _ => exists_insertProject)
    (fun m p _ hnone hne => (Shelf.find?_put_of_ne m.projects hne).trans hnone)
    h₁ hprojects hps (fun p _ => by rw [projects_foldl_putTask]; rfl)
  exact ⟨d₂, bind_eq_ok.mpr ⟨d₁, hfold₁, hfold₂⟩, h₂⟩

end Records

/-- What is read from the rows of a database are the records of a memory, in the same order. -/
structure Database.Reads (d : Database) (m : Memory) : Prop where
  entries : readRows d.entries.items = .ok m.entries.items
  tasks : d.tasks.items.mapM TaskRow.task = .ok m.tasks.items
  projects : d.projects.items.mapM ProjectRow.project = .ok (m.projects.items.map Project.unsigned)

theorem Database.Mirrors.reads {d : Database} {m : Memory} (h : d.Mirrors m) : d.Reads m where
  entries := by
    rw [h.entries]
    exact readRows_map_ofEntry h.copies.plain
  tasks := by
    have hread := mapM_eq_ok (g := id) fun t ht => (h.plainTasks t ht).task_ofTask
    rw [List.map_id] at hread
    rw [h.tasks, List.mapM_map]
    exact hread
  projects := by
    rw [h.projects, List.mapM_map]
    exact mapM_eq_ok fun p hp => (h.plainProjects p hp).project_written

theorem unsigned_of_total (p : Project) {n : Int} (hn : 0 ≤ n) (now : Instant) :
    { p with estimatedHours := hoursOfSeconds n, updated := now : Project }.unsigned =
      { p with estimatedHours := hoursOfSeconds n, updated := now } := by
  unfold Project.unsigned
  rw [hoursOfSeconds_unsigned hn]

/-- A memory and a database that were given the same tasks and projects, each once, give the same
replies in any session, and after every request they hold the same records. Only a zero of hours that
had a sign from the start has none in the database. -/
theorem session_agrees (policy : Policy) (ts : List Task) (ps : List Project) (rs : List Request)
    (ids : IdSource) (hts : (ts.map Task.id).Nodup) (hps : (ps.map Project.id).Nodup)
    (htasks : ∀ t ∈ ts, t.IsPlain) (hprojects : ∀ p ∈ ps, p.IsPlain)
    (htimes : ∀ r ∈ rs, ∀ i ∈ r.times, i.IsPlain)
    (hfresh : ids.IsFresh ((session policy rs).run ⟨Memory.ofRecords ts ps, ids⟩).2.ids.drawn
      fun _ => True)
    (hfits : Memory.Fits policy rs ⟨Memory.ofRecords ts ps, ids⟩) :
    ∃ d, Database.ofRecords ts ps = .ok d ∧ ∀ qs, qs <+: rs →
      let memory := (session policy qs).run ⟨Memory.ofRecords ts ps, ids⟩
      let database := (session policy qs).run ⟨d, ids⟩
      database.1 = memory.1 ∧ database.2.store.Reads memory.2.store ∧
        ((∀ p ∈ ps, p.unsigned = p) → memory.2.store.projects.Holds fun p => p.unsigned = p) := by
  obtain ⟨d, hd, hmirrors⟩ := mirrors_ofRecords hts hps htasks hprojects
  have hunused (id : EntryId) : (Memory.ofRecords ts ps).Unused id := by
    unfold Memory.Unused
    rw [entries_ofRecords]
    rfl
  have hsigns : (Memory.ofRecords ts ps).projects.Holds
      fun p => (∀ q ∈ ps, q.unsigned = q) → p.unsigned = p := by
    apply projects_foldl_holds
    · rw [projects_foldl_putTask]
      exact Shelf.holds_empty
    · exact fun p hp h => h p hp
  refine ⟨d, hd, fun qs hqs => ?_⟩
  obtain ⟨hdrawn, htrace⟩ := session_of_extension policy hqs ⟨Memory.ofRecords ts ps, ids⟩
  obtain ⟨hreplies, hafter, hkept⟩ := session_mirrors policy hmirrors hsigns
    (fun p n now _ hn _ => unsigned_of_total p hn now)
    (fun r hr => htimes r (hqs.subset hr)) (hfresh.mono hdrawn fun id _ => hunused id)
    (fun x hx => hfits x (htrace hx))
  exact ⟨hreplies, hafter.reads, fun h p hp => hkept p hp h⟩

def siteProject : Project :=
  .new ⟨.ofNat 0xb⟩ ⟨.ofNat 3⟩ "site" true .epoch

def siteTask : Task :=
  .new ⟨.ofNat 0xa⟩ siteProject.id "work" .epoch

def siteMinute : List Request :=
  [.create
    { fields := { workspace := some siteProject.workspace.text, project := some siteProject.id.text
                  task := some siteTask.id.text, createdWith := some "test" }
      start := some .epoch, duration := some 60 }
    "00000000-0000-0000-0000-000000000002" .epoch,
    .get "00000000-0000-0000-0000-000000000001",
    .dashboard "00000000-0000-0000-0000-000000000002" (.ofSecond 120 (by decide))]

theorem session_agrees_on_minute :
    ∃ d, Database.ofRecords [siteTask] [siteProject] = .ok d ∧
      ((session {} siteMinute).run ⟨d, .after 0⟩).1 =
        ((session {} siteMinute).run ⟨Memory.ofRecords [siteTask] [siteProject], .after 0⟩).1 ∧
      ((session {} siteMinute).run ⟨d, .after 0⟩).2.store.Reads
        ((session {} siteMinute).run
          ⟨Memory.ofRecords [siteTask] [siteProject], .after 0⟩).2.store := by
  have hepoch : Instant.epoch.IsPlain := by decide
  have hdrawn : ((session {} siteMinute).run
      ⟨Memory.ofRecords [siteTask] [siteProject], .after 0⟩).2.ids.drawn = 1 := by
    decide +kernel
  have htask : ∀ t ∈ [siteTask], t.IsPlain := by
    intro t ht
    obtain rfl := List.mem_singleton.mp ht
    exact ⟨hepoch, hepoch⟩
  have hproject : ∀ p ∈ [siteProject], p.IsPlain := by
    intro p hp
    obtain rfl := List.mem_singleton.mp hp
    exact ⟨hepoch, hepoch, rfl⟩
  have hfresh : (IdSource.after 0).IsFresh ((session {} siteMinute).run
      ⟨Memory.ofRecords [siteTask] [siteProject], .after 0⟩).2.ids.drawn fun _ => True := by
    rw [hdrawn]
    exact fun n _ hn => ⟨trivial, fun m _ hm _ => by omega⟩
  have hfits : Memory.Fits {} siteMinute
      ⟨Memory.ofRecords [siteTask] [siteProject], .after 0⟩ := by
    unfold Memory.Fits
    decide +kernel
  obtain ⟨d, hd, h⟩ := session_agrees {} [siteTask] [siteProject] siteMinute (.after 0)
    (by decide) (by decide) htask hproject (by decide +kernel) hfresh hfits
  obtain ⟨hreplies, hreads, -⟩ := h siteMinute List.prefix_rfl
  exact ⟨d, hd, hreplies, hreads⟩

end Timesheet
