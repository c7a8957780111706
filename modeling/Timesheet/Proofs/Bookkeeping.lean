import Timesheet.Proofs.Fresh
import Timesheet.Proofs.Outcome

/-!
Totals that follow the entries. A store keeps its books if a change of an entry leaves alone what the
entry does not count for, and if writing a sum down brings that total up to date. Main statement: when
totals follow every change, all of them are up to date after any run, but for those that an operation
answered with a stale fault has left behind.
-/

namespace Timesheet

open Service

variable {σ : Type} [Store σ]

def Touches (t : List (σ × Call)) (e : Entry) : Prop :=
  ∃ s, (s, Call.insert e) ∈ t ∨ (s, Call.replace e) ∈ t ∨
    ∃ id, (s, Call.fetch id) ∈ t ∧ Store.fetch s id = .ok e

def WritesTask (t : List (σ × Call)) (id : TaskId) : Prop :=
  ∃ s n now s', (s, Call.writeTracked id n now) ∈ t ∧ Store.writeTracked s id n now = .ok s'

def WritesProject (t : List (σ × Call)) (id : ProjectId) : Prop :=
  ∃ s hours now s', (s, Call.writeEstimate id hours now) ∈ t ∧
    Store.writeEstimate s id hours now = .ok (true, s')

/-- Totals that are allowed to be behind. -/
structure Overdue where
  tasks : Set TaskId
  projects : Set ProjectId

namespace Overdue

def none : Overdue :=
  ⟨∅, ∅⟩

/-- A stale fault makes the totals overdue that the entry counts for, before or after the change; to
be written makes a total not overdue. -/
def after (o : Overdue) (reply : Reply) (t : List (σ × Call)) : Overdue where
  tasks := {id | (id ∈ o.tasks ∨ reply.IsStale ∧ ∃ e, Touches t e ∧ e.task = id) ∧ ¬WritesTask t id}
  projects := {id | (id ∈ o.projects ∨ reply.IsStale ∧ ∃ e, Touches t e ∧ e.project = id) ∧
    ¬WritesProject t id}

end Overdue

def overdue (policy : Policy) : List Request → Desk σ → Overdue → Overdue
  | [], _, o => o
  | r :: rs, d, o =>
    let ran := (r.program policy).run d
    overdue policy rs ran.2 (o.after ran.1 ((r.program policy).trace d))

/-- How a store keeps its books: `Task s id` and `Project s id` tell that a total is up to date. -/
structure Bookkeeping (Good : σ → Prop) (Unused : σ → EntryId → Prop) (Task : σ → TaskId → Prop)
    (Project : σ → ProjectId → Prop) : Prop where
  edited : ∀ {now : Instant} {d : Desk σ} {old new : Option Entry} {s : σ} {t : List (σ × Call)},
    Good d.store → Edited now d old new s t →
      Inserts Unused t → Good s ∧
        (∀ id, (∀ e, e ∈ old ∨ e ∈ new → e.task ≠ id) ∨ Unmoved old new →
          Task d.store id → Task s id) ∧
        ∀ id, (∀ e, e ∈ old ∨ e ∈ new → e.project ≠ id) ∨ Unmoved old new →
          Project d.store id → Project s id
  task : ∀ {s s' : σ} {id : TaskId} {n : Int} {now : Instant}, Good s →
    Store.taskTotal s id = .ok n → Store.writeTracked s id n now = .ok s' →
      Good s' ∧ Task s' id ∧ (∀ id, Task s id → Task s' id) ∧ ∀ id, Project s id → Project s' id
  project : ∀ {s s' : σ} {id : ProjectId} {n : Int} {b : Bool} {now : Instant}, Good s →
    Store.projectTotal s id = .ok n →
    Store.writeEstimate s id (hoursOfSeconds n) now = .ok (b, s') →
      Good s' ∧ Project s' id ∧ (∀ id, Task s id → Task s' id) ∧ ∀ id, Project s id → Project s' id

section Calls

variable {now : Instant} {d : Desk σ} {s s' : σ} {t u : List (σ × Call)}

theorem writesTask_append {id : TaskId} :
    WritesTask (t ++ u) id ↔ WritesTask t id ∨ WritesTask u id := by
  simp only [WritesTask, List.mem_append, or_and_right, exists_or]

theorem writesProject_append {id : ProjectId} :
    WritesProject (t ++ u) id ↔ WritesProject t id ∨ WritesProject u id := by
  simp only [WritesProject, List.mem_append, or_and_right, exists_or]

theorem not_writesTask_of_recorded {id : TaskId} (h : recorded t = []) : ¬WritesTask t id := by
  rintro ⟨s, n, now, s', hmem, hok⟩
  have := List.flatMap_eq_nil_iff.mp h _ hmem
  simp [Call.recorded, Call.perform, hok, changed] at this

theorem not_writesProject_of_recorded {id : ProjectId} (h : recorded t = []) :
    ¬WritesProject t id := by
  rintro ⟨s, hours, now, s', hmem, hok⟩
  have := List.flatMap_eq_nil_iff.mp h _ hmem
  simp [Call.recorded, Call.perform, hok, changedIf] at this

theorem not_writes_of_edited {old new : Option Entry} (h : Edited now d old new s t) :
    (∀ id, ¬WritesTask t id) ∧ ∀ id, ¬WritesProject t id := by
  cases h <;> simp [WritesTask, WritesProject]

theorem touches_of_edited {old new : Option Entry} (h : Edited now d old new s t) {e : Entry}
    (he : e ∈ old ∨ e ∈ new) : Touches (t ++ u) e := by
  cases h with
  | insert hid hwritten h =>
    obtain ⟨⟨⟩⟩ | ⟨⟨⟩⟩ := he
    exact ⟨d.store, .inl (by simp)⟩
  | replace hfetch hid hwritten h =>
    obtain ⟨⟨⟩⟩ | ⟨⟨⟩⟩ := he
    · exact ⟨d.store, .inr (.inr ⟨_, by simp, hfetch⟩)⟩
    · exact ⟨d.store, .inr (.inl (by simp))⟩
  | erase hfetch h =>
    obtain ⟨⟨⟩⟩ | ⟨⟨⟩⟩ := he
    exact ⟨d.store, .inr (.inr ⟨_, by simp, hfetch⟩)⟩

theorem mem_of_writes_synced {ts : List TaskId} {ps : List ProjectId}
    (h : Synced now s ts ps s' t) :
    (∀ id, WritesTask t id → id ∈ ts) ∧ ∀ id, WritesProject t id → id ∈ ps := by
  induction h with
  | done s => simp [WritesTask, WritesProject]
  | @task s s₁ s₂ id n ts ps t hsum hwrite h ih =>
    refine ⟨fun id' hid => ?_, fun id' hid => ih.2 id' ?_⟩
    · obtain ⟨s, m, now, s', hmem, hok⟩ := hid
      simp only [List.mem_cons, Prod.mk.injEq, reduceCtorEq, and_false, false_or,
        Call.writeTracked.injEq] at hmem
      rcases hmem with ⟨-, rfl, -⟩ | hmem
      · exact List.mem_cons_self
      · exact List.mem_cons_of_mem _ (ih.1 id' ⟨s, m, now, s', hmem, hok⟩)
    · obtain ⟨s, hours, now, s', hmem, hok⟩ := hid
      exact ⟨s, hours, now, s', by simpa using hmem, hok⟩
  | @project s s₁ s₂ id n b ts ps t hsum hwrite h ih =>
    refine ⟨fun id' hid => ih.1 id' ?_, fun id' hid => ?_⟩
    · obtain ⟨s, m, now, s', hmem, hok⟩ := hid
      exact ⟨s, m, now, s', by simpa using hmem, hok⟩
    · obtain ⟨s, hours, now, s', hmem, hok⟩ := hid
      simp only [List.mem_cons, Prod.mk.injEq, reduceCtorEq, and_false, false_or,
        Call.writeEstimate.injEq] at hmem
      rcases hmem with ⟨-, rfl, -⟩ | hmem
      · exact List.mem_cons_self
      · exact List.mem_cons_of_mem _ (ih.2 id' ⟨s, hours, now, s', hmem, hok⟩)
  | @quiet s s₂ c ts ps t hstore hnone h ih =>
    have hrecorded : recorded [(s, c)] = [] := by
      simpa [recorded] using hnone
    constructor
    · intro id hid
      rcases writesTask_append.mp (show WritesTask ([(s, c)] ++ t) id from hid) with hid | hid
      · exact absurd hid (not_writesTask_of_recorded hrecorded)
      · exact ih.1 id hid
    · intro id hid
      rcases writesProject_append.mp (show WritesProject ([(s, c)] ++ t) id from hid) with hid | hid
      · exact absurd hid (not_writesProject_of_recorded hrecorded)
      · exact ih.2 id hid

end Calls

section Targets

variable {α : Type} [DecidableEq α]

theorem mem_dedupAdjacent {a : α} {s : List α} : a ∈ dedupAdjacent s ↔ a ∈ s := by
  fun_induction dedupAdjacent s with
  | case1 b s ih => simp [ih]
  | case2 b c s hne ih => simp [ih]
  | case3 s hs => rfl

theorem mem_targets {kind : IdentifierKind} {id : Identifier kind} {ids : List (Identifier kind)} :
    id ∈ targets ids ↔ id ∈ ids ∧ id.isAbsent = false := by
  simp [targets, mem_dedupAdjacent]

end Targets

namespace Bookkeeping

variable {Good : σ → Prop} {Unused : σ → EntryId → Prop} {Task : σ → TaskId → Prop}
  {Project : σ → ProjectId → Prop} {policy : Policy} {now : Instant} {d : Desk σ} {s s' : σ}

theorem synced (B : Bookkeeping Good Unused Task Project) {ts : List TaskId} {ps : List ProjectId}
    {t : List (σ × Call)} (h : Synced now s ts ps s' t) (hs : Good s) :
    Good s' ∧ (∀ id, Task s id ∨ id ∈ ts → Task s' id) ∧
      ∀ id, Project s id ∨ id ∈ ps → Project s' id := by
  induction h with
  | done s => exact ⟨hs, by simp, by simp⟩
  | task hsum hwrite h ih =>
    obtain ⟨hgood, hnew, htasks, hprojects⟩ := B.task hs hsum hwrite
    obtain ⟨hgood', htasks', hprojects'⟩ := ih hgood
    refine ⟨hgood', fun id hid => htasks' id ?_, fun id hid => hprojects' id ?_⟩
    · rcases hid with hid | hid
      · exact .inl (htasks id hid)
      · rcases List.mem_cons.mp hid with rfl | hid
        · exact .inl hnew
        · exact .inr hid
    · exact hid.imp_left (hprojects id)
  | project hsum hwrite h ih =>
    obtain ⟨hgood, hnew, htasks, hprojects⟩ := B.project hs hsum hwrite
    obtain ⟨hgood', htasks', hprojects'⟩ := ih hgood
    refine ⟨hgood', fun id hid => htasks' id ?_, fun id hid => hprojects' id ?_⟩
    · exact hid.imp_left (htasks id)
    · rcases hid with hid | hid
      · exact .inl (hprojects id hid)
      · rcases List.mem_cons.mp hid with rfl | hid
        · exact .inl hnew
        · exact .inr hid
  | quiet hstore hnone h ih => exact ih hs

end Bookkeeping

/-- Every total is up to date that is not overdue. The absent task and project have none. -/
structure UpToDate (Task : σ → TaskId → Prop) (Project : σ → ProjectId → Prop) (o : Overdue)
    (s : σ) : Prop where
  tasks : ∀ id : TaskId, id.isAbsent = false → id ∉ o.tasks → Task s id
  projects : ∀ id : ProjectId, id.isAbsent = false → id ∉ o.projects → Project s id

theorem upToDate_after {Task : σ → TaskId → Prop} {Project : σ → ProjectId → Prop} {o : Overdue}
    {s : σ} {reply : Reply} {t : List (σ × Call)}
    (hts : ∀ id : TaskId, id.isAbsent = false → id ∉ o.tasks →
      (reply.IsStale → ∀ e, Touches t e → e.task ≠ id) → Task s id)
    (hps : ∀ id : ProjectId, id.isAbsent = false → id ∉ o.projects →
      (reply.IsStale → ∀ e, Touches t e → e.project ≠ id) → Project s id)
    (htw : ∀ id, WritesTask t id → Task s id) (hpw : ∀ id, WritesProject t id → Project s id) :
    UpToDate Task Project (o.after reply t) s where
  tasks id habsent hid := by
    by_cases hw : WritesTask t id
    · exact htw id hw
    · refine hts id habsent (fun h => hid ⟨.inl h, hw⟩) fun hstale e he heq => ?_
      exact hid ⟨.inr ⟨hstale, e, he, heq⟩, hw⟩
  projects id habsent hid := by
    by_cases hw : WritesProject t id
    · exact hpw id hw
    · refine hps id habsent (fun h => hid ⟨.inl h, hw⟩) fun hstale e he heq => ?_
      exact hid ⟨.inr ⟨hstale, e, he, heq⟩, hw⟩

namespace Bookkeeping

variable {Good : σ → Prop} {Unused : σ → EntryId → Prop} {Task : σ → TaskId → Prop}
  {Project : σ → ProjectId → Prop} {policy : Policy} {now : Instant} {d : Desk σ} {o : Overdue}

theorem step (B : Bookkeeping Good Unused Task Project) (hpolicy : policy.resyncOnEdit = true)
    {p : Program Reply} (h : Outcome policy now d p) (hs : Good d.store)
    (hfresh : Inserts Unused (p.trace d)) (ho : UpToDate Task Project o d.store) :
    Good (p.run d).2.store ∧
      UpToDate Task Project (o.after (p.run d).1 (p.trace d)) (p.run d).2.store := by
  cases h with
  | refreshed hran h hreply =>
    rw [hran.run, hran.trace]
    obtain ⟨hgood, htasks, hprojects⟩ := B.synced h hs
    obtain ⟨htw, hpw⟩ := mem_of_writes_synced h
    refine ⟨hgood, upToDate_after ?_ ?_ ?_ ?_⟩
    · exact fun id habsent hid _ => htasks id (.inl (ho.tasks id habsent hid))
    · exact fun id habsent hid _ => hprojects id (.inl (ho.projects id habsent hid))
    · exact fun id hw => htasks id (.inr (htw id hw))
    · exact fun id hw => hprojects id (.inr (hpw id hw))
  | handled hp h =>
    subst hp
    cases h with
    | failed hran hstore hf hquiet =>
      have hran := hran.map Reply.entry
      rw [hran.run, hran.trace]
      dsimp only
      rw [hstore]
      refine ⟨hs, upToDate_after ?_ ?_ ?_ ?_⟩
      · exact fun id habsent hid _ => ho.tasks id habsent hid
      · exact fun id habsent hid _ => ho.projects id habsent hid
      · exact fun id hw => absurd hw (not_writesTask_of_recorded hquiet)
      · exact fun id hw => absurd hw (not_writesProject_of_recorded hquiet)
    | kept h hsame hquiet hran =>
      have hran := hran.map Reply.entry
      rw [hran.trace] at hfresh
      rw [hran.run, hran.trace]
      obtain ⟨hgood, htasks, hprojects⟩ :=
        B.edited hs h fun x hx => hfresh x (List.mem_append_right _ hx)
      obtain ⟨htw, hpw⟩ := not_writes_of_edited h
      have hunmoved := hsame hpolicy
      refine ⟨hgood, upToDate_after ?_ ?_ ?_ ?_⟩
      · exact fun id habsent hid _ => htasks id (.inr hunmoved) (ho.tasks id habsent hid)
      · exact fun id habsent hid _ => hprojects id (.inr hunmoved) (ho.projects id habsent hid)
      · intro id hw
        rcases writesTask_append.mp hw with hw | hw
        · exact absurd hw (not_writesTask_of_recorded hquiet)
        · exact absurd hw (htw id)
      · intro id hw
        rcases writesProject_append.mp hw with hw | hw
        · exact absurd hw (not_writesProject_of_recorded hquiet)
        · exact absurd hw (hpw id)
    | @synced old new e r s d' tasks ts projects ps t u h htasks hprojects hsync hr he hran =>
      have hran := hran.map Reply.entry
      rw [hran.trace] at hfresh
      rw [hran.run, hran.trace]
      obtain ⟨hgood, hkept, hkept'⟩ :=
        B.edited hs h fun x hx => hfresh x (List.mem_append_left _ hx)
      obtain ⟨hgood, hts, hps⟩ := B.synced hsync hgood
      obtain ⟨htn, hpn⟩ := not_writes_of_edited h
      obtain ⟨htw, hpw⟩ := mem_of_writes_synced hsync
      refine ⟨hgood, upToDate_after ?_ ?_ ?_ ?_⟩
      · intro id habsent hid hnot
        by_cases hmem : id ∈ ts
        · exact hts id (.inr hmem)
        · refine hts id (.inl (hkept id (.inl fun e he heq => ?_) (ho.tasks id habsent hid)))
          rcases hr with ⟨-, rfl, -⟩ | ⟨cause, rfl⟩
          · exact hmem (mem_targets.mpr ⟨(htasks id).mpr ⟨e, he, heq⟩, habsent⟩)
          · exact hnot ⟨_, cause, rfl⟩ e (touches_of_edited h he) heq
      · intro id habsent hid hnot
        by_cases hmem : id ∈ ps
        · exact hps id (.inr hmem)
        · refine hps id (.inl (hkept' id (.inl fun e he heq => ?_) (ho.projects id habsent hid)))
          rcases hr with ⟨-, -, rfl⟩ | ⟨cause, rfl⟩
          · exact hmem (mem_targets.mpr ⟨(hprojects id).mpr ⟨e, he, heq⟩, habsent⟩)
          · exact hnot ⟨_, cause, rfl⟩ e (touches_of_edited h he) heq
      · intro id hw
        rcases writesTask_append.mp hw with hw | hw
        · exact absurd hw (htn id)
        · exact hts id (.inr (htw id hw))
      · intro id hw
        rcases writesProject_append.mp hw with hw | hw
        · exact absurd hw (hpn id)
        · exact hps id (.inr (hpw id hw))

theorem session (B : Bookkeeping Good Unused Task Project) (hpolicy : policy.resyncOnEdit = true)
    {qs : List Request} (hqs : ∀ q ∈ qs, q.IsSingle) (hs : Good d.store)
    (hfresh : Inserts Unused ((session policy qs).trace d))
    (ho : UpToDate Task Project o d.store) :
    UpToDate Task Project (overdue policy qs d o) ((session policy qs).run d).2.store := by
  induction qs generalizing d o with
  | nil => exact ho
  | cons q qs ih =>
    rw [Timesheet.session, Program.trace_bind] at hfresh
    obtain ⟨now, hnow, -⟩ := q.exists_clock
    have hout := q.outcome policy d (hqs q List.mem_cons_self) hnow
    obtain ⟨hgood, ho'⟩ := B.step hpolicy hout hs
      (fun x hx => hfresh x (List.mem_append_left _ hx)) ho
    rw [Timesheet.session, Program.run_bind, bind_pure_comp, Program.run_map]
    refine ih (fun q hq => hqs q (List.mem_cons_of_mem _ hq)) hgood (fun x hx => ?_) ho'
    refine hfresh x (List.mem_append_right _ ?_)
    rw [Program.trace_bind]
    exact List.mem_append_left _ hx

end Bookkeeping

end Timesheet
