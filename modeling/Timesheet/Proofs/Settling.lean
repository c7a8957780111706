import Timesheet.Proofs.Bookkeeping

/-!
Batches, step by step. An item of a batch is tried on the entry it names; if an entry is changed and
totals follow, they are brought up to date one after the other, until one cannot be. What is answered
is told exactly.
-/

namespace Timesheet

open Service

inductive Total where
  | task (id : TaskId)
  | project (id : ProjectId)

namespace Total

def isAbsent : Total → Bool
  | task id => id.isAbsent
  | project id => id.isAbsent

def Counts : Total → Entry → Prop
  | task id, e => e.task = id
  | project id, e => e.project = id

variable {σ : Type} [Store σ]

def sum (s : σ) : Total → Except StoreFault Int
  | task id => Store.taskTotal s id
  | project id => Store.projectTotal s id

def write (s : σ) (n : Int) (now : Instant) : Total → Except StoreFault σ
  | task id => Store.writeTracked s id n now
  | project id => Prod.snd <$> Store.writeEstimate s id (hoursOfSeconds n) now

def sumFault : Total → StoreFault → ServiceFault
  | task id => addressFault .sumTask id
  | project id => addressFault .sumProject id

def writeFault : Total → StoreFault → ServiceFault
  | task id => addressFault .writeTask id
  | project id => addressFault .writeProject id

end Total

def totals (e e' : Entry) : List Total :=
  (targets [e.task, e'.task]).map .task ++ (targets [e.project, e'.project]).map .project

theorem mem_totals {t : Total} {e e' : Entry} :
    t ∈ totals e e' ↔ t.isAbsent = false ∧ (t.Counts e ∨ t.Counts e') := by
  unfold totals
  rw [List.mem_append, List.mem_map, List.mem_map]
  cases t with
  | task id =>
    simp [mem_targets, Total.isAbsent, Total.Counts, and_comm, eq_comm (a := id)]
  | project id =>
    simp [mem_targets, Total.isAbsent, Total.Counts, and_comm, eq_comm (a := id)]

section Settles

variable {σ : Type} [Store σ]

inductive Settles (now : Instant) : σ → List Total → Except ServiceFault Unit → σ → Prop
  | done (s : σ) : Settles now s [] (.ok ()) s
  | unsummed {s : σ} {t : Total} {ts : List Total} {f : StoreFault} (h : t.sum s = .error f) :
      Settles now s (t :: ts) (.error (t.sumFault f)) s
  | unwritten {s : σ} {t : Total} {ts : List Total} {n : Int} {f : StoreFault}
      (hsum : t.sum s = .ok n) (h : t.write s n now.wholeSecond = .error f) :
      Settles now s (t :: ts) (.error (t.writeFault f)) s
  | next {s s₁ s₂ : σ} {t : Total} {ts : List Total} {n : Int} {r : Except ServiceFault Unit}
      (hsum : t.sum s = .ok n) (hwrite : t.write s n now.wholeSecond = .ok s₁)
      (h : Settles now s₁ ts r s₂) : Settles now s (t :: ts) r s₂

variable {now : Instant} {ts : List Total} {op : Operation Unit}

def Operation.Settles (σ : Type) [Store σ] (now : Instant) (ts : List Total)
    (op : Operation Unit) : Prop :=
  ∀ d : Desk σ, ∃ r s, op.run.run d = (r, { d with store := s }) ∧ Timesheet.Settles now d.store ts r s

namespace Operation

theorem settles_pure : Settles σ now [] (pure ()) :=
  fun d => ⟨_, d.store, rfl, .done _⟩

theorem Settles.syncTask_bind (h : Settles σ now ts op) (id : TaskId) :
    Settles σ now (.task id :: ts) (syncTask id now >>= fun _ => op) := by
  intro d
  have hask := ran_addressing d .sumTask id (.taskTotal id)
  cases hsum : Store.taskTotal d.store id with
  | error f =>
    simp only [Call.perform, hsum, Except.mapError] at hask
    exact ⟨_, _, (ran_bind_error (ran_bind_error hask)).run,
      .unsummed (t := .task id) hsum⟩
  | ok n =>
    simp only [Call.perform, hsum, Except.mapError] at hask
    have hput := ran_addressing d .writeTask id (.writeTracked id n now.wholeSecond)
    cases hwrite : Store.writeTracked d.store id n now.wholeSecond with
    | error f =>
      simp only [Call.perform, hwrite, changed, Except.mapError] at hput
      exact ⟨_, _, (ran_bind_error (ran_bind_ok hask (ran_bind_error hput))).run,
        .unwritten (t := .task id) hsum hwrite⟩
    | ok s₁ =>
      simp only [Call.perform, hwrite, changed, Except.mapError] at hput
      obtain ⟨r, s₂, hrun, hrest⟩ := h { d with store := s₁ }
      have hsync : Ran d (syncTask id now).run (.ok ⟨id, n⟩) { d with store := s₁ } _ :=
        ran_bind_ok hask (ran_bind_ok hput (ran_ok _ _))
      exact ⟨r, s₂, (ran_bind_ok hsync ⟨hrun, rfl⟩).run, .next (t := .task id) hsum hwrite hrest⟩

theorem Settles.syncProject_bind (h : Settles σ now ts op) (id : ProjectId) :
    Settles σ now (.project id :: ts) (syncProject id now >>= fun _ => op) := by
  intro d
  have hask := ran_addressing d .sumProject id (.projectTotal id)
  cases hsum : Store.projectTotal d.store id with
  | error f =>
    simp only [Call.perform, hsum, Except.mapError] at hask
    exact ⟨_, _, (ran_bind_error (ran_bind_error hask)).run,
      .unsummed (t := .project id) hsum⟩
  | ok n =>
    simp only [Call.perform, hsum, Except.mapError] at hask
    have hput := ran_addressing d .writeProject id
      (.writeEstimate id (hoursOfSeconds n) now.wholeSecond)
    cases hwrite : Store.writeEstimate d.store id (hoursOfSeconds n) now.wholeSecond with
    | error f =>
      simp only [Call.perform, hwrite, changedIf, Except.mapError] at hput
      exact ⟨_, _, (ran_bind_error (ran_bind_ok hask (ran_bind_error hput))).run,
        .unwritten (t := .project id) hsum (congrArg (Prod.snd <$> ·) hwrite)⟩
    | ok bs =>
      obtain ⟨b, s₁⟩ := bs
      simp only [Call.perform, hwrite, changedIf, Except.mapError] at hput
      obtain ⟨r, s₂, hrun, hrest⟩ := h { d with store := s₁ }
      have hsync : Ran d (syncProject id now).run (.ok ⟨id, hoursOfSeconds n, b⟩)
          { d with store := s₁ } _ :=
        ran_bind_ok hask (ran_bind_ok hput (ran_ok _ _))
      exact ⟨r, s₂, (ran_bind_ok hsync ⟨hrun, rfl⟩).run,
        .next (t := .project id) hsum (congrArg (Prod.snd <$> ·) hwrite) hrest⟩

theorem Settles.syncTasks_bind (h : Settles σ now ts op) (ids : List TaskId) :
    Settles σ now (ids.map .task ++ ts) (syncTasks now ids >>= fun _ => op) := by
  induction ids with
  | nil =>
    rw [syncTasks, pure_bind]
    exact h
  | cons id ids ih =>
    rw [syncTasks, bind_assoc]
    exact ih.syncTask_bind id

theorem settles_syncProjects (ids : List ProjectId) :
    Settles σ now (ids.map .project) (syncProjects now ids) := by
  induction ids with
  | nil => exact settles_pure
  | cons id ids ih => exact ih.syncProject_bind id

theorem settles_syncAll (now : Instant) (tasks : List TaskId) (projects : List ProjectId) :
    Settles σ now ((targets tasks).map .task ++ (targets projects).map .project)
      (syncAll tasks projects now) :=
  (settles_syncProjects _).syncTasks_bind _

end Operation

end Settles

/-- A change that is tried on entries one by one. -/
structure Revision where
  apply : Entry → Except Refusal Entry
  follows : Bool
  now : Instant
  id_of_apply {e e' : Entry} (h : apply e = .ok e') : e'.id = e.id

namespace Revision

def patch (policy : Policy) (p : Patch) (now : Instant) : Revision where
  apply e := e.applyPatch p now
  follows := policy.resyncOnEdit
  now := now
  id_of_apply h := (Entry.applyPatch_eq_ok h).2.1

def tags (given : List String) (mode : TagMode) (now : Instant) : Revision where
  apply e := .ok (e.editTags given mode now)
  follows := false
  now := now
  id_of_apply h := by
    obtain ⟨⟩ := h
    rfl

variable {σ : Type} [Store σ] (R : Revision)

def attempt (text : String) (s : σ) : Except ServiceFault (Entry × Entry) := do
  let id ← (Identifier.parse .entry text).mapError fun g => .refused (.identifier g)
  let e ← (Store.fetch s id).mapError (addressFault .loadEntry id)
  let e' ← (R.apply e).mapError .refused
  return (e, e')

theorem attempt_eq_ok {text : String} {s : σ} {e e' : Entry} :
    R.attempt text s = .ok (e, e') ↔ ∃ id, Identifier.parse .entry text = .ok id ∧
      Store.fetch s id = .ok e ∧ R.apply e = .ok e' := by
  unfold attempt
  simp only [bind_eq_ok, mapError_eq_ok, pure, Except.pure, Except.ok.injEq, Prod.mk.injEq]
  constructor
  · rintro ⟨id, hid, e₀, hfetch, e₁, happly, rfl, rfl⟩
    exact ⟨id, hid, hfetch, happly⟩
  · rintro ⟨id, hid, hfetch, happly⟩
    exact ⟨id, hid, e, hfetch, e', happly, rfl, rfl⟩

inductive Tried (text : String) (s : σ) : Except ServiceFault Entry → σ → Prop
  | failed {f : ServiceFault} (h : R.attempt text s = .error f) : Tried text s (.error f) s
  | unsaved {e e' : Entry} {f : StoreFault} (h : R.attempt text s = .ok (e, e'))
      (hreplace : Store.replace s e' = .error f) :
      Tried text s (.error (addressFault .updateEntry e'.id f)) s
  | saved {e e' : Entry} {s₁ : σ} (h : R.attempt text s = .ok (e, e'))
      (hreplace : Store.replace s e' = .ok s₁) (hfollows : R.follows = false) :
      Tried text s (.ok e') s₁
  | settled {e e' : Entry} {s₁ s₂ : σ} {r : Except ServiceFault Unit}
      (h : R.attempt text s = .ok (e, e')) (hreplace : Store.replace s e' = .ok s₁)
      (hfollows : R.follows = true) (hsettles : Settles R.now s₁ (totals e e') r s₂) :
      Tried text s (r.mapError (.stale e.id) >>= fun _ => .ok e') s₂

inductive TriedEach : List String → σ → List BatchItem → σ → Prop
  | nil (s : σ) : TriedEach [] s [] s
  | cons {text : String} {texts : List String} {s s₁ s₂ : σ} {x : Except ServiceFault Entry}
      {items : List BatchItem} (h : R.Tried text s x s₁) (hrest : TriedEach texts s₁ items s₂) :
      TriedEach (text :: texts) s (⟨text, x⟩ :: items) s₂

section Runs

variable {R}

def finish (R : Revision) (e e' : Entry) : Operation Entry :=
  if R.follows then
    resync e.id [e.task, e'.task] [e.project, e'.project] R.now >>= fun _ => pure e'
  else pure e'

def operation (R : Revision) (text : String) : Operation Entry := do
  let e ← load (← identified (Identifier.parse .entry text))
  let e' ← checked (R.apply e)
  save e'
  R.finish e e'

theorem operation_patch (policy : Policy) (text : String) (p : Patch) (now : Instant) :
    (patch policy p now).operation text = update policy text p now := rfl

theorem operation_tags (text : String) (given : List String) (mode : TagMode) (now : Instant) :
    (tags given mode now).operation text = updateTags text given mode now := rfl

theorem run_finish_of_follows (hfollows : R.follows = true) (e e' : Entry) (d : Desk σ) :
    ∃ r s, (R.finish e e').run.run d = (r.mapError (.stale e.id) >>= fun _ => .ok e',
      { d with store := s }) ∧ Settles R.now d.store (totals e e') r s := by
  obtain ⟨r, s, hrun, hsettles⟩ :=
    Operation.settles_syncAll R.now [e.task, e'.task] [e.project, e'.project] d
  have hresync : Ran d (resync e.id [e.task, e'.task] [e.project, e'.project] R.now).run
      (r.mapError (.stale e.id)) { d with store := s } _ := Ran.map _ ⟨hrun, rfl⟩
  refine ⟨r, s, ?_, hsettles⟩
  rw [finish, if_pos hfollows]
  cases r with
  | error f => exact (Operation.ran_bind_error hresync).run
  | ok u => exact (Operation.ran_bind_ok hresync (Operation.ran_ok _ e')).run

def trial (R : Revision) (text : String) : Operation (Entry × Entry) := do
  let e ← load (← identified (Identifier.parse .entry text))
  let e' ← checked (R.apply e)
  return (e, e')

theorem operation_eq (R : Revision) (text : String) :
    R.operation text = R.trial text >>= fun p => save p.2 >>= fun _ => R.finish p.1 p.2 := by
  simp only [operation, trial, bind_assoc, pure_bind]

theorem run_trial (R : Revision) (text : String) (d : Desk σ) :
    (R.trial text).run.run d = (R.attempt text d.store, d) := by
  cases hid : Identifier.parse .entry text with
  | error g =>
    rw [trial, attempt, hid]
    rfl
  | ok id =>
    have htrial : R.trial text = load id >>= fun e => checked (R.apply e) >>= fun e' =>
        pure (e, e') := by
      rw [trial, hid]
      rfl
    have hattempt : R.attempt text d.store = ((Store.fetch d.store id).mapError
        (addressFault .loadEntry id) >>= fun e => (R.apply e).mapError ServiceFault.refused >>=
          fun e' => .ok (e, e')) := by
      rw [attempt, hid]
      rfl
    have hload : Ran d (load id).run
        ((Store.fetch d.store id).mapError (addressFault .loadEntry id)) d _ :=
      Operation.ran_addressing d .loadEntry id (.fetch id)
    rw [htrial, hattempt]
    cases hfetch : Store.fetch d.store id with
    | error f =>
      rw [hfetch] at hload
      exact (Operation.ran_bind_error hload).run
    | ok e =>
      rw [hfetch] at hload
      change _ = ((R.apply e).mapError ServiceFault.refused >>= fun e' => .ok (e, e'), d)
      rcases Operation.ran_checked d (R.apply e) with ⟨g, hg, hcheck⟩ | ⟨e', happly, hcheck⟩
      · refine (Operation.ran_bind_ok hload (Operation.ran_bind_error hcheck)).run.trans ?_
        rw [hg]
        rfl
      · refine (Operation.ran_bind_ok hload (Operation.ran_bind_ok hcheck
          (Operation.ran_ok d (e, e')))).run.trans ?_
        rw [happly]
        rfl

theorem run_operation (R : Revision) (text : String) (d : Desk σ) :
    ∃ x s, (R.operation text).run.run d = (x, { d with store := s }) ∧ R.Tried text d.store x s := by
  rw [operation_eq]
  have htrial := R.run_trial text d
  cases hattempt : R.attempt text d.store with
  | error f =>
    rw [hattempt] at htrial
    exact ⟨_, _, (Operation.ran_bind_error ⟨htrial, rfl⟩).run, .failed hattempt⟩
  | ok p =>
    obtain ⟨e, e'⟩ := p
    rw [hattempt] at htrial
    have hsave := Operation.ran_addressing d .updateEntry e'.id (.replace e')
    cases hreplace : Store.replace d.store e' with
    | error f =>
      simp only [Call.perform, hreplace, changed, Except.mapError] at hsave
      exact ⟨_, _, (Operation.ran_bind_ok ⟨htrial, rfl⟩ (Operation.ran_bind_error hsave)).run,
        .unsaved hattempt hreplace⟩
    | ok s₁ =>
      simp only [Call.perform, hreplace, changed, Except.mapError] at hsave
      cases hfollows : R.follows with
      | false =>
        have hfinish : Ran { d with store := s₁ } (R.finish e e').run (.ok e')
            { d with store := s₁ } [] := by
          rw [finish, hfollows]
          exact Operation.ran_ok _ e'
        exact ⟨_, _, (Operation.ran_bind_ok ⟨htrial, rfl⟩ (Operation.ran_bind_ok hsave hfinish)).run,
          .saved hattempt hreplace hfollows⟩
      | true =>
        obtain ⟨r, s₂, hfinish, hsettles⟩ :=
          run_finish_of_follows hfollows e e' { d with store := s₁ }
        exact ⟨_, s₂, (Operation.ran_bind_ok ⟨htrial, rfl⟩
          (Operation.ran_bind_ok hsave ⟨hfinish, rfl⟩)).run,
          .settled hattempt hreplace hfollows hsettles⟩

theorem run_forEachId (texts : List String) (d : Desk σ) :
    ∃ items s, (forEachId R.operation texts).run d = (items, { d with store := s }) ∧
      R.TriedEach texts d.store items s := by
  induction texts generalizing d with
  | nil => exact ⟨[], d.store, rfl, .nil _⟩
  | cons text texts ih =>
    obtain ⟨x, s₁, hrun, htried⟩ := R.run_operation text d
    obtain ⟨items, s₂, hrest, hall⟩ := ih { d with store := s₁ }
    refine ⟨⟨text, x⟩ :: items, s₂, ?_, .cons htried hall⟩
    rw [run_forEachId_cons, hrun, hrest]

end Runs

end Revision
end Timesheet
