import Timesheet.Proofs.Codec
import Timesheet.Proofs.Program
import Timesheet.Service.Session

namespace Timesheet

open Service

variable {α β σ : Type} [Store σ]

structure Ran (d : Desk σ) (p : Program α) (a : α) (d' : Desk σ) (t : List (σ × Call)) : Prop where
  run : p.run d = (a, d')
  trace : p.trace d = t

theorem Ran.bind {d d₁ d₂ : Desk σ} {p : Program α} {f : α → Program β} {a : α} {b : β}
    {t u : List (σ × Call)} (hp : Ran d p a d₁ t) (hf : Ran d₁ (f a) b d₂ u) :
    Ran d (p >>= f) b d₂ (t ++ u) := by
  constructor
  · rw [Program.run_bind, hp.run, hf.run]
  · rw [Program.trace_bind, hp.run, hp.trace, hf.trace]

theorem ran_pure (d : Desk σ) (a : α) : Ran d (pure a) a d [] :=
  ⟨rfl, rfl⟩

theorem Ran.map {d d' : Desk σ} {p : Program α} {a : α} {t : List (σ × Call)} (f : α → β)
    (hp : Ran d p a d' t) : Ran d (f <$> p) (f a) d' t := by
  rw [map_eq_pure_bind, ← List.append_nil t]
  exact hp.bind (ran_pure d' (f a))

/-- The instants that a call writes down, as its answer tells. -/
def Call.recorded : (c : Call) → Except StoreFault c.Answer → List Instant
  | insert e, .ok _ => e.instants
  | replace e, .ok _ => e.instants
  | writeTracked _ _ now, .ok _ => [now]
  | writeEstimate _ _ now, .ok true => [now]
  | _, _ => []

def recorded (t : List (σ × Call)) : List Instant :=
  t.flatMap fun x => x.2.recorded (x.2.perform x.1).1

theorem recorded_append (t u : List (σ × Call)) : recorded (t ++ u) = recorded t ++ recorded u :=
  List.flatMap_append

namespace Operation

variable {d d₁ d₂ : Desk σ} {op : Operation α} {f : α → Operation β} {a : α}
  {r : Except ServiceFault β} {t u : List (σ × Call)}

theorem ran_bind_ok (hop : Ran d op.run (.ok a) d₁ t) (hf : Ran d₁ (f a).run r d₂ u) :
    Ran d (op >>= f).run r d₂ (t ++ u) := by
  rw [ExceptT.run_bind]
  exact hop.bind hf

theorem ran_bind_error {e : ServiceFault} (hop : Ran d op.run (.error e) d₁ t) :
    Ran d (op >>= f).run (.error e) d₁ t := by
  rw [ExceptT.run_bind, ← List.append_nil t]
  exact hop.bind (ran_pure d₁ _)

theorem ran_ok (d : Desk σ) (a : α) : Ran d (pure a : Operation α).run (.ok a) d [] :=
  ⟨rfl, rfl⟩

theorem ran_checked (d : Desk σ) (r : Except Refusal α) :
    (∃ g, r = .error g ∧ Ran d (checked r).run (.error (.refused g)) d []) ∨
      ∃ a, r = .ok a ∧ Ran d (checked r).run (.ok a) d [] := by
  cases r with
  | error g => exact .inl ⟨g, rfl, rfl, rfl⟩
  | ok a => exact .inr ⟨a, rfl, rfl, rfl⟩

theorem ran_draw (d : Desk σ) :
    Ran d draw.run (.ok d.ids.next) { d with ids := d.ids.advance } [] :=
  ⟨rfl, rfl⟩

theorem ran_addressing {kind : IdentifierKind} (d : Desk σ) (action : Action)
    (id : Identifier kind) (c : Call) : Ran d (addressing action id c).run
      ((c.perform d.store).1.mapError (addressFault action id))
      { d with store := (c.perform d.store).2 } [(d.store, c)] :=
  ⟨rfl, rfl⟩

theorem ran_asking (d : Desk σ) (action : Action) (c : Call) : Ran d (asking action c).run
    ((c.perform d.store).1.mapError (.store action))
    { d with store := (c.perform d.store).2 } [(d.store, c)] :=
  ⟨rfl, rfl⟩

end Operation

/-- Sums were asked for and written down at the time `now`, those of `ts` and `ps` with success. Other
calls wrote nothing. -/
inductive Synced (now : Instant) : σ → List TaskId → List ProjectId → σ → List (σ × Call) → Prop
  | done (s : σ) : Synced now s [] [] s []
  | task {s s₁ s₂ : σ} {id : TaskId} {n : Int} {ts : List TaskId} {ps : List ProjectId}
      {t : List (σ × Call)} (hsum : Store.taskTotal s id = .ok n)
      (hwrite : Store.writeTracked s id n now.wholeSecond = .ok s₁) (h : Synced now s₁ ts ps s₂ t) :
      Synced now s (id :: ts) ps s₂
        ((s, .taskTotal id) :: (s, .writeTracked id n now.wholeSecond) :: t)
  | project {s s₁ s₂ : σ} {id : ProjectId} {n : Int} {b : Bool} {ts : List TaskId}
      {ps : List ProjectId} {t : List (σ × Call)} (hsum : Store.projectTotal s id = .ok n)
      (hwrite : Store.writeEstimate s id (hoursOfSeconds n) now.wholeSecond = .ok (b, s₁))
      (h : Synced now s₁ ts ps s₂ t) :
      Synced now s ts (id :: ps) s₂ ((s, .projectTotal id) ::
        (s, .writeEstimate id (hoursOfSeconds n) now.wholeSecond) :: t)
  | quiet {s s₂ : σ} {c : Call} {ts : List TaskId} {ps : List ProjectId} {t : List (σ × Call)}
      (hstore : (c.perform s).2 = s) (hnone : c.recorded (c.perform s).1 = [])
      (h : Synced now s ts ps s₂ t) : Synced now s ts ps s₂ ((s, c) :: t)

theorem Synced.append {now : Instant} {s s₁ s₂ : σ} {ts ts' : List TaskId}
    {ps ps' : List ProjectId} {t u : List (σ × Call)} (h : Synced now s ts ps s₁ t)
    (h' : Synced now s₁ ts' ps' s₂ u) : Synced now s (ts ++ ts') (ps ++ ps') s₂ (t ++ u) := by
  induction h with
  | done s => exact h'
  | task hsum hwrite h ih => exact .task hsum hwrite (ih h')
  | project hsum hwrite h ih => exact .project hsum hwrite (ih h')
  | quiet hstore hnone h ih => exact .quiet hstore hnone (ih h')

/-- An operation brings totals up to date, none but those of `ts` and `ps`; if it succeeds, all. -/
def Syncs (now : Instant) (d : Desk σ) (op : Operation α) (ts : List TaskId)
    (ps : List ProjectId) : Prop :=
  ∃ (r : Except ServiceFault α) (s : σ) (ts' : List TaskId) (ps' : List ProjectId)
    (t : List (σ × Call)), Ran d op.run r { d with store := s } t ∧
      Synced now d.store ts' ps' s t ∧ ts' ⊆ ts ∧ ps' ⊆ ps ∧
        (r.isOk = true → ts' = ts ∧ ps' = ps)

theorem Syncs.bind {now : Instant} {d : Desk σ} {op : Operation α} {f : α → Operation β}
    {ts ts' : List TaskId} {ps ps' : List ProjectId} (h : Syncs now d op ts ps)
    (hf : ∀ a (s : σ), Syncs now { d with store := s } (f a) ts' ps') :
    Syncs now d (op >>= f) (ts ++ ts') (ps ++ ps') := by
  obtain ⟨r, s, us, qs, t, hran, hsync, hus, hqs, hr⟩ := h
  cases r with
  | error e =>
    exact ⟨_, s, us, qs, t, Operation.ran_bind_error hran, hsync,
      List.subset_append_of_subset_left _ hus, List.subset_append_of_subset_left _ hqs, nofun⟩
  | ok a =>
    obtain ⟨rfl, rfl⟩ := hr rfl
    obtain ⟨r, s₁, us', qs', u, hran', hsync', hus', hqs', hr'⟩ := hf a s
    have happend {κ : Type} {us vs ws : List κ} (h : vs ⊆ ws) : us ++ vs ⊆ us ++ ws :=
      List.append_subset.mpr
        ⟨List.subset_append_left _ _, List.subset_append_of_subset_right _ h⟩
    refine ⟨r, s₁, _, _, _, Operation.ran_bind_ok hran hran', hsync.append hsync', happend hus',
      happend hqs', ?_⟩
    intro hok
    obtain ⟨rfl, rfl⟩ := hr' hok
    exact ⟨rfl, rfl⟩

theorem syncs_pure (now : Instant) (d : Desk σ) (a : α) : Syncs now d (pure a) [] [] :=
  ⟨_, d.store, [], [], [], Operation.ran_ok d a, .done _, List.nil_subset _, List.nil_subset _,
    fun _ => ⟨rfl, rfl⟩⟩

theorem syncs_syncTask (now : Instant) (d : Desk σ) (id : TaskId) :
    Syncs now d (syncTask id now) [id] [] := by
  have hask := Operation.ran_addressing d .sumTask id (.taskTotal id)
  cases hsum : Store.taskTotal d.store id with
  | error e =>
    simp only [Call.perform, hsum, Except.mapError] at hask
    refine ⟨_, d.store, [], [], _, Operation.ran_bind_error hask, .quiet rfl ?_ (.done _),
      List.nil_subset _, List.nil_subset _, nofun⟩
    simp [Call.recorded]
  | ok n =>
    simp only [Call.perform, hsum, Except.mapError] at hask
    have hput := Operation.ran_addressing d .writeTask id (.writeTracked id n now.wholeSecond)
    cases hwrite : Store.writeTracked d.store id n now.wholeSecond with
    | error e =>
      simp only [Call.perform, hwrite, changed, Except.mapError] at hput
      refine ⟨_, d.store, [], [], _, Operation.ran_bind_ok hask (Operation.ran_bind_error hput),
        .quiet rfl ?_ (.quiet ?_ ?_ (.done _)), List.nil_subset _, List.nil_subset _, nofun⟩
      · simp [Call.recorded]
      · simp [Call.perform, hwrite, changed]
      · simp [Call.perform, hwrite, changed, Call.recorded]
    | ok s =>
      simp only [Call.perform, hwrite, changed, Except.mapError] at hput
      exact ⟨_, s, [id], [], _, Operation.ran_bind_ok hask
        (Operation.ran_bind_ok hput (Operation.ran_ok _ _)), .task hsum hwrite (.done _),
        List.Subset.refl _, List.Subset.refl _, fun _ => ⟨rfl, rfl⟩⟩

theorem syncs_syncProject (now : Instant) (d : Desk σ) (id : ProjectId) :
    Syncs now d (syncProject id now) [] [id] := by
  have hask := Operation.ran_addressing d .sumProject id (.projectTotal id)
  cases hsum : Store.projectTotal d.store id with
  | error e =>
    simp only [Call.perform, hsum, Except.mapError] at hask
    refine ⟨_, d.store, [], [], _, Operation.ran_bind_error hask, .quiet rfl ?_ (.done _),
      List.nil_subset _, List.nil_subset _, nofun⟩
    simp [Call.recorded]
  | ok n =>
    simp only [Call.perform, hsum, Except.mapError] at hask
    have hput := Operation.ran_addressing d .writeProject id
      (.writeEstimate id (hoursOfSeconds n) now.wholeSecond)
    cases hwrite : Store.writeEstimate d.store id (hoursOfSeconds n) now.wholeSecond with
    | error e =>
      simp only [Call.perform, hwrite, changedIf, Except.mapError] at hput
      refine ⟨_, d.store, [], [], _, Operation.ran_bind_ok hask (Operation.ran_bind_error hput),
        .quiet rfl ?_ (.quiet ?_ ?_ (.done _)), List.nil_subset _, List.nil_subset _, nofun⟩
      · simp [Call.recorded]
      · simp [Call.perform, hwrite, changedIf]
      · simp [Call.perform, hwrite, changedIf, Call.recorded]
    | ok bs =>
      obtain ⟨b, s⟩ := bs
      simp only [Call.perform, hwrite, changedIf, Except.mapError] at hput
      exact ⟨_, s, [], [id], _, Operation.ran_bind_ok hask
        (Operation.ran_bind_ok hput (Operation.ran_ok _ _)), .project hsum hwrite (.done _),
        List.Subset.refl _, List.Subset.refl _, fun _ => ⟨rfl, rfl⟩⟩

theorem syncs_syncTasks (now : Instant) (ids : List TaskId) (d : Desk σ) :
    Syncs now d (syncTasks now ids) ids [] := by
  induction ids generalizing d with
  | nil => exact syncs_pure now d ()
  | cons id ids ih => exact (syncs_syncTask now d id).bind fun _ s => ih { d with store := s }

theorem syncs_syncProjects (now : Instant) (ids : List ProjectId) (d : Desk σ) :
    Syncs now d (syncProjects now ids) [] ids := by
  induction ids generalizing d with
  | nil => exact syncs_pure now d ()
  | cons id ids ih => exact (syncs_syncProject now d id).bind fun _ s => ih { d with store := s }

theorem syncs_syncAll (now : Instant) (tasks : List TaskId) (projects : List ProjectId)
    (d : Desk σ) : Syncs now d (syncAll tasks projects now) (targets tasks) (targets projects) := by
  have h := (syncs_syncTasks now (targets tasks) d).bind fun _ s =>
    syncs_syncProjects now (targets projects) { d with store := s }
  rwa [List.append_nil, List.nil_append] at h

theorem ran_resync (entry : EntryId) (tasks : List TaskId) (projects : List ProjectId)
    (now : Instant) (d : Desk σ) : ∃ (r : Except ServiceFault Unit) (s : σ) (ts : List TaskId)
      (ps : List ProjectId) (t : List (σ × Call)),
      Ran d (resync entry tasks projects now).run r { d with store := s } t ∧
        Synced now d.store ts ps s t ∧ ts ⊆ targets tasks ∧ ps ⊆ targets projects ∧
          ((r = .ok () ∧ ts = targets tasks ∧ ps = targets projects) ∨
            ∃ cause, r = .error (.stale entry cause)) := by
  obtain ⟨r, s, ts, ps, t, hran, hsync, hts, hps, hr⟩ := syncs_syncAll now tasks projects d
  refine ⟨r.mapError (.stale entry), s, ts, ps, t, hran.map _, hsync, hts, hps, ?_⟩
  cases r with
  | ok u => exact .inl ⟨rfl, hr rfl⟩
  | error e => exact .inr ⟨e, rfl⟩

end Timesheet
