import Timesheet.Proofs.Accounts
import Timesheet.Proofs.Mirror

/-!
How requests to bring totals up to date work. Main statement: they end alike in whatever order and however
often they come, and if a request left totals stale since records were missing, then to add these and to
bring the totals up to date that it concerns leads where the request would have led with the records in
place.
-/

namespace Timesheet

open Service

section Syncing

/-- How requests to bring totals up to date work on a store, where `Has` tells of a total that it has a
record. -/
structure SyncsWell {σ τ : Type} [Store σ] (policy : Policy) (entries : σ → τ) (Has : σ → Total → Prop)
    (add : Task ⊕ Project → σ → Option σ) (SameTotals : σ → σ → Prop) : Prop where
  /-- They leave the entries as they are. -/
  leaves : ∀ (now : Instant) (q : Request) (d : Desk σ), q.IsSync now →
    entries ((q.program policy).run d).2.store = entries d.store
  /-- Sequences of them end alike if they name the same totals that have records. -/
  ends : ∀ (now : Instant) (rs rs' : List Request) (d : Desk σ), (∀ q ∈ rs, q.IsSync now) →
    (∀ q ∈ rs', q.IsSync now) → (∀ t, Has d.store t → (Covers rs t ↔ Covers rs' t)) →
      ((session policy rs).run d).2 = ((session policy rs').run d).2
  /-- What is told of a total is the same wherever it is told. -/
  tells : ∀ (now : Instant) (rs rs' : List Request) (d : Desk σ), (∀ q ∈ rs, q.IsSync now) →
    (∀ q ∈ rs', q.IsSync now) → ∀ q x q' x' t, (q, x) ∈ rs.zip ((session policy rs).run d).1 →
      (q', x') ∈ rs'.zip ((session policy rs').run d).1 → q.Syncs t → q'.Syncs t → x = x'
  /-- After a stale answer the missing records are added, and all totals brought up to date that the change
  concerns: they are what they would be if the request had come with the records in place, and if the clock
  still shows the same time, so is the whole store. -/
  heals : ∀ (r : Request) (d : Desk σ) (id : EntryId) (cause : ServiceFault) (old new : Option Entry)
    (items : List (Task ⊕ Project)) (s : σ) (rs : List Request) (now : Instant),
    ((r.program policy).run d).1 = .entry (.error (.stale id cause)) → r.Makes policy d old new →
    items.foldlM (fun s x => add x s) ((r.program policy).run d).2.store = some s →
    (∀ t : Total, t.Concerns old new → Has s t ∧ ∃ n, t.sum s = .ok n) →
    (∀ q ∈ rs, q.IsSync now) → (∀ t, Covers rs t ↔ t.Concerns old new) →
    ∃ s₀, items.foldlM (fun s x => add x s) d.store = some s₀ ∧
      (∃ e, ((r.program policy).run ⟨s₀, d.ids⟩).1 = .entry (.ok e)) ∧
      SameTotals ((session policy rs).run { ((r.program policy).run d).2 with store := s }).2.store
        ((r.program policy).run ⟨s₀, d.ids⟩).2.store ∧
      ((∀ i ∈ r.clock?, i = now) →
        ((session policy rs).run { ((r.program policy).run d).2 with store := s }).2.store =
          ((r.program policy).run ⟨s₀, d.ids⟩).2.store)

theorem Accounts.syncsWell {σ κ ρ : Type} [Store σ] [KeyOrder κ] [DecidableEq κ] {key : ρ → κ}
    (A : Accounts σ key) {R SameTotals : σ → σ → Prop} {Has : σ → Total → Prop} (I : IgnoresTotals R)
    (hhas : ∀ s t, A.Has s t ↔ Has s t) (hsame : ∀ i j u v, A.SameBut i j u v → SameTotals u v)
    (policy : Policy) : SyncsWell policy A.entries Has A.add SameTotals where
  leaves now q d hq := by
    obtain ⟨us, s, hrun, hrefreshed, -⟩ := refreshed_request A.toBooks hq policy d
    rw [hrun]
    exact hrefreshed.entries
  ends now rs rs' d hrs hrs' hcover := by
    obtain ⟨us, s, hrun, hrefreshed, hus⟩ := refreshed_session A.toBooks hrs policy d
    obtain ⟨vs, s', hrun', hrefreshed', hvs⟩ := refreshed_session A.toBooks hrs' policy d
    have hmem (t : Total) : t ∈ us ↔ t ∈ vs := by
      rw [hus, hvs]
      refine and_congr_left fun ⟨⟨n, hn⟩, hable⟩ => hcover t ((hhas _ t).mp ?_)
      exact (A.trouble_eq_none hn).mp hable
    rw [hrun, hrun', hrefreshed.unique hrefreshed' hmem]
  tells now rs rs' d hrs hrs' q x q' x' t hx hx' h h' :=
    replies_agree I policy hrs hrs' d hx hx' h h'
  heals r d id cause old new items s rs now hstale hmade hadd hrecords hrs hcover := by
    have hrecords' : ∀ t ∈ movedTotals old new, A.Has s t ∧ ∃ n, t.sum s = .ok n := fun t ht =>
      (hrecords t (mem_movedTotals.mp ht)).imp_left (hhas s t).mpr
    have hcover' (t : Total) : Covers rs t ↔ t ∈ movedTotals old new :=
      (hcover t).trans mem_movedTotals.symm
    obtain ⟨i, hclock, -⟩ := r.exists_clock
    obtain ⟨s₀, hs₀, hok, hbut⟩ := A.heals hclock hmade hstale hadd hrecords' hrs hcover'
    refine ⟨s₀, hs₀, hok, hsame _ _ _ _ hbut, fun hnow => ?_⟩
    obtain ⟨s₁, hs₁, -, hbut'⟩ := A.heals hnow hmade hstale hadd hrecords' hrs hcover'
    obtain ⟨⟩ := hs₀.symm.trans hs₁
    exact hbut'.eq

theorem Accounts.SameBut.map_look {σ κ ρ β : Type} [Store σ] [KeyOrder κ] [DecidableEq κ]
    {key : ρ → κ} {A : Accounts σ key} {i j : Instant} {u v : σ} (h : A.SameBut i j u v)
    {f : A.Record → β} (hf : ∀ n i j r, f (A.mark n i r) = f (A.mark n j r)) (k : A.Slot) :
    (A.look u k).map f = (A.look v k).map f := by
  rcases h.look k with hk | ⟨b, n, hu, hv⟩
  · rw [hk]
  · rw [hu, hv, Option.map_map, Option.map_map]
    exact congrArg (Option.map · b) (funext (hf n i j))

namespace Memory

def HasRecord (m : Memory) : Total → Prop
  | .task id => ∃ t, m.tasks.find? id = some t
  | .project id => ∃ p, m.projects.find? id = some p

structure SameTotals (m m' : Memory) : Prop where
  entries : m.entries = m'.entries
  tasks : ∀ id, (m.tasks.find? id).map Task.trackedSeconds =
    (m'.tasks.find? id).map Task.trackedSeconds
  projects : ∀ id, (m.projects.find? id).map Project.estimatedHours =
    (m'.projects.find? id).map Project.estimatedHours

theorem has_iff (m : Memory) (t : Total) : accounts.Has m t ↔ m.HasRecord t := by
  change (∃ r, m.look t = some r ∧ True) ↔ _
  cases t <;> simp [look, HasRecord]

def amount : Task ⊕ Project → Int ⊕ Binary64
  | .inl t => .inl t.trackedSeconds
  | .inr p => .inr p.estimatedHours

theorem amount_mark (n : Int) (i j : Instant) (r : Task ⊕ Project) :
    amount (mark n i r) = amount (mark n j r) := by
  cases r with
  | inl t => rfl
  | inr p => cases h : p.autoEstimates <;> simp [mark, amount, h]

theorem sameTotals_of_sameBut (i j : Instant) (u v : Memory) (h : accounts.SameBut i j u v) :
    u.SameTotals v where
  entries := h.entries
  tasks id := by
    have hlook : (u.look (.task id)).map amount = (v.look (.task id)).map amount :=
      h.map_look amount_mark (.task id)
    apply Option.map_injective (Sum.inl_injective (β := Binary64))
    simpa [look, amount, Function.comp_def] using hlook
  projects id := by
    have hlook : (u.look (.project id)).map amount = (v.look (.project id)).map amount :=
      h.map_look amount_mark (.project id)
    apply Option.map_injective (Sum.inr_injective (α := Int))
    simpa [look, amount, Function.comp_def] using hlook

end Memory

namespace Database

/-- The total has a row. The flag of a project must be a number, or its row cannot be written. -/
def HasRecord (d : Database) : Total → Prop
  | .task id => ∃ r, d.tasks.find? (.named id.text) = some r
  | .project id => ∃ r n, d.projects.find? (.named id.text) = some r ∧ r.autoEstimates = .integer n

structure SameTotals (d d' : Database) : Prop where
  entries : d.entries = d'.entries
  tasks : ∀ k, (d.tasks.find? k).map TaskRow.trackedSeconds =
    (d'.tasks.find? k).map TaskRow.trackedSeconds
  projects : ∀ k, (d.projects.find? k).map ProjectRow.estimatedHours =
    (d'.projects.find? k).map ProjectRow.estimatedHours

theorem has_iff (d : Database) (t : Total) : accounts.Has d t ↔ d.HasRecord t := by
  change (∃ r, d.look (slot t) = some r ∧ IsSound r) ↔ _
  cases t <;> simp [look, slot, HasRecord, IsSound]

def amount : TaskRow ⊕ ProjectRow → NumberCell ⊕ NumberCell
  | .inl r => .inl r.trackedSeconds
  | .inr r => .inr r.estimatedHours

theorem amount_mark (n : Int) (i j : Instant) (r : TaskRow ⊕ ProjectRow) :
    amount (mark n i r) = amount (mark n j r) := by
  cases r with
  | inl r => rfl
  | inr r => cases h : follows r <;> simp [mark, amount, h]

theorem SameTotals.map_look {u v : Database} (h : u.SameTotals v) (k : RowKey ⊕ RowKey) :
    (u.look k).map amount = (v.look k).map amount := by
  cases k with
  | inl k => simpa [look, amount, Function.comp_def] using congrArg (Option.map Sum.inl) (h.tasks k)
  | inr k => simpa [look, amount, Function.comp_def] using congrArg (Option.map Sum.inr) (h.projects k)

theorem sameTotals_of_sameBut (i j : Instant) (u v : Database) (h : accounts.SameBut i j u v) :
    u.SameTotals v where
  entries := h.entries
  tasks k := by
    have hlook : (u.look (.inl k)).map amount = (v.look (.inl k)).map amount :=
      h.map_look amount_mark (.inl k)
    apply Option.map_injective (Sum.inl_injective (β := NumberCell))
    simpa [look, amount, Function.comp_def] using hlook
  projects k := by
    have hlook : (u.look (.inr k)).map amount = (v.look (.inr k)).map amount :=
      h.map_look amount_mark (.inr k)
    apply Option.map_injective (Sum.inr_injective (α := NumberCell))
    simpa [look, amount, Function.comp_def] using hlook

end Database

/-- Totals that are brought up to date do not depend on what they were, nor on the order or the number of
the requests, and what a stale answer left behind is made up for by adding the missing records and bringing
the totals up to date. In a database that takes projects whose flag can be read. -/
theorem syncs_well (policy : Policy) :
    SyncsWell policy Memory.entries Memory.HasRecord Memory.addRecord Memory.SameTotals ∧
      SyncsWell policy Database.entries Database.HasRecord Database.addRecord Database.SameTotals :=
  ⟨Memory.accounts.syncsWell Memory.ignoresTotals Memory.has_iff Memory.sameTotals_of_sameBut policy,
    Database.accounts.syncsWell Database.ignoresTotals Database.has_iff
      Database.sameTotals_of_sameBut policy⟩

theorem concerns_minute {t : Total} :
    t.Concerns none (some minuteOfFirstTask) ↔ t = .task firstTask.id := by
  have htotals : movedTotals none (some minuteOfFirstTask) = [.task firstTask.id] := rfl
  rw [← mem_movedTotals, htotals, List.mem_singleton]

theorem syncs_well_of_minute :
    ((session {} [.syncTaskTime firstTask.id.text .epoch]).run
      ⟨({ entries := Shelf.empty.put minuteOfFirstTask, tasks := Shelf.empty.put firstTask } : Memory),
        (IdSource.after 0).advance⟩).2.store =
      (((minuteOf (some firstTask.id.text)).program {}).run
        ⟨({ tasks := Shelf.empty.put firstTask } : Memory), .after 0⟩).2.store := by
  have howner : Identifier.parse .user "00000000-0000-0000-0000-000000000002" =
      .ok ⟨.ofNat 2⟩ := by decide +kernel
  have hmade : (minuteOf (some firstTask.id.text)).Makes {} ⟨({} : Memory), .after 0⟩ none
      (some minuteOfFirstTask) := .create howner rfl
  have hcover (t : Total) : Covers [.syncTaskTime firstTask.id.text .epoch] t ↔
      t.Concerns none (some minuteOfFirstTask) := by
    rw [concerns_minute, Covers]
    cases t <;> simp [Request.Syncs, Request.SyncsTask, Request.SyncsProject,
      Identifier.parse_text, eq_comm]
  have hrecords (t : Total) (ht : t.Concerns none (some minuteOfFirstTask)) :
      Memory.HasRecord { entries := Shelf.empty.put minuteOfFirstTask,
                         tasks := Shelf.empty.put firstTask } t ∧
        ∃ n, t.sum ({ entries := Shelf.empty.put minuteOfFirstTask,
                      tasks := Shelf.empty.put firstTask } : Memory) = .ok n := by
    obtain rfl := concerns_minute.mp ht
    exact ⟨⟨firstTask, rfl⟩, _, rfl⟩
  obtain ⟨s₀, hs₀, -, -, hsame⟩ := (syncs_well {}).1.heals (minuteOf (some firstTask.id.text))
    ⟨{}, .after 0⟩ _ _ _ _ [.inl firstTask] _ [.syncTaskTime firstTask.id.text .epoch] .epoch rfl
    hmade rfl hrecords (by simp [Request.IsSync]) hcover
  obtain ⟨⟩ := hs₀
  exact hsame fun i hi => (Option.some.inj hi).symm

def officeProject : Project :=
  .new ⟨.ofNat 0xb⟩ ⟨.ofNat 3⟩ "office" true .epoch

def homeProject : Project :=
  .new ⟨.ofNat 0xc⟩ ⟨.ofNat 3⟩ "home" true .epoch

def officeHour : Entry :=
  { minuteOfFirstTask with
    task := .absent
    project := officeProject.id
    stop := some (.ofSecond 3600 (by decide))
    duration := 3600 }

def homeHour : Entry :=
  { officeHour with task := firstTask.id, project := homeProject.id }

def moveHour : Request :=
  .update "00000000-0000-0000-0000-000000000001"
    { task := some firstTask.id.text, project := some homeProject.id.text } .epoch

def officeEntries : Shelf EntryRow.key :=
  Shelf.empty.put (.ofEntry officeHour)

def homeEntries : Shelf EntryRow.key :=
  officeEntries.put (.ofEntry homeHour)

def unflagged (entries : Shelf EntryRow.key) (tasks : Shelf TaskRow.key) : Database :=
  { entries, tasks
    projects := (Shelf.empty.put { ProjectRow.written officeProject with autoEstimates := .text "x" }).put
      (.written homeProject) }

theorem concerns_moveHour {t : Total} : t.Concerns (some officeHour) (some homeHour) ↔
    t = .task firstTask.id ∨ t = .project officeProject.id ∨ t = .project homeProject.id := by
  have htotals : movedTotals (some officeHour) (some homeHour) =
      [.task firstTask.id, .project officeProject.id, .project homeProject.id] := rfl
  rw [← mem_movedTotals, htotals]
  simp

theorem makes_moveHour (tasks : Shelf TaskRow.key) (ids : IdSource) :
    moveHour.Makes following ⟨unflagged officeEntries tasks, ids⟩ (some officeHour)
      (some homeHour) := by
  have hid : Identifier.parse .entry "00000000-0000-0000-0000-000000000001" = .ok officeHour.id := by
    decide +kernel
  have hfetch : Store.fetch (unflagged officeEntries tasks) officeHour.id = .ok officeHour :=
    Database.fetch_of_put rfl (EntryRow.ofEntry_denotes.mpr ⟨by decide, rfl⟩)
  have hpatch : officeHour.applyPatch
      { task := some firstTask.id.text, project := some homeProject.id.text } .epoch =
        .ok homeHour := eq_ok_of_toOption (by decide +kernel)
  exact .edit rfl hid hfetch hpatch

theorem trouble_office (tasks : Shelf TaskRow.key) :
    (unflagged homeEntries tasks).trouble (.project officeProject.id) ≠ none := by
  have hflag : (unflagged homeEntries Shelf.empty).trouble (.project officeProject.id) ≠ none := by
    decide +kernel
  exact hflag

theorem run_moveHour (tasks : Shelf TaskRow.key) (ids : IdSource) : ∃ x d',
    (moveHour.program following).run ⟨unflagged officeEntries tasks, ids⟩ =
        (.entry (settledAnswer homeHour x), d') ∧
      Settles .epoch (unflagged homeEntries tasks)
        [.task firstTask.id, .project officeProject.id, .project homeProject.id] x d'.store := by
  have hrecounts : moveHour.Recounts following := rfl
  have hclock : ∀ i ∈ moveHour.clock?, i = .epoch := fun i hi => (Option.some.inj hi).symm
  have hfind : officeEntries.find? (.named homeHour.id.text) = some (.ofEntry officeHour) :=
    Shelf.empty.find?_put_self (EntryRow.ofEntry officeHour)
  have hreplace : Database.replace (unflagged officeEntries tasks) homeHour =
      .ok (unflagged homeEntries tasks) := Database.replace_eq_ok.mpr ⟨⟨_, hfind⟩, rfl⟩
  exact Database.view.run_recounting hrecounts hclock (makes_moveHour tasks ids) rfl hreplace

def hourSyncs : List Request :=
  [.syncTaskTime firstTask.id.text .epoch, .syncProjectTime officeProject.id.text .epoch,
    .syncProjectTime homeProject.id.text .epoch]

theorem covers_hourSyncs {t : Total} :
    Covers hourSyncs t ↔ t.Concerns (some officeHour) (some homeHour) := by
  rw [concerns_moveHour, Covers]
  cases t <;> simp [hourSyncs, Request.Syncs, Request.SyncsTask, Request.SyncsProject,
    Identifier.parse_text, eq_comm]

def placedTasks : Shelf TaskRow.key :=
  Shelf.empty.put (.ofTask firstTask)

/-- A project whose flag cannot be read stops the request before the other project is reached, even with
the task in place; brought up to date one by one, the other one is reached. -/
theorem syncs_well_not_always :
    ¬∀ (r : Request) (d : Desk Database) (id : EntryId) (cause : ServiceFault)
      (old new : Option Entry) (items : List (Task ⊕ Project)) (s s₀ : Database) (rs : List Request)
      (now : Instant),
      ((r.program following).run d).1 = .entry (.error (.stale id cause)) →
      (∃ t : Total, cause = t.writeFault .missing) → r.Makes following d old new →
      items.foldlM (fun s x => Database.addRecord x s) ((r.program following).run d).2.store =
        some s →
      items.foldlM (fun s x => Database.addRecord x s) d.store = some s₀ →
      (∀ t : Total, t.Concerns old new →
        (s.look (Database.slot t)).isSome = true ∧ ∃ n, t.sum s = .ok n) →
      (∀ q ∈ rs, q.IsSync now) → (∀ t, Covers rs t ↔ t.Concerns old new) →
      Database.SameTotals
        ((session following rs).run { ((r.program following).run d).2 with store := s }).2.store
        ((r.program following).run ⟨s₀, d.ids⟩).2.store := by
  intro h
  have htask : (Total.task firstTask.id).sum (unflagged homeEntries placedTasks) = .ok 3600 := rfl
  have hhome : (Total.project homeProject.id).sum (unflagged homeEntries placedTasks) = .ok 3600 := rfl
  have hrecords (t : Total) (ht : t.Concerns (some officeHour) (some homeHour)) :
      ((unflagged homeEntries placedTasks).look (Database.slot t)).isSome = true ∧
        ∃ n, t.sum (unflagged homeEntries placedTasks) = .ok n := by
    rcases concerns_moveHour.mp ht with rfl | rfl | rfl
    · exact ⟨rfl, 3600, htask⟩
    · exact ⟨rfl, 0, rfl⟩
    · exact ⟨rfl, 3600, hhome⟩
  -- Without the task, no total is written.
  have hmissing : Database.books.trouble (unflagged homeEntries Shelf.empty) (.task firstTask.id) =
      some (Total.writeFault (.task firstTask.id) .missing) := rfl
  obtain ⟨x, d', hrun, hsettles⟩ := run_moveHour Shelf.empty (.after 1)
  obtain ⟨rfl, hstore⟩ := Database.books.settles_of_trouble hsettles htask hmissing
  -- With it, that of the other project is not.
  obtain ⟨y, d₀, hrun₀, hsettles₀⟩ := run_moveHour placedTasks (.after 1)
  obtain ⟨us, hpart, hrefreshed⟩ :=
    Database.books.settles_up_to [.task firstTask.id] hsettles₀ (trouble_office placedTasks)
  have hleft : d₀.store.look (.inr (.named homeProject.id.text)) =
      some (.inr (.written homeProject)) :=
    hrefreshed.others (.inr (.named homeProject.id.text)) fun t ht heq => by
      obtain rfl := List.mem_singleton.mp (hpart.subset ht)
      cases heq
  have hsyncs : ∀ q ∈ hourSyncs, q.IsSync .epoch := by simp [hourSyncs, Request.IsSync]
  have hable : Database.books.trouble (unflagged homeEntries placedTasks) (.project homeProject.id) =
      none := rfl
  obtain ⟨vs, u, hrest, hhealed, hvs⟩ := refreshed_session Database.books hsyncs following
    { d' with store := unflagged homeEntries placedTasks }
  have hmem : .project homeProject.id ∈ vs :=
    (hvs _).mpr ⟨covers_hourSyncs.mpr (concerns_moveHour.mpr (.inr (.inr rfl))), ⟨_, hhome⟩, hable⟩
  obtain ⟨n, hn, hright⟩ := hhealed.marked _ hmem
  obtain rfl := Except.ok.inj (hn.symm.trans hhome)
  have hsame := h moveHour ⟨unflagged officeEntries Shelf.empty, .after 1⟩ homeHour.id _ _ _
    [.inl firstTask] (unflagged homeEntries placedTasks) (unflagged officeEntries placedTasks)
    hourSyncs .epoch (by rw [hrun]; rfl) ⟨_, rfl⟩ (makes_moveHour _ _)
    (by rw [hrun, hstore]; rfl) rfl hrecords hsyncs fun t => covers_hourSyncs
  simp only [hrun, hrun₀, hrest] at hsame
  have hlook := hsame.map_look (.inr (.named homeProject.id.text))
  have hdiffer : Option.map Database.amount ((unflagged homeEntries placedTasks).look
      (.inr (.named homeProject.id.text)) |>.map (Database.mark 3600 Instant.epoch.wholeSecond)) ≠
        some (.inr (ProjectRow.written homeProject).estimatedHours) := by
    decide +kernel
  rw [hleft] at hlook
  exact hdiffer ((congrArg (Option.map Database.amount) hright).symm.trans hlook)

end Syncing

end Timesheet
