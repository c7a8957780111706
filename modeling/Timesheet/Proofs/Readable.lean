import Timesheet.Proofs.Holding
import Timesheet.Proofs.Outcome

/-!
Readable databases. A row can only become unreadable by an instant that is written down and cannot be
stored, and what is unreadable stays so until the request ends. Main statement: the exact condition
under which a request leaves a database readable.
-/

namespace Timesheet

namespace Database

structure IsReadable (d : Database) : Prop where
  entries : d.entries.Holds fun r => ∃ e, r.entry = .ok e
  tasks : d.tasks.Holds fun r => ∃ t, r.task = .ok t
  projects : d.projects.Holds fun r => ∃ p, r.project = .ok p

def HasStorableEntries (d : Database) : Prop :=
  d.entries.Holds fun r => ∀ e, r.entry = .ok e → ∀ i ∈ e.instants, i.IsStorable

def IsBroken (now : Instant) (d : Database) : Prop :=
  (∃ r ∈ d.entries.items, ∀ e, ¬r.Denotes e) ∨ ¬now.IsStorable ∧
    ((∃ r ∈ d.tasks.items, ∀ t, ¬r.Denotes t) ∨ ∃ r ∈ d.projects.items, ∀ p, ¬r.Denotes p)

theorem IsBroken.not_isReadable {now : Instant} {d : Database} (h : d.IsBroken now) :
    ¬d.IsReadable := by
  intro hd
  rcases h with ⟨r, hr, h⟩ | ⟨-, ⟨r, hr, h⟩ | ⟨r, hr, h⟩⟩
  · obtain ⟨e, he⟩ := hd.entries r hr
    exact h e (EntryRow.entry_eq_ok.mp he)
  · obtain ⟨t, ht⟩ := hd.tasks r hr
    exact h t (TaskRow.task_eq_ok.mp ht)
  · obtain ⟨p, hp⟩ := hd.projects r hr
    exact h p (ProjectRow.project_eq_ok.mp hp)

theorem IsReadable.fetch {d : Database} (h : d.IsReadable) (id : EntryId) :
    d.fetch id = .error .missing ∨ ∃ e, d.fetch id = .ok e := by
  cases hfind : d.entries.find? (.named id.text) with
  | none => simp [Database.fetch, hfind, found, bind, Except.bind]
  | some r =>
    obtain ⟨e, he⟩ := h.entries.of_find? hfind
    exact .inr ⟨e, fetch_eq_ok.mpr ⟨r, hfind, EntryRow.entry_eq_ok.mp he⟩⟩

theorem IsReadable.task {d : Database} (h : d.IsReadable) (id : TaskId) :
    d.task id = .error (.noRow .tasks id.text) ∨ ∃ t, d.task id = .ok t := by
  unfold Database.task
  cases hfind : d.tasks.find? (.named id.text) with
  | none => exact .inl rfl
  | some r => exact .inr (h.tasks.of_find? hfind)

theorem IsReadable.project {d : Database} (h : d.IsReadable) (id : ProjectId) :
    d.project id = .error (.noRow .projects id.text) ∨ ∃ p, d.project id = .ok p := by
  unfold Database.project
  cases hfind : d.projects.find? (.named id.text) with
  | none => exact .inl rfl
  | some r => exact .inr (h.projects.of_find? hfind)

structure Marked (now : Instant) (d d' : Database) (is : List Instant) : Prop where
  readable : d.IsReadable → (∀ i ∈ is, i.IsStorable) → d'.IsReadable
  broken : d.IsBroken now → d'.IsBroken now
  breaks : ∀ i ∈ is, ¬i.IsStorable → d'.IsBroken now
  clock : is ≠ [] → now.wholeSecond ∈ is
  storable : d.HasStorableEntries → now.IsStorable →
    d'.HasStorableEntries ∧ ∀ i ∈ is, i.IsStorable

namespace Marked

variable {now : Instant} {d d₁ d₂ : Database} {is js : List Instant}

theorem refl (now : Instant) (d : Database) : Marked now d d [] where
  readable h _ := h
  broken h := h
  breaks i hi := by cases hi
  clock h := absurd rfl h
  storable h _ := ⟨h, fun i hi => by cases hi⟩

theorem trans (h : Marked now d d₁ is) (h' : Marked now d₁ d₂ js) :
    Marked now d d₂ (is ++ js) where
  readable hd his :=
    h'.readable (h.readable hd fun i hi => his i (List.mem_append_left _ hi)) fun i hi =>
      his i (List.mem_append_right _ hi)
  broken hd := h'.broken (h.broken hd)
  breaks i hi hn := by
    rcases List.mem_append.mp hi with hi | hi
    · exact h'.broken (h.breaks i hi hn)
    · exact h'.breaks i hi hn
  clock hne := by
    by_cases his : is = []
    · exact List.mem_append_right _ (h'.clock fun hjs => hne (by rw [his, hjs, List.nil_append]))
    · exact List.mem_append_left _ (h.clock his)
  storable hd hnow := by
    obtain ⟨hd₁, his⟩ := h.storable hd hnow
    obtain ⟨hd₂, hjs⟩ := h'.storable hd₁ hnow
    refine ⟨hd₂, fun i hi => ?_⟩
    rcases List.mem_append.mp hi with hi | hi
    · exact his i hi
    · exact hjs i hi

end Marked

section Steps

variable {now : Instant} {d d' : Database}

theorem marked_put {e : Entry} (hnow : e.updated = now.wholeSecond)
    (hkeep : ∀ r ∈ d.entries.items, (∀ e', ¬r.Denotes e') → r.key ≠ .named e.id.text)
    (hstorable : d.HasStorableEntries → now.IsStorable → ∀ i ∈ e.instants, i.IsStorable) :
    Marked now d { d with entries := d.entries.put (.ofEntry e) } e.instants where
  readable hd h := by
    refine ⟨hd.entries.put ⟨e.wholeSeconds, ?_⟩, hd.tasks, hd.projects⟩
    exact EntryRow.entry_eq_ok.mpr (EntryRow.ofEntry_denotes.mpr ⟨h, rfl⟩)
  broken hd := by
    rcases hd with ⟨r, hr, h⟩ | hd
    · exact .inl ⟨r, Shelf.mem_put_of_ne (hkeep r hr h) hr, h⟩
    · exact .inr hd
  breaks i hi hn := by
    refine .inl ⟨.ofEntry e, Shelf.mem_put_self _ _, fun e' h => ?_⟩
    exact hn ((EntryRow.ofEntry_denotes.mp h).1 i hi)
  clock _ := hnow ▸ Entry.mem_instants.mpr (.inr (.inr (.inl rfl)))
  storable hd hi := by
    have he := hstorable hd hi
    refine ⟨Shelf.Holds.put hd fun e' h => ?_, he⟩
    obtain ⟨-, rfl⟩ := EntryRow.ofEntry_denotes.mp (EntryRow.entry_eq_ok.mp h)
    exact Entry.mem_instants_wholeSeconds he

theorem marked_erase {k : RowKey}
    (hkeep : ∀ r ∈ d.entries.items, (∀ e, ¬r.Denotes e) → r.key ≠ k) :
    Marked now d { d with entries := d.entries.erase k } [] where
  readable hd _ := ⟨hd.entries.erase k, hd.tasks, hd.projects⟩
  broken hd := by
    rcases hd with ⟨r, hr, h⟩ | hd
    · exact .inl ⟨r, Shelf.mem_erase_of_ne (hkeep r hr h) hr, h⟩
    · exact .inr hd
  breaks i hi := by cases hi
  clock h := absurd rfl h
  storable hd _ := ⟨Shelf.Holds.erase hd k, fun i hi => by cases hi⟩

theorem marked_putTask {r : TaskRow} {k : RowKey} (hr : d.tasks.find? k = some r) (n : Int) :
    Marked now d { d with
      tasks := d.tasks.put { r with
        trackedSeconds := .integer n, updated := now.wholeSecond.stamp } } [now.wholeSecond] where
  readable hd h := by
    obtain ⟨t, ht⟩ := hd.tasks.of_find? hr
    have hnow := h now.wholeSecond (by simp)
    exact ⟨hd.entries, hd.tasks.put ⟨_, TaskRow.task_eq_ok.mpr
      ((TaskRow.written_denotes (TaskRow.task_eq_ok.mp ht)).mpr ⟨hnow, rfl⟩)⟩, hd.projects⟩
  broken hd := by
    rcases hd with hd | ⟨hnow, ⟨r', hr', h⟩ | hd⟩
    · exact .inl hd
    · refine .inr ⟨hnow, .inl ?_⟩
      by_cases hkey : r'.key = r.key
      · refine ⟨_, Shelf.mem_put_self _ _, fun t ht => hnow ?_⟩
        exact Instant.wholeSecond_isStorable.mp (Instant.ofStamp?_stamp_eq_some.mp ht.updated).1
      · exact ⟨r', Shelf.mem_put_of_ne hkey hr', h⟩
    · exact .inr ⟨hnow, .inr hd⟩
  breaks i hi hn := by
    obtain rfl := List.mem_singleton.mp hi
    refine .inr ⟨fun hnow => hn (Instant.wholeSecond_isStorable.mpr hnow), .inl ?_⟩
    refine ⟨_, Shelf.mem_put_self _ _, fun t ht => hn ?_⟩
    exact (Instant.ofStamp?_stamp_eq_some.mp ht.updated).1
  clock _ := by simp
  storable hd hnow := by
    refine ⟨hd, fun i hi => ?_⟩
    obtain rfl := List.mem_singleton.mp hi
    exact Instant.wholeSecond_isStorable.mpr hnow

theorem marked_putProject {r : ProjectRow} {k : RowKey} (hr : d.projects.find? k = some r)
    (hours : Binary64) :
    Marked now d { d with
      projects := d.projects.put { r with
        estimatedHours := .ofFloat hours, updated := now.wholeSecond.stamp } }
      [now.wholeSecond] where
  readable hd h := by
    obtain ⟨p, hp⟩ := hd.projects.of_find? hr
    have hnow := h now.wholeSecond (by simp)
    exact ⟨hd.entries, hd.tasks, hd.projects.put ⟨_, ProjectRow.project_eq_ok.mpr
      ((ProjectRow.written_denotes (ProjectRow.project_eq_ok.mp hp)).mpr ⟨hnow, rfl⟩)⟩⟩
  broken hd := by
    rcases hd with hd | ⟨hnow, hd | ⟨r', hr', h⟩⟩
    · exact .inl hd
    · exact .inr ⟨hnow, .inl hd⟩
    · refine .inr ⟨hnow, .inr ?_⟩
      by_cases hkey : r'.key = r.key
      · refine ⟨_, Shelf.mem_put_self _ _, fun p hp => hnow ?_⟩
        exact Instant.wholeSecond_isStorable.mp (Instant.ofStamp?_stamp_eq_some.mp hp.updated).1
      · exact ⟨r', Shelf.mem_put_of_ne hkey hr', h⟩
  breaks i hi hn := by
    obtain rfl := List.mem_singleton.mp hi
    refine .inr ⟨fun hnow => hn (Instant.wholeSecond_isStorable.mpr hnow), .inr ?_⟩
    refine ⟨_, Shelf.mem_put_self _ _, fun p hp => hn ?_⟩
    exact (Instant.ofStamp?_stamp_eq_some.mp hp.updated).1
  clock _ := by simp
  storable hd hnow := by
    refine ⟨hd, fun i hi => ?_⟩
    obtain rfl := List.mem_singleton.mp hi
    exact Instant.wholeSecond_isStorable.mpr hnow

theorem marked_edited {d : Desk Database} {old new : Option Entry}
    {t : List (Database × Call)} (h : Edited now d old new d' t) :
    Marked now d.store d' (recorded t) := by
  cases h with
  | @insert e _ hid hwritten h =>
    have hrecorded : recorded [(d.store, Call.insert e)] = e.instants := by
      simp [recorded, Call.recorded, Call.perform, h, changed]
    obtain ⟨hnone, rfl⟩ := insert_eq_ok.mp h
    rw [hrecorded]
    refine marked_put hwritten.updated (fun r hr _ => Shelf.find?_eq_none.mp hnone r hr) ?_
    intro _ hnow i hi
    rcases hwritten.instants i hi with rfl | hi | ⟨e₀, ⟨⟩, -⟩
    · exact Instant.wholeSecond_isStorable.mpr hnow
    · exact hi.2
  | @replace id e e' _ hfetch hid hwritten h =>
    have hrecorded : recorded [(d.store, Call.fetch id), (d.store, Call.replace e')] =
        e'.instants := by
      simp [recorded, Call.recorded, Call.perform, h, changed]
    obtain ⟨-, rfl⟩ := replace_eq_ok.mp h
    obtain ⟨r₀, hfind, hr₀⟩ := fetch_eq_ok.mp hfetch
    obtain ⟨hmem, hkey⟩ := Shelf.find?_eq_some.mp hfind
    rw [hrecorded]
    refine marked_put hwritten.updated ?_ ?_
    · intro r hr hnone heq
      rw [hid, hr₀.id_eq hkey, ← hkey] at heq
      exact hnone e (Shelf.eq_of_key_eq hmem hr heq.symm ▸ hr₀)
    · intro hstorable hnow i hi
      rcases hwritten.instants i hi with rfl | hi | ⟨e₀, ⟨⟩, hi⟩
      · exact Instant.wholeSecond_isStorable.mpr hnow
      · exact hi.2
      · exact hstorable r₀ hmem e (EntryRow.entry_eq_ok.mpr hr₀) i hi
  | @erase id e _ hfetch h =>
    have hrecorded : recorded [(d.store, Call.fetch id), (d.store, Call.erase id)] = [] := by
      simp [recorded, Call.recorded]
    obtain ⟨-, rfl⟩ := erase_eq_ok.mp h
    obtain ⟨r₀, hfind, hr₀⟩ := fetch_eq_ok.mp hfetch
    obtain ⟨hmem, hkey⟩ := Shelf.find?_eq_some.mp hfind
    rw [hrecorded]
    refine marked_erase fun r hr hnone heq => ?_
    exact hnone e (Shelf.eq_of_key_eq hmem hr (hkey.trans heq.symm) ▸ hr₀)

theorem marked_synced {ts : List TaskId} {ps : List ProjectId} {t : List (Database × Call)}
    (h : Synced now d ts ps d' t) : Marked now d d' (recorded t) := by
  induction h with
  | done d => exact .refl now d
  | @task d d₁ d₂ id n ts ps t hsum hwrite h ih =>
    have hrecorded : recorded ((d, Call.taskTotal id) ::
        (d, Call.writeTracked id n now.wholeSecond) :: t) = [now.wholeSecond] ++ recorded t := by
      simp [recorded, Call.recorded, Call.perform, hwrite, changed]
    obtain ⟨r, hr, rfl⟩ := writeTracked_eq_ok.mp hwrite
    rw [hrecorded]
    exact (marked_putTask hr n).trans ih
  | @project d d₁ d₂ id n b ts ps t hsum hwrite h ih =>
    have hrecorded : recorded ((d, Call.projectTotal id) ::
        (d, Call.writeEstimate id (hoursOfSeconds n) now.wholeSecond) :: t) =
          (if b then [now.wholeSecond] else []) ++ recorded t := by
      cases b <;> simp [recorded, Call.recorded, Call.perform, hwrite, changedIf]
    obtain ⟨r, hr, -, hd₁⟩ := writeEstimate_eq_ok.mp hwrite
    rw [hrecorded]
    cases b with
    | true =>
      obtain ⟨-, rfl⟩ := hd₁
      exact (marked_putProject hr _).trans ih
    | false =>
      obtain rfl : d₁ = d := hd₁
      exact ih
  | @quiet d d₂ c ts ps t hstore hnone h ih =>
    have hrecorded : recorded ((d, c) :: t) = recorded t := by
      simp [recorded, hnone]
    rw [hrecorded]
    exact ih

end Steps

section Requests

variable {policy : Policy} {now : Instant} {d : Desk Database}

def Marks {α : Type} (now : Instant) (d : Desk Database) (p : Program α) : Prop :=
  Marked now d.store (p.run d).2.store (recorded (p.trace d))

theorem marks_of_ran {α : Type} {p : Program α} {a : α} {d' : Desk Database}
    {t : List (Database × Call)} (hran : Ran d p a d' t)
    (h : Marked now d.store d'.store (recorded t)) : Marks now d p := by
  unfold Marks
  rwa [hran.run, hran.trace]

theorem marks_of_outcome {p : Program Reply} (h : Outcome policy now d p) : Marks now d p := by
  cases h with
  | handled hp h =>
    subst hp
    cases h with
    | failed hran hstore hf hquiet =>
      refine marks_of_ran (hran.map _) ?_
      rw [hstore, hquiet]
      exact .refl now d.store
    | kept h hsame hquiet hran =>
      refine marks_of_ran (hran.map _) ?_
      rw [recorded_append, hquiet]
      exact marked_edited h
    | synced h htasks hprojects hsync hr he hran =>
      refine marks_of_ran (hran.map _) ?_
      rw [recorded_append]
      exact (marked_edited h).trans (marked_synced hsync)
  | refreshed hran h hreply => exact marks_of_ran hran (marked_synced h)

theorem marks_bind {α β : Type} {p : Program α} {f : α → Program β} (hp : Marks now d p)
    (hf : Marks now (p.run d).2 (f (p.run d).1)) : Marks now d (p >>= f) := by
  unfold Marks
  rw [Program.run_bind, Program.trace_bind, recorded_append]
  exact hp.trans hf

theorem marks_session {qs : List Request} (h : ∀ q ∈ qs, q.IsSingle ∧ ∀ i ∈ q.clock?, i = now) :
    Marks now d (session policy qs) := by
  induction qs generalizing d with
  | nil => exact .refl now d.store
  | cons q qs ih =>
    obtain ⟨hsingle, hclock⟩ := h q List.mem_cons_self
    apply marks_bind (marks_of_outcome (q.outcome policy d hsingle hclock))
    apply marks_bind (ih fun q hq => h q (List.mem_cons_of_mem _ hq))
    exact .refl now _

theorem marks_request (r : Request) (hnow : ∀ i ∈ r.clock?, i = now) :
    Marks now d (r.program policy) := by
  obtain ⟨hrun, htrace⟩ := alike_parts policy r d
  unfold Marks
  rw [hrun, htrace]
  exact marks_session fun q hq =>
    ⟨Request.isSingle_of_mem_parts hq, Request.clock?_of_mem_parts hq ▸ hnow⟩

theorem Marked.isReadable_iff {d d' : Database} {is : List Instant} (h : Marked now d d' is)
    (hd : d.IsReadable) : d'.IsReadable ↔ ∀ i ∈ is, i.IsStorable := by
  refine ⟨fun hd' i hi => ?_, h.readable hd⟩
  by_contra hn
  exact (h.breaks i hi hn).not_isReadable hd'

theorem Marked.storable_iff {d d' : Database} {is : List Instant} (h : Marked now d d' is)
    (hnow : ¬now.IsStorable) : (∀ i ∈ is, i.IsStorable) ↔ is = [] := by
  constructor
  · intro his
    by_contra hne
    exact hnow (Instant.wholeSecond_isStorable.mp (his _ (h.clock hne)))
  · rintro rfl i hi
    cases hi

theorem request_keeps_readable (policy : Policy) (r : Request) (d : Desk Database)
    (hd : d.store.IsReadable) (he : d.store.HasStorableEntries)
    (hclock : ∀ now ∈ r.clock?, now.IsStorable) :
    ((r.program policy).run d).2.store.IsReadable ∧
      ((r.program policy).run d).2.store.HasStorableEntries := by
  obtain ⟨now, hnow, hstorable⟩ := r.exists_clock
  have hmarked : Marks now d (r.program policy) := marks_request r hnow
  obtain ⟨he', hwritten⟩ := Marked.storable hmarked he (hstorable hclock)
  exact ⟨(Marked.isReadable_iff hmarked hd).mpr hwritten, he'⟩

theorem session_keeps_readable (policy : Policy) (rs : List Request) (d : Desk Database)
    (hd : d.store.IsReadable) (he : d.store.HasStorableEntries)
    (hclock : ∀ r ∈ rs, ∀ now ∈ r.clock?, now.IsStorable) :
    ((session policy rs).run d).2.store.IsReadable ∧
      ((session policy rs).run d).2.store.HasStorableEntries := by
  induction rs generalizing d with
  | nil => exact ⟨hd, he⟩
  | cons r rs ih =>
    obtain ⟨hd', he'⟩ := request_keeps_readable policy r d hd he (hclock r List.mem_cons_self)
    rw [session, Program.run_bind, bind_pure_comp, Program.run_map]
    exact ih _ hd' he' fun r hr => hclock r (List.mem_cons_of_mem _ hr)

end Requests

end Database

/-- A request leaves a readable database readable exactly if every instant it writes down is storable.
So at a time that is not storable it does so only if it writes down nothing. At a storable time
nothing becomes unreadable as long as the entries before it had storable instants. -/
theorem request_readable_iff (policy : Policy) (r : Request) (d : Desk Database)
    (hd : d.store.IsReadable) :
    let after := ((r.program policy).run d).2.store
    let written := recorded ((r.program policy).trace d)
    (after.IsReadable ↔ ∀ i ∈ written, i.IsStorable) ∧
      (∀ now ∈ r.clock?, ¬now.IsStorable → (after.IsReadable ↔ written = [])) ∧
        (d.store.HasStorableEntries → (∀ now ∈ r.clock?, now.IsStorable) →
          after.IsReadable ∧ after.HasStorableEntries) := by
  intro after written
  obtain ⟨now, hnow, -⟩ := r.exists_clock
  have hmarked : Database.Marked now d.store after written := Database.marks_request r hnow
  have hiff := hmarked.isReadable_iff hd
  refine ⟨hiff, fun i hi hn => ?_, Database.request_keeps_readable policy r d hd⟩
  obtain rfl := hnow i hi
  exact hiff.trans (hmarked.storable_iff hn)

def firstUnstorable : Instant :=
  .ofSecond 253402300800 (by decide)

def lateStart : Request :=
  .start { workspace := some "00000000-0000-0000-0000-000000000003", createdWith := some "test" }
    "00000000-0000-0000-0000-000000000002" firstUnstorable

theorem lateStart_not_readable :
    ({} : Database).IsReadable ∧ ¬((lateStart.program {}).run
      ⟨({} : Database), .after 0⟩).2.store.IsReadable := by
  have hempty : ({} : Database).IsReadable :=
    ⟨Shelf.holds_empty, Shelf.holds_empty, Shelf.holds_empty⟩
  refine ⟨hempty, fun h => ?_⟩
  obtain ⟨-, hclock, -⟩ := request_readable_iff {} lateStart ⟨{}, .after 0⟩ hempty
  have hnone := (hclock firstUnstorable rfl (by decide)).mp h
  revert hnone
  decide +kernel

end Timesheet
