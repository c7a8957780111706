import Timesheet.Proofs.Frame

/-!
When records were created and changed last. Whatever a request writes at some time carries that time as
the time of its last change, and was created then or keeps the time of creation that it had. So as
long as no request writes at an earlier time than one before it, no record is changed before it was
created, and no time of last change goes back.
-/

namespace Timesheet

/-- The times that a record carries, as they are written. -/
structure Dates where
  created : String
  updated : String
  deriving DecidableEq

def EntryRow.dates (r : EntryRow) : Dates :=
  ⟨r.created, r.updated⟩

def TaskRow.dates (r : TaskRow) : Dates :=
  ⟨r.created, r.updated⟩

def ProjectRow.dates (r : ProjectRow) : Dates :=
  ⟨r.created, r.updated⟩

abbrev DateTable :=
  RowKey → Option Dates

def Shelf.dateTable {ρ : Type} {key : ρ → RowKey} (dates : ρ → Dates) (s : Shelf key) : DateTable :=
  fun k => (s.find? k).map dates

def Database.dates (d : Database) : TableName → DateTable
  | .entries => d.entries.dateTable EntryRow.dates
  | .tasks => d.tasks.dateTable TaskRow.dates
  | .projects => d.projects.dateTable ProjectRow.dates

/-- A text that is kept, or written anew as the instant that it was read as. -/
def Continues (s t : String) : Prop :=
  t = s ∨ ∃ i, Instant.ofStamp? s = some i ∧ t = i.stamp

theorem Continues.eq_of_stamp {i : Instant} {t : String} (h : Continues i.stamp t) :
    t = i.stamp := by
  rcases h with rfl | ⟨j, hread, rfl⟩
  · rfl
  · obtain ⟨-, rfl⟩ := Instant.ofStamp?_stamp_eq_some.mp hread
    exact i.stamp_wholeSecond

theorem Continues.trans {s t u : String} (h : Continues s t) (h' : Continues t u) :
    Continues s u := by
  rcases h with rfl | ⟨i, hread, rfl⟩
  · exact h'
  · exact .inr ⟨i, hread, h'.eq_of_stamp⟩

namespace Dates

structure WrittenAt (s : Dates) (now : Instant) (old : Option Dates) : Prop where
  updated : s.updated = now.stamp
  created : s.created = now.stamp ∨ ∃ a, old = some a ∧ Continues a.created s.created

def By (s : Dates) (now : Instant) : Prop :=
  ∃ created updated, Instant.ofStamp? s.created = some created ∧
    Instant.ofStamp? s.updated = some updated ∧ created.IsStorable ∧ created ≤ updated ∧
      updated ≤ now.wholeSecond

end Dates

namespace DateTable

variable {f g h : DateTable} {now start : Instant}

/-- Every record has the dates it had before, or was written at the time `now`. -/
def Touched (now : Instant) (f g : DateTable) : Prop :=
  ∀ k s, g k = some s → f k = some s ∨ s.WrittenAt now (f k)

theorem Touched.refl (now : Instant) (f : DateTable) : f.Touched now f :=
  fun _ _ hs => .inl hs

theorem Touched.trans (hfg : Touched now f g) (hgh : Touched now g h) : Touched now f h := by
  intro k s hs
  rcases hgh k s hs with hs | ⟨hupdated, hcreated⟩
  · exact hfg k s hs
  · refine .inr ⟨hupdated, ?_⟩
    rcases hcreated with hcreated | ⟨a, ha, hcontinues⟩
    · exact .inl hcreated
    · rcases hfg k a ha with ha | ⟨-, hnew | ⟨b, hb, hold⟩⟩
      · exact .inr ⟨a, ha, hcontinues⟩
      · rw [hnew] at hcontinues
        exact .inl hcontinues.eq_of_stamp
      · exact .inr ⟨b, hb, hold.trans hcontinues⟩

section Shelves

variable {ρ : Type} {key : ρ → RowKey} (dates : ρ → Dates)

theorem touched_put {s : Shelf key} {r : ρ}
    (h : (dates r).WrittenAt now (s.dateTable dates (key r))) :
    Touched now (s.dateTable dates) ((s.put r).dateTable dates) := by
  intro k b hb
  unfold Shelf.dateTable at hb
  by_cases hk : key r = k
  · subst hk
    rw [s.find?_put_self] at hb
    obtain rfl := Option.some.inj hb
    exact .inr h
  · rw [s.find?_put_of_ne hk] at hb
    exact .inl hb

theorem touched_put_over {s : Shelf key} {r r' : ρ} (hr : s.find? (key r') = some r)
    (hupdated : (dates r').updated = now.stamp)
    (hcreated : Continues (dates r).created (dates r').created) :
    Touched now (s.dateTable dates) ((s.put r').dateTable dates) :=
  touched_put dates ⟨hupdated, .inr ⟨dates r, congrArg (Option.map dates) hr, hcreated⟩⟩

theorem touched_erase (now : Instant) (s : Shelf key) (j : RowKey) :
    Touched now (s.dateTable dates) ((s.erase j).dateTable dates) := by
  intro k b hb
  unfold Shelf.dateTable at hb
  by_cases hk : j = k
  · subst hk
    rw [s.find?_erase_self] at hb
    cases hb
  · rw [s.find?_erase_of_ne hk] at hb
    exact .inl hb

end Shelves

def DatedBy (now : Instant) (f : DateTable) : Prop :=
  ∀ k s, f k = some s → s.By now

def ChangedSince (start : Instant) (f g : DateTable) : Prop :=
  ∀ k s, g k = some s → f k = some s ∨
    ∃ updated, Instant.ofStamp? s.updated = some updated ∧ start.wholeSecond ≤ updated

theorem ofStamp?_stamp_of_isStorable (hnow : now.IsStorable) :
    Instant.ofStamp? now.stamp = some now.wholeSecond :=
  Instant.ofStamp?_stamp_eq_some.mpr ⟨hnow, rfl⟩

theorem Touched.changedSince (hnow : now.IsStorable) (hfg : Touched now f g) :
    ChangedSince now f g := by
  intro k s hs
  rcases hfg k s hs with hs | hwritten
  · exact .inl hs
  · refine .inr ⟨now.wholeSecond, ?_, .inr ⟨rfl, le_rfl⟩⟩
    rw [hwritten.updated]
    exact ofStamp?_stamp_of_isStorable hnow

theorem ChangedSince.mono {later : Instant} (hfg : ChangedSince later f g) (hle : start ≤ later) :
    ChangedSince start f g := by
  intro k s hs
  rcases hfg k s hs with hs | ⟨updated, hread, hlater⟩
  · exact .inl hs
  · exact .inr ⟨updated, hread, Instant.le_trans (Instant.wholeSecond_mono hle) hlater⟩

theorem ChangedSince.trans (hfg : ChangedSince start f g) (hgh : ChangedSince start g h) :
    ChangedSince start f h := by
  intro k s hs
  rcases hgh k s hs with hs | hchanged
  · exact hfg k s hs
  · exact .inr hchanged

theorem Touched.datedBy (hfg : Touched now f g) (hf : DatedBy start f) (hnow : now.IsStorable)
    (hle : start ≤ now) : DatedBy now g := by
  have hwhole := Instant.wholeSecond_mono hle
  intro k s hs
  rcases hfg k s hs with hs | ⟨hupdated, hcreated⟩
  · obtain ⟨created, updated, hc, hu, hstorable, hcu, hstart⟩ := hf k s hs
    exact ⟨created, updated, hc, hu, hstorable, hcu, Instant.le_trans hstart hwhole⟩
  · have hread : Instant.ofStamp? s.updated = some now.wholeSecond := by
      rw [hupdated]
      exact ofStamp?_stamp_of_isStorable hnow
    rcases hcreated with hcreated | ⟨a, ha, hcontinues⟩
    · refine ⟨now.wholeSecond, now.wholeSecond, ?_, hread, Instant.wholeSecond_isStorable.mpr hnow,
        Instant.le_refl _, Instant.le_refl _⟩
      rw [hcreated]
      exact ofStamp?_stamp_of_isStorable hnow
    · obtain ⟨created, updated, hc, -, hstorable, hcu, hstart⟩ := hf k a ha
      have hearlier : created ≤ now.wholeSecond :=
        Instant.le_trans hcu (Instant.le_trans hstart hwhole)
      rcases hcontinues with hsame | ⟨i, hi, hsame⟩
      · exact ⟨created, _, hsame ▸ hc, hread, hstorable, hearlier, Instant.le_refl _⟩
      · obtain rfl : created = i := Option.some.inj (hc.symm.trans hi)
        refine ⟨created.wholeSecond, _, ?_, hread, Instant.wholeSecond_isStorable.mpr hstorable,
          Instant.le_trans created.wholeSecond_le hearlier, Instant.le_refl _⟩
        rw [hsame]
        exact ofStamp?_stamp_of_isStorable hstorable

theorem DatedBy.updated_le {k : RowKey} {a b : Dates} (hf : DatedBy start f)
    (hfg : ChangedSince start f g) (ha : f k = some a) (hb : g k = some b) :
    ∃ i j, Instant.ofStamp? a.updated = some i ∧ Instant.ofStamp? b.updated = some j ∧ i ≤ j := by
  obtain ⟨created, updated, -, hu, -, -, hstart⟩ := hf k a ha
  rcases hfg k b hb with hb | ⟨later, hlater, hle⟩
  · obtain rfl := Option.some.inj (ha.symm.trans hb)
    exact ⟨updated, updated, hu, hu, Instant.le_refl _⟩
  · exact ⟨updated, later, hu, hlater, Instant.le_trans hstart hle⟩

end DateTable

theorem Request.Makes.created_eq {σ : Type} [Store σ] {policy : Policy} {d : Desk σ} {r : Request}
    {now : Instant} {e : Entry} (h : r.Makes policy d none (some e))
    (hnow : ∀ i ∈ r.clock?, i = now) : e.created = now.wholeSecond := by
  cases h with
  | create howner h =>
    obtain rfl := hnow _ rfl
    obtain ⟨details, start, duration, -, -, -, h⟩ := NewEntry.entry_eq_ok.mp h
    obtain ⟨-, -, stop, -, -, rfl⟩ := Entry.finished_eq_ok.mp h
    rfl
  | start howner hfields hfree =>
    obtain rfl := hnow _ rfl
    rfl

namespace Database

variable {policy : Policy} {now : Instant} {d d' d'' : Database}

def Touched (now : Instant) (d d' : Database) : Prop :=
  ∀ t, (d.dates t).Touched now (d'.dates t)

theorem Touched.refl (now : Instant) (d : Database) : d.Touched now d :=
  fun _ => .refl now _

theorem Touched.trans (h : d.Touched now d') (h' : d'.Touched now d'') : d.Touched now d'' :=
  fun t => (h t).trans (h' t)

theorem touched_entries {s : Shelf EntryRow.key}
    (h : (d.dates .entries).Touched now (s.dateTable EntryRow.dates)) :
    d.Touched now { d with entries := s } := by
  rintro (_ | _ | _)
  · exact h
  · exact .refl now _
  · exact .refl now _

theorem touched_tasks {s : Shelf TaskRow.key}
    (h : (d.dates .tasks).Touched now (s.dateTable TaskRow.dates)) :
    d.Touched now { d with tasks := s } := by
  rintro (_ | _ | _)
  · exact .refl now _
  · exact h
  · exact .refl now _

theorem touched_projects {s : Shelf ProjectRow.key}
    (h : (d.dates .projects).Touched now (s.dateTable ProjectRow.dates)) :
    d.Touched now { d with projects := s } := by
  rintro (_ | _ | _)
  · exact .refl now _
  · exact .refl now _
  · exact h

theorem touched_of_edited {d : Desk Database} {r : Request} {old new : Option Entry} {s : Database}
    {t : List (Database × Call)} (hmade : r.Makes policy d old new)
    (hnow : ∀ i ∈ r.clock?, i = now) (h : Edited now d old new s t) : d.store.Touched now s := by
  have hstamp {i : Instant} (hi : i = now.wholeSecond) : i.stamp = now.stamp := by
    rw [hi, Instant.stamp_wholeSecond]
  cases h with
  | @insert e s hid hwritten h =>
    obtain ⟨-, rfl⟩ := insert_eq_ok.mp h
    exact touched_entries (DateTable.touched_put _
      ⟨hstamp hwritten.updated, .inl (hstamp (hmade.created_eq hnow))⟩)
  | @replace id e e' s hfetch hid hwritten h =>
    obtain ⟨-, rfl⟩ := replace_eq_ok.mp h
    obtain ⟨r, hr, hdenotes⟩ := fetch_eq_ok.mp hfetch
    have hkey : (EntryRow.ofEntry e').key = .named id.text := by
      have hsame := hid.trans (Database.view.id_of_fetch hfetch)
      exact congrArg (fun id : EntryId => RowKey.named id.text) hsame
    exact touched_entries (DateTable.touched_put_over _ (hkey ▸ hr) (hstamp hwritten.updated)
      (.inr ⟨e.created, hdenotes.created, congrArg Instant.stamp hmade.sameOrigin.created⟩))
  | erase hfetch h =>
    obtain ⟨-, rfl⟩ := erase_eq_ok.mp h
    exact touched_entries (DateTable.touched_erase _ now _ _)

theorem touched_of_writeTracked {id : TaskId} {n : Int}
    (h : d.writeTracked id n now.wholeSecond = .ok d') : d.Touched now d' := by
  obtain ⟨r, hr, rfl⟩ := writeTracked_eq_ok.mp h
  rw [← (Shelf.find?_eq_some.mp hr).2] at hr
  exact touched_tasks (DateTable.touched_put_over _ hr now.stamp_wholeSecond (.inl rfl))

theorem touched_of_writeEstimate {id : ProjectId} {hours : Binary64} {b : Bool}
    (h : d.writeEstimate id hours now.wholeSecond = .ok (b, d')) : d.Touched now d' := by
  obtain ⟨r, hr, -, h⟩ := writeEstimate_eq_ok.mp h
  rw [← (Shelf.find?_eq_some.mp hr).2] at hr
  split at h
  · obtain ⟨-, rfl⟩ := h
    exact touched_projects (DateTable.touched_put_over _ hr now.stamp_wholeSecond (.inl rfl))
  · obtain rfl := h
    exact .refl now d'

theorem touched_of_synced {s s' : Database} {ts : List TaskId} {ps : List ProjectId}
    {t : List (Database × Call)} (h : Synced now s ts ps s' t) : s.Touched now s' := by
  induction h with
  | done s => exact .refl now s
  | task hsum hwrite h ih => exact (touched_of_writeTracked hwrite).trans ih
  | project hsum hwrite h ih => exact (touched_of_writeEstimate hwrite).trans ih
  | quiet hstore hnone h ih => exact ih

theorem touched_of_single {r : Request} (hr : r.IsSingle) (policy : Policy)
    (hnow : ∀ i ∈ r.clock?, i = now) (d : Desk Database) :
    d.store.Touched now ((r.program policy).run d).2.store := by
  cases hop : r.operation? policy with
  | some op =>
    rw [Request.program_of_operation? hop]
    cases Request.performed (d := d) hop hnow with
    | failed hfails hran hstore hquiet =>
      rw [(hran.map Reply.entry).run, hstore]
      exact .refl now _
    | kept hmade he h hsame hquiet hran =>
      rw [(hran.map Reply.entry).run]
      exact touched_of_edited hmade hnow h
    | synced hmade he h htasks hprojects hsync ha hran =>
      rw [(hran.map Reply.entry).run]
      exact (touched_of_edited hmade hnow h).trans (touched_of_synced hsync)
  | none =>
    obtain ⟨reply, s, ts, ps, t, hran, hsync, -⟩ := r.refreshes policy d hr hop hnow
    rw [hran.run]
    exact touched_of_synced hsync

theorem touched_of_session {rs : List Request}
    (hrs : ∀ r ∈ rs, r.IsSingle ∧ ∀ i ∈ r.clock?, i = now) (policy : Policy) (d : Desk Database) :
    d.store.Touched now ((session policy rs).run d).2.store := by
  induction rs generalizing d with
  | nil => exact .refl now _
  | cons r rs ih =>
    obtain ⟨⟨hr, hnow⟩, hrs⟩ := List.forall_mem_cons.mp hrs
    rw [session, Program.run_bind, bind_pure_comp, Program.run_map]
    exact (touched_of_single hr policy hnow d).trans (ih hrs _)

theorem touched_of_request (r : Request) (policy : Policy) (hnow : ∀ i ∈ r.clock?, i = now)
    (d : Desk Database) : d.store.Touched now ((r.program policy).run d).2.store := by
  rw [(alike_parts policy r d).1]
  refine touched_of_session (fun q hq => ⟨Request.isSingle_of_mem_parts hq, ?_⟩) policy d
  rw [Request.clock?_of_mem_parts hq]
  exact hnow

def DatedBy (now : Instant) (d : Database) : Prop :=
  ∀ t, (d.dates t).DatedBy now

def ChangedSince (start : Instant) (d d' : Database) : Prop :=
  ∀ t, (d.dates t).ChangedSince start (d'.dates t)

end Database

end Timesheet
