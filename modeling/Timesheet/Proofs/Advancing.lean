import Timesheet.CommandLine.Execution
import Timesheet.Proofs.Dates
import Timesheet.Proofs.Rereading

/-!
Dates of records over a run of commands. A command writes at the reading of its clock, except that a
stop at a given moment writes at that moment. Main statement: as long as these times do not go back,
no record is changed before it was created, and no time of last change goes back.
-/

namespace Timesheet

namespace Database

variable {now : Instant} {d d' : Database}

theorem touched_of_insertTask {k : Task} (h : d.insertTask k = .ok d') (hcreated : k.created = now)
    (hupdated : k.updated = now) : d.Touched now d' := by
  obtain ⟨-, rfl⟩ := insertTask_eq_ok.mp h
  exact touched_tasks (DateTable.touched_put _
    ⟨congrArg Instant.stamp hupdated, .inl (congrArg Instant.stamp hcreated)⟩)

theorem touched_of_insertProject {p : Project} (h : d.insertProject p = .ok d')
    (hcreated : p.created = now) (hupdated : p.updated = now) : d.Touched now d' := by
  unfold insertProject ProjectRow.ofProject at h
  simp only [bind_eq_ok] at h
  obtain ⟨r, ⟨hours, -, ⟨⟩⟩, h⟩ := h
  split at h
  · cases h
  · obtain ⟨⟩ := h
    exact touched_projects (DateTable.touched_put _
      ⟨congrArg Instant.stamp hupdated, .inl (congrArg Instant.stamp hcreated)⟩)

end Database

namespace CommandLine

open Service

def Work.Answers {α : Type} (w : Work α) (a : α) : Prop :=
  ∃ d d' : Desk Database, w.run d = (.ok a, d')

theorem Work.run_bind {α β : Type} (w : Work α) (f : α → Work β) (d : Desk Database) :
    (w >>= f).run d =
      match w.run d with
      | (.ok a, d') => (f a).run d'
      | (.error e, d') => (.error e, d') := by
  change (match w.run d with | (r, d') => (ExceptT.bindCont f r : StateM _ _) d') = _
  cases w.run d with
  | mk r d' => cases r <;> rfl

theorem Work.run_serve {α : Type} (u : Undertaking) (op : Operation α) (d : Desk Database) :
    (serve u op).run d =
      match op.run.run d with
      | (r, d') => (r.mapError (.service u), d') :=
  rfl

def Work.WritesAt {α : Type} (now : Instant) (w : Work α) : Prop :=
  ∀ d : Desk Database, d.store.Touched now (w.run d).2.store

namespace Work.WritesAt

variable {α β ε : Type} {now : Instant} {w : Work α} {f : α → Work β}

theorem bind_of_answers (hw : w.WritesAt now)
    (hf : ∀ a, w.Answers a → (f a).WritesAt now) : (w >>= f).WritesAt now := by
  intro d
  have hstep := hw d
  rw [run_bind]
  cases hr : w.run d with
  | mk r d' =>
    rw [hr] at hstep
    cases r with
    | ok a => exact hstep.trans (hf a ⟨d, d', hr⟩ d')
    | error e => exact hstep

theorem bind (hw : w.WritesAt now) (hf : ∀ a, (f a).WritesAt now) : (w >>= f).WritesAt now :=
  hw.bind_of_answers fun a _ => hf a

theorem of_pure (a : α) : (pure a : Work α).WritesAt now :=
  fun d => .refl now d.store

theorem of_throw (e : CommandFault) : (throw e : Work α).WritesAt now :=
  fun d => .refl now d.store

theorem of_ofExcept (fault : ε → CommandFault) (r : Except ε α) :
    (ofExcept fault r).WritesAt now :=
  fun d => .refl now d.store

theorem of_load (u : Undertaking) (read : Database → Except DatabaseFault α) :
    (load u read).WritesAt now :=
  fun d => .refl now d.store

theorem of_identifierOrNew (kind : IdentifierKind) (text : Option String) :
    (identifierOrNew kind text).WritesAt now := by
  cases text with
  | some text => exact of_ofExcept _ _
  | none => exact fun d => .refl now d.store

theorem of_store {u : Undertaking} {write : Database → Except DatabaseFault Database}
    (h : ∀ d d', write d = .ok d' → d.Touched now d') : (store u write).WritesAt now := by
  intro d
  unfold store
  rw [ExceptT.run_mk]
  split
  · exact h _ _ ‹_›
  · exact .refl now d.store

theorem of_program (r : Request) (policy : Policy) {p : Program α} {reply : α → Reply}
    (hp : r.program policy = reply <$> p) (hnow : ∀ i ∈ r.clock?, i = now) :
    (program p).WritesAt now := by
  intro d
  have h := Database.touched_of_request r policy hnow d
  rw [hp, Program.run_map] at h
  exact h

theorem of_serve (r : Request) (policy : Policy) {op : Operation α} {u : Undertaking}
    {reply : Except ServiceFault α → Reply} (hp : r.program policy = reply <$> op.run)
    (hnow : ∀ i ∈ r.clock?, i = now) : (serve u op).WritesAt now := by
  intro d
  have h := Database.touched_of_request r policy hnow d
  rw [hp, Program.run_map] at h
  exact h

end Work.WritesAt

section Commands

open Work Work.WritesAt

variable {now : Instant} {x : Context} {json : Bool}

theorem writesAt_optionalMoment (x : Context) (text : Option String) :
    (x.optionalMoment text).WritesAt now := by
  cases text with
  | none => exact of_pure none
  | some text => exact (of_ofExcept _ _).bind fun _ => of_pure _

theorem writesAt_momentOrNow (x : Context) (text : Option String) :
    (x.momentOrNow text).WritesAt now :=
  (writesAt_optionalMoment x text).bind fun _ => of_pure _

theorem run_optionalMoment (x : Context) (text : String) (d : Desk Database) :
    (x.optionalMoment (some text)).run d =
      (((Moment.parse text x.now).mapError .moment).map some, d) := by
  unfold Context.optionalMoment Context.moment
  dsimp only
  cases Moment.parse text x.now <;> rfl

theorem run_momentOrNow (x : Context) (text : String) (d : Desk Database) :
    (x.momentOrNow (some text)).run d = ((Moment.parse text x.now).mapError .moment, d) := by
  rw [Context.momentOrNow, Work.run_bind, run_optionalMoment]
  cases Moment.parse text x.now <;> rfl

theorem answers_momentOrNow {text : String} {i : Instant}
    (h : (x.momentOrNow (some text)).Answers i) : Moment.parse text x.now = .ok i := by
  obtain ⟨d, d', hrun⟩ := h
  rw [run_momentOrNow] at hrun
  exact mapError_eq_ok.mp (Prod.mk.inj hrun).1

theorem writesAt_patch (x : Context) (o : ChangeOptions) : (o.patch x).WritesAt now :=
  (writesAt_optionalMoment x _).bind fun _ =>
    (writesAt_optionalMoment x _).bind fun _ => of_pure _

theorem writesAt_reportBatch (x : Context) (json : Bool) (change : BatchChange)
    (items : List Service.BatchItem) : (reportBatch x json change items).WritesAt now := by
  unfold reportBatch
  split
  · exact of_throw _
  · dsimp only
    split
    · exact of_pure _
    · exact of_pure _

/-- The time that a command writes: that of its clock, or for a stop the moment that was given, if
the entry can be stopped then at all. -/
def Command.writingTime (x : Context) : Command → Instant
  | .stop _ (some text) =>
    match Moment.parse text x.now with
    | .ok i => if i.IsStorable then i else x.now
    | .error _ => x.now
  | _ => x.now

theorem touched_of_early_stop (id : String) {i : Instant} (hi : ¬i.IsStorable)
    (d : Desk Database) : d.store.Touched now ((Service.stop id i).run.run d).2.store := by
  have hnot {old new : Option Entry} (h : (Request.stop id i).Makes {} d old new) : False := by
    cases h with
    | edit hr hid hfetch h =>
      obtain ⟨⟩ := hr
      exact hi (Instant.wholeSecond_isStorable.mp (Entry.stopAt_eq_ok.mp (mapError_eq_ok.mp h)).1)
  have hop : (Request.stop id i).operation? {} = some (Service.stop id i) := rfl
  cases Request.performed (d := d) hop (fun j hj => (Option.some.inj hj).symm) with
  | failed hf hran hstore hquiet =>
    rw [hran.run, hstore]
    exact .refl now _
  | kept hmade he h hsame hquiet hran => exact (hnot hmade).elim
  | synced hmade he h htasks hprojects hsync ha hran => exact (hnot hmade).elim

theorem clock_of_eq {r : Request} (h : r.clock? = some now) : ∀ i ∈ r.clock?, i = now :=
  fun _ hi => (Option.some.inj (h.symm.trans hi)).symm

theorem clock_of_none {r : Request} (h : r.clock? = none) : ∀ i ∈ r.clock?, i = now :=
  fun _ hi => absurd (h.symm.trans hi) (by simp)

theorem writesAt_stop (x : Context) (json : Bool) (id : String) (moment : Option String) :
    (stop x json id moment).WritesAt (Command.writingTime x (.stop id moment)) := by
  refine (writesAt_momentOrNow x moment).bind_of_answers fun i hi =>
    WritesAt.bind ?_ fun e => of_pure _
  have hstop (now : Instant) : (serve (.stopEntry id) (Service.stop id now)).WritesAt now :=
    of_serve (.stop id now) {} rfl (clock_of_eq rfl)
  cases moment with
  | none =>
    obtain ⟨d, d', ⟨⟩⟩ := hi
    exact hstop x.now
  | some text =>
    have hparse := answers_momentOrNow hi
    simp only [Command.writingTime, hparse]
    by_cases hstorable : i.IsStorable
    · rw [if_pos hstorable]
      exact hstop i
    · rw [if_neg hstorable]
      exact touched_of_early_stop id hstorable

theorem Command.writesAt (x : Context) (json : Bool) (c : Command) :
    (c.work x json).WritesAt (c.writingTime x) := by
  cases c with
  | create o start duration =>
    refine (of_ofExcept _ _).bind fun owner => (of_ofExcept _ _).bind fun i =>
      WritesAt.bind ?_ fun e => of_pure _
    exact of_serve (.create _ owner x.now) {} rfl (clock_of_eq rfl)
  | start o =>
    refine (of_ofExcept _ _).bind fun owner => WritesAt.bind ?_ fun e => of_pure _
    exact of_serve (.start _ owner x.now) _ rfl (clock_of_eq rfl)
  | stop id moment => exact writesAt_stop x json id moment
  | update ids o =>
    refine (writesAt_patch x o).bind fun patch => ?_
    have hrest : WritesAt x.now (do
        reportBatch x json .update
          (← program (Service.updateBatch x.settings.policy ids patch x.now))) := by
      refine WritesAt.bind ?_ fun items => writesAt_reportBatch x json .update items
      exact of_program (.updateBatch ids patch x.now) _ rfl (clock_of_eq rfl)
    split
    · exact (of_throw _).bind fun _ => hrest
    · exact hrest
  | delete id =>
    refine WritesAt.bind ?_ fun e => of_pure _
    exact of_serve (.delete id x.now) _ rfl (clock_of_eq rfl)
  | tag ids tags mode =>
    refine WritesAt.bind ?_ fun items => writesAt_reportBatch x json .tag items
    exact of_program (.updateTagsBatch ids tags mode x.now) {} rfl (clock_of_eq rfl)
  | detail id =>
    refine WritesAt.bind ?_ fun e => of_pure _
    exact of_serve (.get id) {} rfl (clock_of_none rfl)
  | running o =>
    refine (of_ofExcept _ _).bind fun owner => (of_ofExcept _ _).bind fun page =>
      WritesAt.bind ?_ fun es => of_pure _
    exact of_serve (.running owner page) {} rfl (clock_of_none rfl)
  | range first last o =>
    refine (of_ofExcept _ _).bind fun first => (writesAt_momentOrNow x last).bind fun last =>
      (of_ofExcept _ _).bind fun owner => (of_ofExcept _ _).bind fun page =>
        WritesAt.bind ?_ fun es => of_pure _
    exact of_serve (.range owner page first last) {} rfl (clock_of_none rfl)
  | dashboard =>
    refine (of_ofExcept _ _).bind fun owner => WritesAt.bind ?_ fun d => of_pure _
    exact of_serve (.dashboard owner x.now) {} rfl (clock_of_none rfl)
  | syncTask id =>
    refine WritesAt.bind ?_ fun t => of_pure _
    exact of_serve (.syncTaskTime id x.now) {} rfl (clock_of_eq rfl)
  | syncProject id =>
    refine WritesAt.bind ?_ fun t => of_pure _
    exact of_serve (.syncProjectTime id x.now) {} rfl (clock_of_eq rfl)
  | addTask name project id =>
    refine (of_identifierOrNew _ _).bind fun id => (of_ofExcept _ _).bind fun project =>
      WritesAt.bind ?_ fun _ => of_pure _
    exact of_store fun d d' h => Database.touched_of_insertTask h rfl rfl
  | taskDetail id =>
    exact (of_ofExcept _ _).bind fun key => (of_load _ _).bind fun t => of_pure _
  | addProject name workspace autoEstimates id =>
    refine (of_identifierOrNew _ _).bind fun id => WritesAt.bind ?_ fun text =>
      (of_ofExcept _ _).bind fun workspace => WritesAt.bind ?_ fun _ => of_pure _
    · unfold workspaceText
      cases workspace.or x.settings.workspace with
      | none => exact of_throw _
      | some text => exact of_pure _
    · exact of_store fun d d' h => Database.touched_of_insertProject h rfl rfl
  | projectDetail id =>
    exact (of_ofExcept _ _).bind fun key => (of_load _ _).bind fun p => of_pure _

end Commands

structure Entered where
  context : Context
  json : Bool
  command : Command

namespace Entered

def writingTime (c : Entered) : Instant :=
  c.command.writingTime c.context

def leave (c : Entered) (d : Desk Database) : Desk Database :=
  (c.command.perform c.context c.json d).2

def leaveAll (cs : List Entered) (d : Desk Database) : Desk Database :=
  cs.foldl (fun d c => c.leave d) d

theorem touched (c : Entered) (d : Desk Database) :
    d.store.Touched c.writingTime (c.leave d).store := by
  have h := c.command.writesAt c.context c.json d
  unfold leave Command.perform
  cases hrun : (c.command.work c.context c.json).run d with
  | mk r d' =>
    rw [hrun] at h
    cases r <;> exact h

theorem leave_stop {c : Entered} {id text : String} {i : Instant}
    (hc : c.command = .stop id (some text)) (hparse : Moment.parse text c.context.now = .ok i)
    (d : Desk Database) : c.leave d = (((Request.stop id i).program {}).run d).2 := by
  have hwork : (c.command.work c.context c.json).run d =
      match (Service.stop id i).run.run d with
      | (.ok e, d') => (.ok (choose c.json (Exchange.entry e) (headedLine c.context "Stopped" e)), d')
      | (.error f, d') => (.error (.service (.stopEntry id) f), d') := by
    rw [hc, Command.work, CommandLine.stop, Work.run_bind, run_momentOrNow, hparse]
    simp only [Except.mapError, Work.run_bind]
    rw [Work.run_serve]
    cases (Service.stop id i).run.run d with
    | mk r d' => cases r <;> rfl
  rw [leave, Command.perform, hwork, Request.program, Program.run_map]
  cases (Service.stop id i).run.run d with
  | mk r d' => cases r <;> rfl

theorem writingTime_isStorable {c : Entered} (h : c.context.now.IsStorable) :
    c.writingTime.IsStorable := by
  unfold writingTime Command.writingTime
  split
  · split
    · split
      · assumption
      · exact h
    · exact h
  · exact h

/-- The run ends with records that carry times up to its last one, and those that are not as they were
were changed since it began. -/
theorem leaveAll_datedBy {cs : List Entered} {start : Instant} {d : Desk Database}
    (hd : Database.DatedBy start d.store) (hclock : ∀ c ∈ cs, c.context.now.IsStorable)
    (hsorted : (start :: cs.map writingTime).Pairwise (· ≤ ·)) :
    d.store.ChangedSince start (leaveAll cs d).store ∧
      ∃ last, Database.DatedBy last (leaveAll cs d).store ∧
        ∀ t, start ≤ t → (∀ c ∈ cs, c.writingTime ≤ t) → last ≤ t := by
  induction cs generalizing start d with
  | nil => exact ⟨fun t k s hs => .inl hs, start, hd, fun t ht _ => ht⟩
  | cons c cs ih =>
    obtain ⟨hnow, hclock⟩ := List.forall_mem_cons.mp hclock
    obtain ⟨hstart, hsorted⟩ := List.pairwise_cons.mp hsorted
    have hle : start ≤ c.writingTime := hstart _ List.mem_cons_self
    have htime := writingTime_isStorable hnow
    have htouched := c.touched d
    have hdated : Database.DatedBy c.writingTime (c.leave d).store := fun t =>
      (htouched t).datedBy (hd t) htime hle
    obtain ⟨hchanged, last, hlast, hbound⟩ := ih hdated hclock hsorted
    refine ⟨fun t => ?_, last, hlast, fun t _ ht => ?_⟩
    · exact (((htouched t).changedSince htime).mono hle).trans ((hchanged t).mono hle)
    · obtain ⟨hc, hcs⟩ := List.forall_mem_cons.mp ht
      exact hbound t hc hcs

end Entered

theorem commands_advance (start : Instant) (d : Desk Database) (before after : List Entered) :
    (∀ c ∈ before ++ after, ∀ d : Desk Database,
      d.store.Touched c.writingTime (c.leave d).store) ∧
    (Database.DatedBy start d.store →
      (∀ c ∈ before ++ after, c.context.now.IsStorable) →
      (start :: (before ++ after).map Entered.writingTime).Pairwise (· ≤ ·) →
      ∀ t k,
        (∀ s, (Entered.leaveAll (before ++ after) d).store.dates t k = some s →
          ∃ created updated, Instant.ofStamp? s.created = some created ∧
            Instant.ofStamp? s.updated = some updated ∧ created ≤ updated) ∧
        ∀ a b, (Entered.leaveAll before d).store.dates t k = some a →
          (Entered.leaveAll (before ++ after) d).store.dates t k = some b →
            ∃ i j, Instant.ofStamp? a.updated = some i ∧ Instant.ofStamp? b.updated = some j ∧
              i ≤ j) := by
  refine ⟨fun c _ => c.touched, fun hd hclock hsorted t k => ⟨?_, ?_⟩⟩
  · intro s hs
    obtain ⟨-, last, hdated, -⟩ := Entered.leaveAll_datedBy hd hclock hsorted
    obtain ⟨created, updated, hc, hu, -, hle, -⟩ := hdated t k s hs
    exact ⟨created, updated, hc, hu, hle⟩
  · intro a b ha hb
    rw [List.map_append, ← List.cons_append, List.pairwise_append] at hsorted
    obtain ⟨hbefore, hafter, hcross⟩ := hsorted
    obtain ⟨hclockBefore, hclockAfter⟩ := List.forall_mem_append.mp hclock
    obtain ⟨-, last, hdated, hbound⟩ := Entered.leaveAll_datedBy hd hclockBefore hbefore
    have hsorted : (last :: after.map Entered.writingTime).Pairwise (· ≤ ·) := by
      refine List.pairwise_cons.mpr ⟨fun t ht => ?_, hafter⟩
      exact hbound t (hcross start List.mem_cons_self t ht) fun c hc =>
        hcross _ (List.mem_cons_of_mem _ (List.mem_map_of_mem hc)) t ht
    obtain ⟨hchanged, -⟩ := Entered.leaveAll_datedBy hdated hclockAfter hsorted
    have happend : Entered.leaveAll (before ++ after) d =
        Entered.leaveAll after (Entered.leaveAll before d) := List.foldl_append
    rw [happend] at hb
    exact (hdated t).updated_le (hchanged t) ha hb

def enteredAt (now : Instant) (c : Command) : Entered where
  context := {
    settings := {
      databasePath := ""
      user := some "00000000-0000-0000-0000-000000000002"
      workspace := some "00000000-0000-0000-0000-000000000003" }
    pattern := ⟨[]⟩
    now := now }
  json := true
  command := c

def hourOfOctober (hour : Fin 24) : Instant :=
  .ofSecond (1633046400 + 3600 * hour) (by
    unfold Instant.firstSecond Instant.lastSecond
    omega)

def enterHour : Entered :=
  enteredAt (hourOfOctober 10) (.create ⟨none, none, none, none, false, [], false, none⟩
    "2021-10-01T07:00:00Z" 3600)

def endHour (moment : String) : Entered :=
  enteredAt (hourOfOctober 12) (.stop "00000000-0000-0000-0000-000000000001" (some moment))

def hourEntry : Entry where
  id := ⟨.ofNat 1⟩
  description := ""
  user := ⟨.ofNat 2⟩
  workspace := ⟨.ofNat 3⟩
  project := .absent
  task := .absent
  billable := false
  start := hourOfOctober 7
  stop := some (hourOfOctober 8)
  duration := 3600
  createdWith := "tally-cli"
  tags := Shelf.empty
  durationOnly := false
  created := hourOfOctober 10
  updated := hourOfOctober 10

def endedHour : Entry :=
  { hourEntry with
    stop := some (hourOfOctober 9)
    duration := 7200
    updated := hourOfOctober 9 }

theorem entries_endHour :
    (Entered.leaveAll [enterHour, endHour "2021-10-01T09:00:00Z"] ⟨{}, .after 0⟩).store.entries =
      (enterHour.leave ⟨{}, .after 0⟩).store.entries.put (.ofEntry endedHour) := by
  have hentered : (enterHour.leave ⟨{}, .after 0⟩).store.entries =
      Shelf.empty.put (.ofEntry hourEntry) := by decide +kernel
  have hfetch := Database.fetch_of_put hentered
    (EntryRow.ofEntry_denotes_self.mpr (by decide : hourEntry.HasPlainInstants))
  have hstop : hourEntry.stopAt (hourOfOctober 9) = .ok endedHour := by decide
  have hended : Database.view.entries (((Request.stop "00000000-0000-0000-0000-000000000001"
      (hourOfOctober 9)).program {}).run (enterHour.leave ⟨{}, .after 0⟩)).2.store =
        Database.view.put endedHour (enterHour.leave ⟨{}, .after 0⟩).store.entries :=
    (Database.view.edit_answered rfl parse_first hfetch (mapError_eq_ok.mpr hstop)).1
  have hleft : Entered.leaveAll [enterHour, endHour "2021-10-01T09:00:00Z"] ⟨{}, .after 0⟩ =
      (((Request.stop "00000000-0000-0000-0000-000000000001" (hourOfOctober 9)).program {}).run
        (enterHour.leave ⟨{}, .after 0⟩)).2 :=
    Entered.leave_stop (c := endHour "2021-10-01T09:00:00Z") rfl (by decide +kernel) _
  simpa only [← hleft, Database.view_entries, Database.view_put] using hended

theorem commands_advance_endHour :
    (∀ t k a b, (Entered.leaveAll [enterHour] ⟨{}, .after 0⟩).store.dates t k = some a →
      (Entered.leaveAll ([enterHour] ++ [endHour "2021-10-01T11:00:00Z"])
        ⟨{}, .after 0⟩).store.dates t k = some b →
      ∃ i j, Instant.ofStamp? a.updated = some i ∧ Instant.ofStamp? b.updated = some j ∧ i ≤ j) ∧
    (Entered.leaveAll [enterHour, endHour "2021-10-01T09:00:00Z"] ⟨{}, .after 0⟩).store.dates
      .entries (.named "00000000-0000-0000-0000-000000000001") =
        some ⟨"2021-10-01T10:00:00Z", "2021-10-01T09:00:00Z"⟩ := by
  have htimes : Instant.epoch :: ([enterHour] ++ [endHour "2021-10-01T11:00:00Z"]).map
      Entered.writingTime = [.epoch, hourOfOctober 10, hourOfOctober 11] := by decide +kernel
  have hempty : Database.DatedBy Instant.epoch {} := by
    rintro (_ | _ | _) k s ⟨⟩
  constructor
  · intro t k
    refine ((commands_advance .epoch ⟨{}, .after 0⟩ [enterHour]
      [endHour "2021-10-01T11:00:00Z"]).2 hempty ?_ ?_ t k).2
    · simp only [List.cons_append, List.nil_append, List.forall_mem_cons]
      exact ⟨by decide, by decide, List.forall_mem_nil _⟩
    · rw [htimes]
      decide
  · have hname : (EntryRow.ofEntry endedHour).key =
        .named "00000000-0000-0000-0000-000000000001" := by decide +kernel
    have hdates : (EntryRow.ofEntry endedHour).dates =
        ⟨"2021-10-01T10:00:00Z", "2021-10-01T09:00:00Z"⟩ := by decide +kernel
    rw [Database.dates, entries_endHour, ← hname, ← hdates]
    exact congrArg (Option.map EntryRow.dates) (Shelf.find?_put_self _ _)

end CommandLine

end Timesheet
