import Timesheet.CommandLine.Response
import Timesheet.Proofs.Advancing
import Timesheet.Proofs.Items
import Timesheet.Proofs.Lines
import Timesheet.Proofs.Reordering

/-!
Changes of several entries, and what their commands report. The items of the list are tried in turn,
and each is told of once, with the entry that it changed or as a failure with its text. Main statement:
text and document tell of the same entries and failures, and a command fails if one item does, if
there is none, or if it is refused before any is tried; in the last two cases nothing changes.
-/

namespace Timesheet

open Service

section Reports

variable {σ : Type} [Store σ] {apply : String → Operation Entry} {ids : List String}
  {es : List Entry} {failed : List (String × String)} {d d' : Desk σ}

/-- The items are tried in turn. Each gives a changed entry, or a failure with its text. -/
inductive Reports (apply : String → Operation Entry) :
    Desk σ → List String → List Entry → List (String × String) → Desk σ → Prop
  | nil (d : Desk σ) : Reports apply d [] [] [] d
  | changed {id : String} {ids : List String} {e : Entry} {es : List Entry}
      {failed : List (String × String)} {d d₁ d₂ : Desk σ}
      (h : (apply id).run.run d = (.ok e, d₁)) (hrest : Reports apply d₁ ids es failed d₂) :
      Reports apply d (id :: ids) (e :: es) failed d₂
  | failed {id : String} {ids : List String} {f : ServiceFault} {es : List Entry}
      {failed : List (String × String)} {d d₁ d₂ : Desk σ}
      (h : (apply id).run.run d = (.error f, d₁)) (hrest : Reports apply d₁ ids es failed d₂) :
      Reports apply d (id :: ids) es ((id, f.message) :: failed) d₂

def changedEntries (items : List BatchItem) : List Entry :=
  items.filterMap BatchItem.succeeded?

def failureTexts (items : List BatchItem) : List (String × String) :=
  (items.filterMap BatchItem.failed?).map fun f => (f.1, f.2.message)

theorem eq_nil_of_unreported {items : List BatchItem} (hchanged : changedEntries items = [])
    (hfailed : failureTexts items = []) : items = [] := by
  cases items with
  | nil => rfl
  | cons i items =>
    obtain ⟨id, r⟩ := i
    cases r with
    | ok e => cases hchanged
    | error f => cases hfailed

theorem reports_forEachId (apply : String → Operation Entry) (ids : List String) (d : Desk σ) :
    Reports apply d ids (changedEntries ((forEachId apply ids).run d).1)
      (failureTexts ((forEachId apply ids).run d).1) ((forEachId apply ids).run d).2 := by
  induction ids generalizing d with
  | nil => exact .nil d
  | cons id ids ih =>
    rw [run_forEachId_cons]
    cases h : (apply id).run.run d with
    | mk r d₁ =>
      cases r with
      | ok e => exact .changed h (ih d₁)
      | error f => exact .failed h (ih d₁)

theorem isEmpty_forEachId (apply : String → Operation Entry) (ids : List String) (d : Desk σ) :
    ((forEachId apply ids).run d).1.isEmpty = ids.isEmpty := by
  cases ids with
  | nil => rfl
  | cons id ids => rw [run_forEachId_cons, List.isEmpty_cons, List.isEmpty_cons]

/-- Every item is told of once: by the entry that it names, or as a failure. Both groups are in the
order of the items. -/
def EachOnce (items : List String) (changed : List Entry) (failed : List (String × String)) : Prop :=
  ∃ named : List String, named.map (Identifier.parse .entry) = changed.map (fun e => .ok e.id) ∧
    named.Sublist items ∧ (failed.map Prod.fst).Sublist items ∧
    (named ++ failed.map Prod.fst).Perm items

theorem Reports.eachOnce
    (hid : ∀ id e (d d' : Desk σ), (apply id).run.run d = (.ok e, d') →
      Identifier.parse .entry id = .ok e.id)
    (h : Reports apply d ids es failed d') : EachOnce ids es failed := by
  induction h with
  | nil d => exact ⟨[], rfl, .slnil, .slnil, .nil⟩
  | changed h hrest ih =>
    obtain ⟨named, hnamed, hsub, hfailed, hperm⟩ := ih
    refine ⟨_ :: named, ?_, hsub.cons_cons _, hfailed.cons _, hperm.cons _⟩
    rw [List.map_cons, List.map_cons, hid _ _ _ _ h, hnamed]
  | failed h hrest ih =>
    obtain ⟨named, hnamed, hsub, hfailed, hperm⟩ := ih
    -- The item goes behind all that are named, though it comes before them on the list.
    exact ⟨named, hnamed, hsub.cons _, hfailed.cons_cons _, List.perm_middle.trans (hperm.cons _)⟩

theorem EachOnce.eq_nil {items : List String} (h : EachOnce items [] []) : items = [] := by
  obtain ⟨named, hnamed, -, -, hperm⟩ := h
  obtain rfl := List.map_eq_nil_iff.mp hnamed
  exact hperm.symm.eq_nil

end Reports

namespace Revision

variable {σ κ ρ : Type} [Store σ] [KeyOrder κ] [DecidableEq κ] {key : ρ → κ} {R : Revision}

theorem parse_of_run (B : Books σ key) {text : String} {e : Entry} {d d' : Desk σ}
    (h : (R.operation text).run.run d = (.ok e, d')) : Identifier.parse .entry text = .ok e.id := by
  obtain ⟨x, s, hrun, htried⟩ := R.run_operation text d
  obtain ⟨hx, -⟩ := Prod.mk.inj (h.symm.trans hrun)
  cases htried with
  | failed hf => cases hx
  | unsaved hattempt hreplace => cases hx
  | saved hattempt hreplace hfollows =>
    obtain ⟨⟩ := hx
    exact (id_of_attempt B hattempt).1
  | @settled e₀ e₁ s₁ s₂ r hattempt hreplace hfollows hsettles =>
    cases r with
    | error f => cases hx
    | ok u =>
      obtain ⟨⟩ := hx
      exact (id_of_attempt B hattempt).1

end Revision

namespace CommandLine

open Work

section Patches

variable {x : Context} {d : Desk Database}

def Context.Misreads (x : Context) (text : Option String) : Prop :=
  ∃ t f, text = some t ∧ Moment.parse t x.now = .error f

def Context.reading (x : Context) (text : Option String) : Option Instant :=
  text.bind fun t => (Moment.parse t x.now).toOption

theorem optionalMoment_cases (x : Context) (text : Option String) (d : Desk Database) :
    (x.Misreads text ∧ ∃ f, (x.optionalMoment text).run d = (.error f, d)) ∨
      ¬x.Misreads text ∧ (x.optionalMoment text).run d = (.ok (x.reading text), d) ∧
        (x.reading text = none ↔ text = none) := by
  cases text with
  | none => exact .inr ⟨by simp [Context.Misreads], rfl, by simp [Context.reading]⟩
  | some t =>
    rw [run_optionalMoment]
    cases hparse : Moment.parse t x.now with
    | error f => exact .inl ⟨⟨t, f, rfl, hparse⟩, _, rfl⟩
    | ok i =>
      have hreading : x.reading (some t) = some i := by
        rw [Context.reading, Option.bind_some, hparse, Except.toOption]
      rw [hreading]
      refine .inr ⟨?_, rfl, by simp⟩
      rintro ⟨t', f, ⟨⟩, hf⟩
      cases hparse.symm.trans hf

namespace ChangeOptions

def blank : ChangeOptions :=
  ⟨none, none, none, none, none, none, none, none, none⟩

/-- The patch that the options stand for, if their moments can be read. -/
def reading (x : Context) (o : ChangeOptions) : Patch where
  description := o.description
  workspace := o.workspace
  project := o.project
  task := o.task
  billable := o.billable
  start := x.reading o.start
  stop := x.reading o.stop
  tags := o.tags
  durationOnly := o.durationOnly

theorem patch_cases (x : Context) (o : ChangeOptions) (d : Desk Database) :
    ((x.Misreads o.start ∨ x.Misreads o.stop) ∧ ∃ f, (o.patch x).run d = (.error f, d)) ∨
      ¬(x.Misreads o.start ∨ x.Misreads o.stop) ∧ (o.patch x).run d = (.ok (o.reading x), d) ∧
        ((o.reading x).isEmpty = true ↔ o = blank) := by
  unfold patch
  simp only [Work.run_bind]
  rcases optionalMoment_cases x o.start d with ⟨hbad, f, hrun⟩ | ⟨hstart, hrun, hnone⟩
  · rw [hrun]
    exact .inl ⟨.inl hbad, f, rfl⟩
  rw [hrun]
  dsimp only
  rcases optionalMoment_cases x o.stop d with ⟨hbad, f, hrun'⟩ | ⟨hstop, hrun', hnone'⟩
  · rw [hrun']
    exact .inl ⟨.inr hbad, f, rfl⟩
  rw [hrun']
  refine .inr ⟨not_or.mpr ⟨hstart, hstop⟩, rfl, ?_⟩
  rw [Patch.isEmpty, beq_iff_eq]
  -- A moment that could be read is one in the patch too, so that only blank options
  -- make an empty patch.
  obtain ⟨description, workspace, project, task, billable, start, stop, tags, durationOnly⟩ := o
  simp only [reading, blank, Patch.mk.injEq, ChangeOptions.mk.injEq, hnone, hnone']

end ChangeOptions

end Patches

inductive BatchCommand where
  | update (changes : ChangeOptions)
  | tag (tags : List String) (mode : TagMode)

/-- What is printed about changed entries and failures; nothing if there are none of either. -/
def reportText (x : Context) (json : Bool) (change : BatchChange) (changed : List Entry)
    (failed : List (String × String)) : String :=
  if changed = [] ∧ failed = [] then ""
  else if json then
    document (.object [("updated", .array (changed.map Exchange.entry)),
      ("failed", .array (failed.map fun f =>
        .object [("id", .string f.1), ("error", .string f.2)]))])
  else
    "".intercalate (changed.map fun e => change.heading ++ " " ++ Report.entryLine x.pattern e) ++
      "".intercalate (failed.map fun f => Report.line ("Failed " ++ f.1 ++ ": " ++ f.2))

theorem intercalate_eq_empty {α : Type} {f : α → String} (hf : ∀ a, f a ≠ "") {l : List α} :
    "".intercalate (l.map f) = "" ↔ l = [] := by
  rw [← String.toList_inj, Text.toList_intercalate_map, String.toList_empty,
    List.flatten_eq_nil_iff, List.forall_mem_map]
  constructor
  · intro h
    refine List.eq_nil_iff_forall_not_mem.mpr fun a ha => hf a ?_
    exact String.toList_eq_nil_iff.mp (h a ha)
  · rintro rfl
    exact List.forall_mem_nil _

theorem reportText_eq_empty {x : Context} {json : Bool} {change : BatchChange} {changed : List Entry}
    {failed : List (String × String)} :
    reportText x json change changed failed = "" ↔ changed = [] ∧ failed = [] := by
  unfold reportText
  split
  · exact iff_of_true rfl ‹_›
  have hline (s : String) : Report.line s ≠ "" := fun h =>
    absurd (String.append_eq_empty_iff.mp h).2 (by decide)
  split
  · exact iff_of_false (hline _) ‹_›
  · rw [String.append_eq_empty_iff, intercalate_eq_empty, intercalate_eq_empty]
    · exact fun f => hline _
    · exact fun e h => hline _ (String.append_eq_empty_iff.mp h).2

theorem out_choose_batch (x : Context) (json : Bool) (change : BatchChange) {items : List BatchItem}
    (hitems : items ≠ []) :
    (choose json (batchDocument (changedEntries items) (items.filterMap BatchItem.failed?))
      (batchText x change (changedEntries items) (items.filterMap BatchItem.failed?))).out =
        reportText x json change (changedEntries items) (failureTexts items) := by
  have hsome : ¬(changedEntries items = [] ∧ failureTexts items = []) :=
    fun h => hitems (eq_nil_of_unreported h.1 h.2)
  rw [reportText, if_neg hsome, failureTexts, List.map_map, List.map_map]
  rfl

theorem run_reportBatch (x : Context) (json : Bool) (change : BatchChange) {items : List BatchItem}
    (hitems : items ≠ []) (d : Desk Database) :
    ∃ fault, (reportBatch x json change items).run d =
        (.ok ⟨reportText x json change (changedEntries items) (failureTexts items), fault⟩, d) ∧
      (fault = none ↔ failureTexts items = []) := by
  rw [← out_choose_batch x json change hitems]
  unfold reportBatch
  rw [if_neg (mt List.isEmpty_iff.mp hitems)]
  dsimp only
  split
  · rename_i hempty
    exact ⟨none, rfl, iff_of_true rfl (List.map_eq_nil_iff.mpr (List.isEmpty_iff.mp hempty))⟩
  · rename_i hsome
    refine ⟨_, rfl, iff_of_false (Option.some_ne_none _) fun h => ?_⟩
    exact hsome (List.isEmpty_iff.mpr (List.map_eq_nil_iff.mp h))

namespace BatchCommand

variable {x : Context} {json : Bool} {ids : String} {d : Desk Database} {c : BatchCommand}

def command (ids : String) : BatchCommand → Command
  | update changes => .update ids changes
  | tag tags mode => .tag ids tags mode

def change : BatchCommand → BatchChange
  | update _ => .update
  | tag _ _ => .tag

def apply (x : Context) : BatchCommand → String → Operation Entry
  | update changes => fun id => Service.update x.settings.policy id (changes.reading x) x.now
  | tag tags mode => fun id => Service.updateTags id tags mode x.now

def IsRefused (x : Context) : BatchCommand → Prop
  | update changes => (x.Misreads changes.start ∨ x.Misreads changes.stop) ∨ changes = .blank
  | tag _ _ => False

def response (x : Context) (c : BatchCommand) (ids : String) (json : Bool) (d : Desk Database) :
    Response :=
  .ofOutcome ((c.command ids).perform x json d).1

theorem parse_of_apply {id : String} {e : Entry} {d' : Desk Database}
    (h : (c.apply x id).run.run d = (.ok e, d')) : Identifier.parse .entry id = .ok e.id := by
  cases c with
  | update changes =>
    exact (Revision.patch x.settings.policy (changes.reading x) x.now).parse_of_run Database.books h
  | tag tags mode => exact (Revision.tags tags mode x.now).parse_of_run Database.books h

theorem run_of_refused (h : c.IsRefused x) (ids : String) (json : Bool) (d : Desk Database) :
    ∃ f, ((c.command ids).work x json).run d = (.error f, d) := by
  cases c with
  | tag tags mode => exact h.elim
  | update changes =>
    rw [command, Command.work, CommandLine.update, Work.run_bind]
    rcases changes.patch_cases x d with ⟨-, f, hrun⟩ | ⟨hread, hrun, hblank⟩
    · rw [hrun]
      exact ⟨f, rfl⟩
    · rw [hrun]
      dsimp only
      rw [if_pos (hblank.mpr (h.resolve_left hread))]
      exact ⟨_, rfl⟩

theorem run_of_not_refused (h : ¬c.IsRefused x) (ids : String) (json : Bool) (d : Desk Database) :
    ((c.command ids).work x json).run d =
      (reportBatch x json c.change ((forEachId (c.apply x) (parseIdList ids)).run d).1).run
        ((forEachId (c.apply x) (parseIdList ids)).run d).2 := by
  cases c with
  | tag tags mode => rfl
  | update changes =>
    obtain ⟨hread, hblank⟩ := not_or.mp h
    rw [command, Command.work, CommandLine.update, Work.run_bind]
    rcases changes.patch_cases x d with ⟨hbad, -⟩ | ⟨-, hrun, hempty⟩
    · exact absurd hbad hread
    · rw [hrun]
      dsimp only
      rw [if_neg (mt hempty.mp hblank)]
      rfl

theorem response_of_refused (h : c.IsRefused x) (ids : String) (json : Bool) (d : Desk Database) :
    ((c.command ids).perform x json d).2 = d ∧ (c.response x ids json d).out = "" ∧
      (c.response x ids json d).exit ≠ 0 := by
  obtain ⟨f, hrun⟩ := run_of_refused h ids json d
  rw [response, Command.perform, hrun]
  exact ⟨rfl, rfl, Nat.one_ne_zero⟩

theorem response_of_not_refused (h : ¬c.IsRefused x) (json : Bool) {items : List BatchItem}
    {d' : Desk Database} (hran : (forEachId (c.apply x) (parseIdList ids)).run d = (items, d')) :
    ((c.command ids).perform x json d).2 = d' ∧
      (c.response x ids json d).out =
        reportText x json c.change (changedEntries items) (failureTexts items) ∧
      ((c.response x ids json d).exit ≠ 0 ↔ items = [] ∨ failureTexts items ≠ []) := by
  rw [response, Command.perform, run_of_not_refused h, hran]
  by_cases hitems : items = []
  · subst hitems
    exact ⟨rfl, rfl, iff_of_true Nat.one_ne_zero (.inl rfl)⟩
  · obtain ⟨fault, hrun, hfault⟩ := run_reportBatch x json c.change hitems d'
    rw [hrun]
    cases fault with
    | none =>
      refine ⟨rfl, rfl, iff_of_false (not_not.mpr rfl) ?_⟩
      exact not_or.mpr ⟨hitems, not_not.mpr (hfault.mp rfl)⟩
    | some f =>
      exact ⟨rfl, rfl, iff_of_true Nat.one_ne_zero (.inr (mt hfault.mpr (Option.some_ne_none f)))⟩

/-- What a call reports and leaves, whether it prints text or a document. -/
structure Reported (x : Context) (c : BatchCommand) (ids : String) (items : List String)
    (d : Desk Database) (changed : List Entry) (failed : List (String × String))
    (d' : Desk Database) : Prop where
  leaves : ∀ json, ((c.command ids).perform x json d).2 = d'
  prints : ∀ json, (c.response x ids json d).out = reportText x json c.change changed failed
  fails : ∀ json, (c.response x ids json d).exit ≠ 0 ↔
    items = [] ∨ failed ≠ [] ∨ c.IsRefused x
  idle : items = [] ∨ c.IsRefused x → changed = [] ∧ failed = [] ∧ d' = d
  tries : ¬c.IsRefused x → Reports (c.apply x) d items changed failed d'
  once : ¬c.IsRefused x → EachOnce items changed failed

theorem reported_of_refused (h : c.IsRefused x) (ids : String) (d : Desk Database) :
    c.Reported x ids (parseIdList ids) d [] [] d := by
  have hresponse (json : Bool) := response_of_refused h ids json d
  refine ⟨fun json => (hresponse json).1, fun json => (hresponse json).2.1, fun json => ?_,
    fun _ => ⟨rfl, rfl, rfl⟩, absurd h, absurd h⟩
  exact iff_of_true (hresponse json).2.2 (.inr (.inr h))

theorem reported_of_not_refused (h : ¬c.IsRefused x) {items : List BatchItem} {d' : Desk Database}
    (hran : (forEachId (c.apply x) (parseIdList ids)).run d = (items, d')) :
    c.Reported x ids (parseIdList ids) d (changedEntries items) (failureTexts items) d' := by
  have hresponse (json : Bool) := response_of_not_refused h json hran
  have hreports := reports_forEachId (c.apply x) (parseIdList ids) d
  rw [hran] at hreports
  have hempty : items = [] ↔ parseIdList ids = [] := by
    rw [← List.isEmpty_iff, ← List.isEmpty_iff, ← isEmpty_forEachId (c.apply x) _ d, hran]
  refine ⟨fun json => (hresponse json).1, fun json => (hresponse json).2.1, fun json => ?_,
    fun hidle => ?_, fun _ => hreports, fun _ => ?_⟩
  · rw [(hresponse json).2.2, hempty, or_iff_left h]
  · have hnone := hidle.resolve_right h
    rw [hnone] at hreports
    obtain rfl := hempty.mpr hnone
    cases hreports
    exact ⟨rfl, rfl, rfl⟩
  · exact hreports.eachOnce fun id e d d' => parse_of_apply

end BatchCommand

theorem batch_commands_report (x : Context) (c : BatchCommand) (ids : String) (d : Desk Database) :
    ∃ items changed failed d', Lists ids items ∧ c.Reported x ids items d changed failed d' := by
  by_cases h : c.IsRefused x
  · exact ⟨_, [], [], d, lists_iff.mpr rfl, BatchCommand.reported_of_refused h ids d⟩
  · exact ⟨_, _, _, _, lists_iff.mpr rfl, BatchCommand.reported_of_not_refused h rfl⟩

def bareContext : Context where
  settings := { databasePath := "" }
  pattern := ⟨[]⟩
  now := .epoch

/-- An item that comes twice is reported twice, and a blank one is not. -/
example : ((BatchCommand.tag [] .add).response bareContext "x, ,x" false ⟨{}, .after 0⟩).out =
    "Failed x: invalid time entry ID: \"x\"\nFailed x: invalid time entry ID: \"x\"\n" := by
  decide +kernel

def someday : BatchCommand :=
  .update { ChangeOptions.blank with start := some "someday" }

/-- If the start cannot be read, the items are not reported at all. -/
theorem not_reported_someday : ¬∃ items changed failed,
    Lists "x" items ∧ EachOnce items changed failed ∧
    (someday.response bareContext "x" false ⟨{}, .after 0⟩).out =
      reportText bareContext false someday.change changed failed := by
  rintro ⟨items, changed, failed, hlists, honce, hout⟩
  have hrefused : someday.IsRefused bareContext :=
    .inl (.inl ⟨"someday", .unreadable "someday", rfl, by decide +kernel⟩)
  rw [(BatchCommand.response_of_refused hrefused "x" false _).2.1] at hout
  obtain ⟨rfl, rfl⟩ := reportText_eq_empty.mp hout.symm
  have hitems : items = ["x"] := (lists_iff.mp hlists).trans (by decide)
  cases hitems.symm.trans honce.eq_nil

end CommandLine

end Timesheet
