import Timesheet.Proofs.Fresh
import Timesheet.Proofs.Pairing
import Timesheet.Proofs.View

/-!
One timer for an owner. Main statement: where a second timer is refused, no session leads to an owner
with two running entries, and a start is refused on this account exactly if the owner has a running
entry.
-/

namespace Timesheet

open Service

namespace Entry

def IsTimed (e : Entry) : Prop :=
  e.isRunning = true ∨ e.stop.isSome = true

/-- The instants are storable that an edit may leave as they are. -/
def IsLasting (e : Entry) : Prop :=
  e.start.IsStorable ∧ e.created.IsStorable ∧ ∀ stop ∈ e.stop, stop.IsStorable

instance (e : Entry) : Decidable e.IsTimed :=
  inferInstanceAs (Decidable (_ ∨ _))

instance (e : Entry) : Decidable e.IsLasting :=
  inferInstanceAs (Decidable (_ ∧ _ ∧ ∀ stop ∈ e.stop, _))

structure Follows (e' e : Entry) : Prop where
  user : e'.user = e.user
  timed : e.IsTimed → e'.IsTimed
  running : e.IsTimed → e'.isRunning = true → e.isRunning = true
  lasting : e.IsLasting → e'.IsLasting

variable {e e' : Entry} {now : Instant}

theorem isRunning_iff : e.isRunning = true ↔ e.duration = runningDuration :=
  beq_iff_eq

theorem not_isRunning_of_nonneg (h : 0 ≤ e.duration) : ¬e.isRunning = true := by
  rw [isRunning_iff, runningDuration]
  omega

theorem follows_stopAt (h : e.stopAt now = .ok e') : e'.Follows e := by
  obtain ⟨hstorable, hlt, rfl⟩ := stopAt_eq_ok.mp h
  have hnot := not_isRunning_of_nonneg (e := { e with
    stop := some now.wholeSecond
    duration := e.start.secondsUntil now.wholeSecond
    updated := now.wholeSecond }) (Instant.secondsUntil_nonneg (Instant.not_lt.mp hlt))
  refine ⟨rfl, fun _ => .inr rfl, fun _ hrun => absurd hrun hnot, fun ⟨hs, hc, _⟩ => ⟨hs, hc, ?_⟩⟩
  rintro _ ⟨⟩
  exact hstorable

theorem IsLasting.applyPatch {p : Patch} (he : e.IsLasting) (h : e.applyPatch p now = .ok e') :
    e'.IsLasting := by
  obtain ⟨hi, -, -, -, hcreated, -⟩ := applyPatch_eq_ok h
  rcases patchedInterval_eq_ok hi with heq | ⟨hs, ht, -⟩
  · have hstart : e'.start = e.start := congrArg Interval.start heq
    have hstop : e'.stop = e.stop := congrArg Interval.stop heq
    rw [IsLasting, hstart, hstop, hcreated]
    exact he
  · refine ⟨?_, hcreated ▸ he.2.1, fun stop hstop => ?_⟩
    · rcases hs with hs | ⟨s, -, -, hs⟩
      · exact (congrArg Instant.IsStorable hs).mpr he.1
      · exact hs
    · rcases ht with ht | ⟨s, -, ht, hs⟩
      · exact he.2.2 stop (ht.symm.trans hstop)
      · obtain rfl : s.wholeSecond = stop := Option.some.inj (ht.symm.trans hstop)
        exact hs

theorem IsTimed.applyPatch {p : Patch} (he : e.IsTimed) (h : e.applyPatch p now = .ok e') :
    e'.IsTimed ∧ (e'.isRunning = true → e.isRunning = true) := by
  obtain ⟨hi, -⟩ := applyPatch_eq_ok h
  rcases patchedInterval_eq_ok hi with heq | ⟨-, ht, ⟨hnone, hd⟩ | ⟨stop, hsome, hlt, hd⟩⟩
  · have hstop : e'.stop = e.stop := congrArg Interval.stop heq
    have hduration : e'.duration = e.duration := congrArg Interval.duration heq
    have hrun : e'.isRunning = e.isRunning := by rw [isRunning, isRunning, hduration]
    rw [IsTimed, hrun, hstop]
    exact ⟨he, fun h => h⟩
  · -- No stop is supplied, so the entry had none before and was running.
    have hnone' : e.stop = none := by
      rcases ht with ht | ⟨s, -, ht, -⟩
      · exact ht.symm.trans hnone
      · cases hnone.symm.trans ht
    exact ⟨.inl (isRunning_iff.mpr hd), fun _ => he.resolve_right (by simp [hnone'])⟩
  · have hnonneg : 0 ≤ e'.duration := by
      rw [show e'.duration = _ from hd]
      exact Instant.secondsUntil_nonneg (Instant.not_lt.mp hlt)
    have hstop : e'.stop = some stop := hsome
    exact ⟨.inr (by rw [hstop]; rfl), fun hrun => absurd hrun (not_isRunning_of_nonneg hnonneg)⟩

theorem follows_applyPatch {p : Patch} (h : e.applyPatch p now = .ok e') : e'.Follows e where
  user := (applyPatch_eq_ok h).2.2.1
  timed he := (he.applyPatch h).1
  running he := (he.applyPatch h).2
  lasting he := he.applyPatch h

end Entry

namespace Request

variable {r : Request} {text : String} {f : Entry → Except Refusal Entry} {e e' : Entry}

theorem follows_of_edit? (hr : r.edit? = some (text, f)) (h : f e = .ok e') : e'.Follows e := by
  cases r <;> cases hr
  · exact Entry.follows_stopAt (mapError_eq_ok.mp h)
  · exact Entry.follows_applyPatch h
  · obtain ⟨⟩ := h
    exact ⟨rfl, id, fun _ => id, id⟩

theorem updated_of_edit? (hr : r.edit? = some (text, f)) (h : f e = .ok e')
    (hclock : ∀ i ∈ r.clock?, i.IsStorable) : e'.updated.IsStorable := by
  have hnow {now : Instant} (hnow : r.clock? = some now) : e'.updated.IsStorable := by
    have hwritten := writtenAt_of_edit? hr (fun i hi => Option.some.inj (hi.symm.trans hnow)) h
    rw [hwritten.updated]
    exact Instant.wholeSecond_isStorable.mpr (hclock now hnow)
  cases r <;> cases hr <;> exact hnow rfl

end Request

theorem NewEntry.entry_isTimed {input : NewEntry} {id : EntryId} {user : UserId} {now : Instant}
    {e : Entry} (h : input.entry id user now = .ok e) : e.IsTimed ∧ ¬e.isRunning = true := by
  obtain ⟨details, start, duration, -, -, -, h⟩ := entry_eq_ok.mp h
  obtain ⟨hd, -, stop, -, -, rfl⟩ := Entry.finished_eq_ok.mp h
  exact ⟨.inr rfl, Entry.not_isRunning_of_nonneg hd⟩

section Start

variable {σ : Type} [Store σ] {policy : Policy} {d : Desk σ} {fields : EntryFields} {owner : String}
  {now : Instant} {user : UserId} {id : EntryId}

theorem running_of_makes (hpolicy : policy.singleRunningTimer = true) {old new : Option Entry}
    (howner : Identifier.parse .user owner = .ok user)
    (h : (Request.start fields owner now).Makes policy d old new) :
    Store.running d.store user Page.single = .ok [] := by
  cases h with
  | start howner' hfields hfree =>
    obtain ⟨⟩ := howner.symm.trans howner'
    exact hfree hpolicy
  | edit hr => cases hr

theorem start_busy_iff (hpolicy : policy.singleRunningTimer = true) :
    (((Request.start fields owner now).program policy).run d).1 =
        .entry (.error (.alreadyRunning user id)) ↔
      Identifier.parse .user owner = .ok user ∧ (∃ details, fields.validate = .ok details) ∧
        ∃ e es, Store.running d.store user Page.single = .ok (e :: es) ∧ e.id = id := by
  have hfree {old new : Option Entry} {e : Entry} {es : List Entry}
      (hmade : (Request.start fields owner now).Makes policy d old new)
      (howner : Identifier.parse .user owner = .ok user)
      (h : Store.running d.store user Page.single = .ok (e :: es)) : False := by
    cases (running_of_makes hpolicy howner hmade).symm.trans h
  have hop : (Request.start fields owner now).operation? policy =
      some (Service.start policy fields owner now) := rfl
  -- The list is read before anything is drawn or stored, so the ways to fail tell what it held.
  rw [Request.program_of_operation? hop, Program.run_map]
  cases Request.performed (d := d) hop (fun i hi => (Option.some.inj hi).symm) with
  | @failed f d' t hfails hran hstore hquiet =>
    rw [hran.run]
    constructor
    · intro h
      have hf : f = .alreadyRunning user id := Except.error.inj (Reply.entry.inj h)
      cases hfails with
      | busy hpolicy howner hfields hbusy =>
        obtain ⟨⟩ := hf
        exact ⟨howner, ⟨_, hfields⟩, _, _, hbusy, rfl⟩
      | unloaded hr => cases hr
      | unsaved hmade => cases hmade with | edit hr => cases hr
      | _ => cases hf
    · rintro ⟨howner, ⟨details, hfields⟩, e, es, h, rfl⟩
      cases hfails with
      | busy hpolicy howner' hfields' h' =>
        obtain ⟨⟩ := howner.symm.trans howner'
        obtain ⟨⟩ := h.symm.trans h'
        rfl
      | unlisted hpolicy howner' hfields' h' =>
        obtain ⟨⟩ := howner.symm.trans howner'
        cases h.symm.trans h'
      | unstarted howner' hfields' => cases hfields.symm.trans hfields'
      | unowned hr howner' =>
        obtain ⟨⟩ := hr
        cases howner.symm.trans howner'
      | unsaved hmade => exact (hfree hmade howner h).elim
      | uninserted hmade => exact (hfree hmade howner h).elim
      | unnamed hr => cases hr
      | unloaded hr => cases hr
      | unedited hr => cases hr
  | kept hmade he h hsame hquiet hran =>
    rw [hran.run]
    exact iff_of_false (by simp) fun ⟨howner, _, e, es, h, _⟩ => hfree hmade howner h
  | synced hmade he h htasks hprojects hsync ha hran =>
    rw [hran.run]
    refine iff_of_false ?_ fun ⟨howner, _, e, es, h, _⟩ => hfree hmade howner h
    rcases ha with ⟨rfl, -⟩ | ⟨cause, rfl⟩ <;> simp

end Start

theorem exists_take_one {α : Type} {s : List α} {P : α → Prop}
    (h : ∀ a ∈ s, ∀ b ∈ s, a = b) : (∃ a t, s.take 1 = a :: t ∧ P a) ↔ ∃ a ∈ s, P a := by
  cases s with
  | nil => simp
  | cons b s =>
    simp only [List.take_succ_cons, List.take_zero, List.cons.injEq]
    constructor
    · rintro ⟨a, t, ⟨rfl, rfl⟩, ha⟩
      exact ⟨b, List.mem_cons_self, ha⟩
    · rintro ⟨a, ha, hP⟩
      obtain rfl := h a ha b List.mem_cons_self
      exact ⟨a, [], ⟨rfl, rfl⟩, hP⟩

/-- What a start is answered where a second timer is refused, if `Runs` tells whose timers run: it is
refused exactly if the owner has a running entry, and that one is named. -/
def RefusesSecondTimer {σ : Type} [Store σ] (policy : Policy) (Runs : UserId → EntryId → Prop)
    (d : Desk σ) : Prop :=
  ∀ fields owner now user id, (((Request.start fields owner now).program policy).run d).1 =
      .entry (.error (.alreadyRunning user id)) ↔
    Identifier.parse .user owner = .ok user ∧ (∃ details, fields.validate = .ok details) ∧
      Runs user id

namespace Memory

/-- Entries that are running or have a stop, at most one running entry for an owner. -/
structure SingleTimers (t : Shelf Entry.id) : Prop where
  timed : t.Holds Entry.IsTimed
  single : t.OnePer Entry.user fun e => e.isRunning = true

def Runs (t : Shelf Entry.id) (user : UserId) (id : EntryId) : Prop :=
  ∃ e ∈ t.items, e.user = user ∧ e.isRunning = true ∧ e.id = id

variable {m : Memory} {user : UserId} {policy : Policy}

theorem running_single_eq_ok {s : List Entry} : m.running user Page.single = .ok s ↔
    ((m.ofUser user).filter Entry.isRunning).take 1 = s :=
  ⟨Except.ok.inj, congrArg Except.ok⟩

theorem mem_running {e : Entry} : e ∈ (m.ofUser user).filter Entry.isRunning ↔
    e ∈ m.entries.items ∧ e.user = user ∧ e.isRunning = true := by
  simp only [ofUser, List.mem_filter, decide_eq_true_eq, and_assoc]

theorem idle_of_running (h : m.running user Page.single = .ok []) :
    ∀ e ∈ m.entries.items, e.user = user → ¬e.isRunning = true := by
  have hnil : (m.ofUser user).filter Entry.isRunning = [] := by
    simpa using running_single_eq_ok.mp h
  intro e he huser hrun
  have hmem := mem_running.mpr ⟨he, huser, hrun⟩
  rw [hnil] at hmem
  cases hmem

theorem singleTimers_written (hpolicy : policy.singleRunningTimer = true) {d : Desk Memory}
    {r : Request} {old new : Option Entry} (hmade : r.Makes policy d old new)
    (h : SingleTimers d.store.entries) :
    SingleTimers (view.written old new d.store.entries) := by
  cases hmade with
  | create howner hentry =>
    obtain ⟨htimed, hnot⟩ := NewEntry.entry_isTimed hentry
    exact ⟨h.timed.put htimed, h.single.put fun hrun => absurd hrun hnot⟩
  | start howner hfields hfree =>
    have hidle := idle_of_running (hfree hpolicy)
    exact ⟨h.timed.put (.inl rfl), h.single.put fun _ e he _ hrun huser => hidle e he huser hrun⟩
  | edit hr hid hfetch hf =>
    obtain ⟨hmem, -⟩ := Shelf.find?_eq_some.mp (found_eq_ok.mp hfetch)
    have htimed := h.timed _ hmem
    have hfollows := Request.follows_of_edit? hr hf
    refine ⟨h.timed.put (hfollows.timed htimed), ?_⟩
    refine h.single.put_over hmem (Request.id_of_edit? hr hf) fun hrun => ?_
    exact ⟨hfollows.running htimed hrun, hfollows.user⟩
  | delete hid hfetch => exact ⟨h.timed.erase _, h.single.erase _⟩

theorem refusesSecondTimer (hpolicy : policy.singleRunningTimer = true) {d : Desk Memory}
    (h : SingleTimers d.store.entries) :
    RefusesSecondTimer policy (Runs d.store.entries) d := by
  intro fields owner now user id
  rw [start_busy_iff hpolicy]
  refine and_congr_right fun _ => and_congr_right fun _ => ?_
  have hsame : ∀ a ∈ (d.store.ofUser user).filter Entry.isRunning,
      ∀ b ∈ (d.store.ofUser user).filter Entry.isRunning, a = b := by
    intro a ha b hb
    obtain ⟨ha, hau, har⟩ := mem_running.mp ha
    obtain ⟨hb, hbu, hbr⟩ := mem_running.mp hb
    exact h.single a ha b hb har hbr (hau.trans hbu.symm)
  have htake := exists_take_one (P := fun e => e.id = id) hsame
  simp only [mem_running, and_assoc] at htake
  rw [Runs, ← htake]
  exact exists_congr fun e => exists_congr fun es => and_congr_left fun _ => running_single_eq_ok

end Memory

namespace EntryRow

variable {r : EntryRow} {e : Entry}

def owner (r : EntryRow) : Except InvalidIdentifier UserId :=
  Identifier.parse .user r.user

theorem ofEntry_owner (e : Entry) : (ofEntry e).owner = .ok e.user :=
  Identifier.parse_text e.user

/-- A row that is read as an entry that is running or has a stop. If it is running it can be read,
names its owner as rows are written, and can be read again after an edit. -/
structure IsTimed (r : EntryRow) : Prop where
  timed : ∀ e, r.entry = .ok e → e.IsTimed
  running : Database.isRunningRow r = true →
    ∃ e, r.entry = .ok e ∧ r.user = e.user.text ∧ e.IsLasting

theorem isRunningRow_iff (h : r.entry = .ok e) :
    Database.isRunningRow r = true ↔ e.isRunning = true := by
  rw [Entry.isRunning_iff, Database.isRunningRow, beq_iff_eq, (entry_eq_ok.mp h).duration,
    NumberCell.integer.injEq]

theorem ofEntry_isTimed (htimed : e.IsTimed)
    (hrunning : e.isRunning = true → e.IsLasting ∧ e.updated.IsStorable) : (ofEntry e).IsTimed := by
  constructor
  · intro e' he'
    obtain ⟨-, rfl⟩ := ofEntry_denotes.mp (entry_eq_ok.mp he')
    refine htimed.imp_right fun h => ?_
    rw [Entry.wholeSeconds, Option.isSome_map]
    exact h
  · intro hrun
    have hstorable : ∀ i ∈ e.instants, i.IsStorable := by
      obtain ⟨⟨hs, hc, ht⟩, hu⟩ := hrunning (Entry.isRunning_iff.mpr (by
        simpa [Database.isRunningRow, ofEntry] using hrun))
      intro i hi
      rcases Entry.mem_instants.mp hi with rfl | rfl | rfl | hi
      · exact hs
      · exact hc
      · exact hu
      · exact ht i hi
    have hwhole := Entry.mem_instants_wholeSeconds hstorable
    refine ⟨e.wholeSeconds, entry_eq_ok.mpr (ofEntry_denotes.mpr ⟨hstorable, rfl⟩), rfl, ?_, ?_, ?_⟩
    · exact hwhole _ (Entry.mem_instants.mpr (.inl rfl))
    · exact hwhole _ (Entry.mem_instants.mpr (.inr (.inl rfl)))
    · exact fun stop h => hwhole _ (Entry.mem_instants.mpr (.inr (.inr (.inr h))))

end EntryRow

namespace Database

/-- Rows that are running or have a stop, at most one running row for an owner. -/
structure SingleTimers (t : Shelf EntryRow.key) : Prop where
  timed : t.Holds EntryRow.IsTimed
  single : t.OnePer EntryRow.owner fun r => isRunningRow r = true

def Runs (t : Shelf EntryRow.key) (user : UserId) (id : EntryId) : Prop :=
  ∃ r ∈ t.items, r.owner = .ok user ∧ isRunningRow r = true ∧
    ∃ s, r.key = .named s ∧ Identifier.parse .entry s = .ok id

variable {d : Database} {user : UserId} {policy : Policy}

theorem mem_running (h : d.entries.Holds EntryRow.IsTimed) {r : EntryRow} :
    r ∈ (d.ofUser user).filter isRunningRow ↔
      r ∈ d.entries.items ∧ r.owner = .ok user ∧ isRunningRow r = true := by
  simp only [ofUser, List.mem_filter, decide_eq_true_eq, and_assoc]
  refine and_congr_right fun hr => and_congr_left fun hrun => ?_
  obtain ⟨e, -, huser, -⟩ := (h r hr).running hrun
  rw [EntryRow.owner, huser, Identifier.parse_text, Identifier.text_inj, Except.ok.injEq]

theorem running_single_eq_ok {s : List Entry} : d.running user Page.single = .ok s ↔
    (((d.ofUser user).filter isRunningRow).take 1).map EntryRow.entry = s.map .ok :=
  readRows_eq_ok

theorem exists_row_of_running {e : Entry} {es : List Entry}
    (h : d.running user Page.single = .ok (e :: es)) : ∃ r ∈ d.entries.items, r.entry = .ok e := by
  have hread : (.ok e : Except DatabaseFault Entry) ∈ (e :: es).map .ok := List.mem_cons_self
  rw [← running_single_eq_ok.mp h, List.mem_map] at hread
  obtain ⟨r, hr, he⟩ := hread
  exact ⟨r, List.mem_of_mem_filter (List.mem_of_mem_filter (List.mem_of_mem_take hr)), he⟩

theorem idle_of_running (h : d.entries.Holds EntryRow.IsTimed)
    (hrunning : d.running user Page.single = .ok []) :
    ∀ r ∈ d.entries.items, r.owner = .ok user → ¬isRunningRow r = true := by
  have hnil : (d.ofUser user).filter isRunningRow = [] := by
    simpa using running_single_eq_ok.mp hrunning
  intro r hr huser hrun
  have hmem := (mem_running h).mpr ⟨hr, huser, hrun⟩
  rw [hnil] at hmem
  cases hmem

theorem singleTimers_written (hpolicy : policy.singleRunningTimer = true) {d : Desk Database}
    {r : Request} {old new : Option Entry} (hclock : ∀ i ∈ r.clock?, i.IsStorable)
    (hmade : r.Makes policy d old new) (h : SingleTimers d.store.entries) :
    SingleTimers (view.written old new d.store.entries) := by
  have hrow {e : Entry} : isRunningRow (.ofEntry e) = true ↔ e.isRunning = true := by
    simp [isRunningRow, EntryRow.ofEntry, Entry.isRunning]
  cases hmade with
  | create howner hentry =>
    obtain ⟨htimed, hnot⟩ := NewEntry.entry_isTimed hentry
    have hput := EntryRow.ofEntry_isTimed htimed fun hrun => absurd hrun hnot
    exact ⟨h.timed.put hput, h.single.put fun hrun => absurd (hrow.mp hrun) hnot⟩
  | @start fields owner now user details howner hfields hfree =>
    have hidle := idle_of_running h.timed (hfree hpolicy)
    have hnow := Instant.wholeSecond_isStorable.mpr (hclock now rfl)
    have hput : (EntryRow.ofEntry (Entry.running d.ids.next user details now)).IsTimed := by
      refine EntryRow.ofEntry_isTimed (.inl rfl) fun _ => ⟨⟨hnow, hnow, ?_⟩, hnow⟩
      rintro stop ⟨⟩
    refine ⟨h.timed.put hput, h.single.put fun _ r hr _ hrun howner => ?_⟩
    exact hidle r hr (howner.trans (EntryRow.ofEntry_owner _)) hrun
  | @edit _ text f id e e' hr hid hfetch hf =>
    obtain ⟨row, hfind, hdenotes⟩ := fetch_eq_ok.mp hfetch
    obtain ⟨hmem, hkey⟩ := Shelf.find?_eq_some.mp hfind
    have hentry := EntryRow.entry_eq_ok.mpr hdenotes
    have htimed := (h.timed row hmem).timed e hentry
    have hfollows := Request.follows_of_edit? hr hf
    -- A row that runs after the edit ran before it, so it was one that can be read again.
    have hbefore (hrun : e'.isRunning = true) :
        isRunningRow row = true ∧ e.IsLasting := by
      have hrow := (EntryRow.isRunningRow_iff hentry).mpr (hfollows.running htimed hrun)
      obtain ⟨e₀, he₀, -, hlasting⟩ := (h.timed row hmem).running hrow
      obtain rfl : e = e₀ := Except.ok.inj (hentry.symm.trans he₀)
      exact ⟨hrow, hlasting⟩
    have hput : (EntryRow.ofEntry e').IsTimed := by
      refine EntryRow.ofEntry_isTimed (hfollows.timed htimed) fun hrun => ?_
      exact ⟨hfollows.lasting (hbefore hrun).2, Request.updated_of_edit? hr hf hclock⟩
    have hsame : (EntryRow.ofEntry e').key = row.key := by
      change RowKey.named e'.id.text = row.key
      rw [Request.id_of_edit? hr hf, hdenotes.id_eq hkey, hkey]
    refine ⟨h.timed.put hput, h.single.put_over hmem hsame fun hrun => ?_⟩
    refine ⟨(hbefore (hrow.mp hrun)).1, ?_⟩
    rw [EntryRow.ofEntry_owner, hfollows.user]
    exact hdenotes.user.symm
  | delete hid hfetch => exact ⟨h.timed.erase _, h.single.erase _⟩

theorem refusesSecondTimer (hpolicy : policy.singleRunningTimer = true) {d : Desk Database}
    (h : SingleTimers d.store.entries) :
    RefusesSecondTimer policy (Runs d.store.entries) d := by
  intro fields owner now user id
  rw [start_busy_iff hpolicy]
  refine and_congr_right fun _ => and_congr_right fun _ => ?_
  have hsame : ∀ a ∈ (d.store.ofUser user).filter isRunningRow,
      ∀ b ∈ (d.store.ofUser user).filter isRunningRow, a = b := by
    intro a ha b hb
    obtain ⟨ha, hau, har⟩ := (mem_running h.timed).mp ha
    obtain ⟨hb, hbu, hbr⟩ := (mem_running h.timed).mp hb
    exact h.single a ha b hb har hbr (hau.trans hbu.symm)
  have htake := exists_take_one (P := fun r => ∃ e, r.entry = .ok e ∧ e.id = id) hsame
  have hlisted : (∃ e es, Store.running d.store user Page.single = .ok (e :: es) ∧ e.id = id) ↔
      ∃ r t, ((d.store.ofUser user).filter isRunningRow).take 1 = r :: t ∧
        ∃ e, r.entry = .ok e ∧ e.id = id := by
    change (∃ e es, d.store.running user Page.single = .ok (e :: es) ∧ e.id = id) ↔ _
    simp only [running_single_eq_ok]
    cases (d.store.ofUser user).filter isRunningRow with
    | nil => simp
    | cons r rows => simp
  rw [hlisted, htake]
  simp only [mem_running h.timed, Runs, and_assoc]
  refine exists_congr fun r => and_congr_right fun hr => and_congr_right fun _ =>
    and_congr_right fun hrun => ?_
  obtain ⟨e, he, -⟩ := (h.timed r hr).running hrun
  obtain ⟨s, hs, hid⟩ := (EntryRow.entry_eq_ok.mp he).key
  simp [he, hs, hid]

end Database

/-- Where a second timer is refused, no session of any number of owners leads to an owner with two
running entries, if none had two before, and a start is refused on this account exactly if the owner
has a running entry. -/
theorem session_single_timer (policy : Policy) (hpolicy : policy.singleRunningTimer = true)
    (rs : List Request) (ids : IdSource) :
    (∀ m : Memory, Memory.SingleTimers m.entries →
      Memory.SingleTimers ((session policy rs).run ⟨m, ids⟩).2.store.entries ∧
        RefusesSecondTimer policy (Memory.Runs ((session policy rs).run ⟨m, ids⟩).2.store.entries)
          ((session policy rs).run ⟨m, ids⟩).2) ∧
    ∀ d : Database, (∀ r ∈ rs, ∀ i ∈ r.clock?, i.IsStorable) → Database.SingleTimers d.entries →
      Database.SingleTimers ((session policy rs).run ⟨d, ids⟩).2.store.entries ∧
        RefusesSecondTimer policy (Database.Runs ((session policy rs).run ⟨d, ids⟩).2.store.entries)
          ((session policy rs).run ⟨d, ids⟩).2 := by
  constructor
  · intro m hm
    have h := Memory.view.session_keeps_entries (d := ⟨m, ids⟩) (C := fun _ => True)
      (fun _ => Memory.singleTimers_written hpolicy) (fun r (_ : r ∈ rs) _ _ => trivial) hm
    exact ⟨h, Memory.refusesSecondTimer hpolicy h⟩
  · intro d hclock hd
    have h := Database.view.session_keeps_entries (d := ⟨d, ids⟩)
      (fun hc => Database.singleTimers_written hpolicy hc) hclock hd
    exact ⟨h, Database.refusesSecondTimer hpolicy h⟩

def oneTimer : Policy :=
  { singleRunningTimer := true }

def timerFields : EntryFields :=
  { workspace := some "00000000-0000-0000-0000-000000000003", createdWith := some "test" }

def startTimer (owner : String) : Request :=
  .start timerFields owner .epoch

theorem session_single_timer_of_start :
    (((startTimer "00000000-0000-0000-0000-000000000002").program oneTimer).run
      ((session oneTimer [startTimer "00000000-0000-0000-0000-000000000002"]).run
        ⟨({} : Memory), .after 0⟩).2).1 = .entry (.error (.alreadyRunning ⟨.ofNat 2⟩ ⟨.ofNat 1⟩)) ∧
    (((startTimer "00000000-0000-0000-0000-000000000002").program oneTimer).run
      ((session oneTimer [startTimer "00000000-0000-0000-0000-000000000002"]).run
        ⟨({} : Database), .after 0⟩).2).1 =
          .entry (.error (.alreadyRunning ⟨.ofNat 2⟩ ⟨.ofNat 1⟩)) := by
  have howner : Identifier.parse .user "00000000-0000-0000-0000-000000000002" =
      .ok ⟨.ofNat 2⟩ := by decide +kernel
  have hclock : ∀ r ∈ [startTimer "00000000-0000-0000-0000-000000000002"], ∀ i ∈ r.clock?,
      i.IsStorable := by decide +kernel
  obtain ⟨hm, hd⟩ := session_single_timer oneTimer rfl
    [startTimer "00000000-0000-0000-0000-000000000002"] (.after 0)
  constructor
  · obtain ⟨-, h⟩ := hm {} ⟨Shelf.holds_empty, fun e he => by cases he⟩
    have hentries : ((session oneTimer [startTimer "00000000-0000-0000-0000-000000000002"]).run
        ⟨({} : Memory), .after 0⟩).2.store.entries = Shelf.empty.put (timerFrom .epoch) := by
      decide +kernel
    refine (h _ _ _ _ _).mpr ⟨howner, ⟨_, rfl⟩, timerFrom .epoch, ?_, rfl, rfl, rfl⟩
    rw [hentries]
    exact Shelf.mem_put_self _ _
  · obtain ⟨-, h⟩ := hd {} hclock ⟨Shelf.holds_empty, fun r hr => by cases hr⟩
    have hentries : ((session oneTimer [startTimer "00000000-0000-0000-0000-000000000002"]).run
        ⟨({} : Database), .after 0⟩).2.store.entries =
          Shelf.empty.put (.ofEntry (timerFrom .epoch)) := by decide +kernel
    refine (h _ _ _ _ _).mpr ⟨howner, ⟨_, rfl⟩, .ofEntry (timerFrom .epoch), ?_,
      EntryRow.ofEntry_owner _, rfl, _, rfl, Identifier.parse_text _⟩
    rw [hentries]
    exact Shelf.mem_put_self _ _

def firstTimer : EntryRow :=
  .ofEntry (timerFrom .epoch)

theorem firstTimer_denotes : firstTimer.Denotes (timerFrom .epoch) :=
  EntryRow.ofEntry_denotes.mpr ⟨by decide, rfl⟩

def lateTimer : EntryRow :=
  { firstTimer with created := "9999-12-31T23:59:59-01:00" }

def lateTimerEntry : Entry :=
  { timerFrom .epoch with created := .ofSecond 253402304399 (by decide) }

theorem lateTimer_denotes : lateTimer.Denotes lateTimerEntry :=
  firstTimer_denotes.of_created (by decide +kernel)

def renameTimer : Request :=
  .update "00000000-0000-0000-0000-000000000001" { description := some "x" } .epoch

def renamedTimer : EntryRow :=
  .ofEntry { lateTimerEntry with description := "x" }

theorem renamedTimer_unread (e : Entry) : renamedTimer.entry ≠ .ok e := by
  have hcreated : Instant.ofStamp? renamedTimer.created = none := by decide +kernel
  intro he
  cases hcreated.symm.trans (EntryRow.entry_eq_ok.mp he).created

theorem session_renames_lateTimer : ((session oneTimer [renameTimer]).run
    ⟨({ entries := Shelf.empty.put lateTimer } : Database), .after 1⟩).2.store.entries =
      (Shelf.empty.put lateTimer).put renamedTimer := by
  have hid : Identifier.parse .entry "00000000-0000-0000-0000-000000000001" = .ok ⟨.ofNat 1⟩ := by
    decide +kernel
  have hedit : renameTimer.edit? = some ("00000000-0000-0000-0000-000000000001",
      fun e => e.applyPatch { description := some "x" } .epoch) := rfl
  have hfetch : Store.fetch ({ entries := Shelf.empty.put lateTimer } : Database) ⟨.ofNat 1⟩ =
      .ok lateTimerEntry :=
    Database.fetch_eq_ok.mpr ⟨lateTimer, Shelf.find?_put_self _ _, lateTimer_denotes⟩
  have hpatched : lateTimerEntry.applyPatch { description := some "x" } .epoch =
      .ok { lateTimerEntry with description := "x" } := rfl
  rw [← (alike_session_singleton oneTimer renameTimer _).1]
  exact (Database.view.edit_answered hedit hid hfetch hpatched).1

/-- Entries that are neither running nor stopped, and running rows that were changed by hand, can
come to run beside another one or keep a start from being refused. -/
theorem session_single_timer_not_always :
    (¬∀ (m : Memory) (rs : List Request) (ids : IdSource),
      ids.IsFresh ((session oneTimer rs).run ⟨m, ids⟩).2.ids.drawn m.Unused →
      (∀ r ∈ rs, ∀ i ∈ r.clock?, i.IsStorable) →
      m.entries.OnePer Entry.user (fun e => e.isRunning = true) →
        ((session oneTimer rs).run ⟨m, ids⟩).2.store.entries.OnePer Entry.user
          fun e => e.isRunning = true) ∧
    (¬∀ (d : Database) (rs : List Request) (ids : IdSource),
      (∀ r ∈ rs, ∀ i ∈ r.clock?, i.IsStorable) →
      d.entries.Holds (fun r => ∃ e, r.entry = .ok e ∧ e.IsTimed ∧ e.IsLasting) →
      d.entries.OnePer EntryRow.owner (fun r => Database.isRunningRow r = true) →
        ((session oneTimer rs).run ⟨d, ids⟩).2.store.entries.OnePer EntryRow.owner
          fun r => Database.isRunningRow r = true) ∧
    (¬∀ (d : Database) (ids : IdSource),
      d.entries.Holds (fun r => ∀ e, r.entry = .ok e → e.IsTimed) →
      d.entries.OnePer EntryRow.owner (fun r => Database.isRunningRow r = true) →
        RefusesSecondTimer oneTimer (Database.Runs d.entries) ⟨d, ids⟩) ∧
    ¬∀ (d : Database) (rs : List Request) (ids : IdSource),
      (∀ r ∈ rs, ∀ i ∈ r.clock?, i.IsStorable) →
      d.entries.Holds (fun r => ∃ e, r.entry = .ok e ∧ e.IsTimed ∧ r.user = e.user.text) →
      d.entries.OnePer EntryRow.owner (fun r => Database.isRunningRow r = true) →
        RefusesSecondTimer oneTimer
          (Database.Runs ((session oneTimer rs).run ⟨d, ids⟩).2.store.entries)
          ((session oneTimer rs).run ⟨d, ids⟩).2 := by
  have howner : Identifier.parse .user "00000000-0000-0000-0000-000000000002" =
      .ok ⟨.ofNat 2⟩ := by decide +kernel
  refine ⟨fun h => ?_, fun h => ?_, fun h => ?_, fun h => ?_⟩
  · let m : Memory :=
      { entries := (Shelf.empty.put { timerFrom .epoch with id := ⟨.ofNat 2⟩ }).put
          { timerFrom .epoch with duration := 0 } }
    let rs : List Request :=
      [.update "00000000-0000-0000-0000-000000000001" { start := some .epoch } .epoch]
    have hdrawn : ((session oneTimer rs).run ⟨m, .after 2⟩).2.ids.drawn = 0 := by decide +kernel
    have hafter := h m rs (.after 2) (fun n _ hn => absurd (hdrawn ▸ hn) n.not_lt_zero)
      (by decide +kernel) (by decide +kernel)
    revert hafter
    decide +kernel
  · let row := { firstTimer with user := "00000000-0000-0000-0000-00000000000A" }
    let e := { timerFrom .epoch with user := ⟨.ofNat 10⟩ }
    have hentry : row.entry = .ok e := by
      have huser : Identifier.parse .user row.user = .ok e.user := by decide +kernel
      exact EntryRow.entry_eq_ok.mpr { firstTimer_denotes with user := huser }
    have hafter := h { entries := Shelf.empty.put row }
      [startTimer "00000000-0000-0000-0000-00000000000a"] (.after 1) (by decide +kernel)
      (Shelf.holds_empty.put ⟨e, hentry, .inl rfl, by decide⟩) (by decide +kernel)
    revert hafter
    decide +kernel
  · let row := { firstTimer with tags := "?" }
    have hunread : row.entry.toOption = none := by decide +kernel
    have hafter := h { entries := Shelf.empty.put row } (.after 1)
      (Shelf.holds_empty.put fun e he => by cases he ▸ hunread) (by decide +kernel)
    have hruns : Database.Runs (Shelf.empty.put row) ⟨.ofNat 2⟩ ⟨.ofNat 1⟩ :=
      ⟨row, Shelf.mem_put_self _ _, howner, rfl, _, rfl, Identifier.parse_text _⟩
    have hrefused := (hafter timerFields "00000000-0000-0000-0000-000000000002" .epoch _ _).mpr
      ⟨howner, ⟨_, rfl⟩, hruns⟩
    have hfault := congrArg Reply.fault? hrefused
    revert hfault
    decide +kernel
  · have hafter := h { entries := Shelf.empty.put lateTimer } [renameTimer] (.after 1)
      (by decide +kernel)
      (Shelf.holds_empty.put ⟨_, EntryRow.entry_eq_ok.mpr lateTimer_denotes, .inl rfl, rfl⟩)
      (by decide +kernel)
    have hruns : Database.Runs ((Shelf.empty.put lateTimer).put renamedTimer) ⟨.ofNat 2⟩
        ⟨.ofNat 1⟩ :=
      ⟨renamedTimer, Shelf.mem_put_self _ _, howner, rfl, _, rfl, Identifier.parse_text _⟩
    have hrefused := (hafter timerFields "00000000-0000-0000-0000-000000000002" .epoch _ _).mpr
      ⟨howner, ⟨_, rfl⟩, session_renames_lateTimer ▸ hruns⟩
    obtain ⟨-, -, e, es, hlisted, -⟩ := (start_busy_iff rfl).mp hrefused
    obtain ⟨row, hrow, hread⟩ := Database.exists_row_of_running hlisted
    have hitems : ((Shelf.empty.put lateTimer : Shelf EntryRow.key).put renamedTimer).items =
        [renamedTimer] := by decide +kernel
    rw [session_renames_lateTimer, hitems] at hrow
    obtain rfl := List.mem_singleton.mp hrow
    exact renamedTimer_unread e hread

end Timesheet
