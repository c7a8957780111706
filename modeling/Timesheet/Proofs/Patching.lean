import Timesheet.Proofs.Resending

/-!
Patches applied one after the other. Main statement: two patches that are accepted come to one patch
with the later value of every field, so that a patch changes nothing when it is applied again at the
same time; a patch touches no field that it does not supply, and nothing at all if it is refused.
-/

namespace Timesheet

open Service

/-- Takes every field from the later patch if that one supplies it. -/
def Patch.merge (first later : Patch) : Patch where
  description := later.description.or first.description
  workspace := later.workspace.or first.workspace
  project := later.project.or first.project
  task := later.task.or first.task
  billable := later.billable.or first.billable
  start := later.start.or first.start
  stop := later.stop.or first.stop
  tags := later.tags.or first.tags
  durationOnly := later.durationOnly.or first.durationOnly

def Takes {ε α β : Type} (read : α → Except ε β) : Option α → β → β → Prop
  | some a, _, new => read a = .ok new
  | none, old, new => new = old

namespace Takes

variable {ε α β : Type} {read : α → Except ε β} {given later : Option α} {a b c : β}

theorem trans (h : Takes read given a b) (h' : Takes read later b c) :
    Takes read (later.or given) a c := by
  cases later with
  | some x => exact h'
  | none =>
    obtain rfl : c = b := h'
    exact h

theorem again (h : Takes read given a b) : Takes read given b b := by
  cases given with
  | some x => exact h
  | none => exact rfl

theorem eq_of_none (h : Takes read given a b) (hnone : given = none) : b = a := by
  subst hnone
  exact h

end Takes

namespace Entry

def Interval.IsMeasured (i : Interval) : Prop :=
  match i.stop with
  | some stop => intervalSeconds i.start stop = .ok i.duration
  | none => i.duration = runningDuration

variable {e e' : Entry} {p : Patch} {now : Instant}

theorem patchedIdentifier_eq_ok {kind : IdentifierKind} {current id : Identifier kind}
    {read : String → Except InvalidIdentifier (Identifier kind)} {given : Option String} :
    patchedIdentifier current read given = .ok id ↔ Takes read given current id := by
  cases given with
  | some text => exact mapError_eq_ok
  | none => exact ⟨fun h => (Except.ok.inj h).symm, fun h => congrArg Except.ok h.symm⟩

theorem patchedStart_eq_ok {given : Option Instant} {start : Instant} :
    e.patchedStart given = .ok start ↔
      Takes (fun i => storable .start i.wholeSecond) given e.start start := by
  cases given with
  | some i => exact Iff.rfl
  | none => exact ⟨fun h => (Except.ok.inj h).symm, fun h => congrArg Except.ok h.symm⟩

theorem patchedStop_eq_ok {given : Option Instant} {stop : Option Instant} :
    e.patchedStop given = .ok stop ↔
      Takes (fun i => some <$> storable .stop i.wholeSecond) given e.stop stop := by
  cases given with
  | some i => exact Iff.rfl
  | none => exact ⟨fun h => (Except.ok.inj h).symm, fun h => congrArg Except.ok h.symm⟩

structure Interval.PatchedTo (i : Interval) (p : Patch) (j : Interval) : Prop where
  start : Takes (fun s => storable .start s.wholeSecond) p.start i.start j.start
  stop : Takes (fun s => some <$> storable .stop s.wholeSecond) p.stop i.stop j.stop
  kept : p.start = none → p.stop = none → j.duration = i.duration
  measured : ¬(p.start = none ∧ p.stop = none) → j.IsMeasured

theorem patchedInterval_eq_ok_iff {j : Interval} :
    e.patchedInterval p = .ok j ↔ e.interval.PatchedTo p j := by
  unfold patchedInterval
  by_cases hnone : p.start = none ∧ p.stop = none
  · rw [if_pos hnone]
    constructor
    · rintro ⟨⟩
      refine ⟨?_, ?_, fun _ _ => rfl, fun h => absurd hnone h⟩
      · rw [hnone.1]
        rfl
      · rw [hnone.2]
        rfl
    · intro h
      obtain ⟨start, stop, duration⟩ := j
      obtain rfl : start = e.start := h.start.eq_of_none hnone.1
      obtain rfl : stop = e.stop := h.stop.eq_of_none hnone.2
      obtain rfl : duration = e.duration := h.kept hnone.1 hnone.2
      rfl
  · rw [if_neg hnone]
    simp only [bind_eq_ok, patchedStart_eq_ok, patchedStop_eq_ok]
    constructor
    · rintro ⟨start, hstart, stop, hstop, h⟩
      cases stop with
      | some stop =>
        obtain ⟨n, hn, ⟨⟩⟩ := bind_eq_ok.mp h
        exact ⟨hstart, hstop, fun h h' => absurd ⟨h, h'⟩ hnone, fun _ => hn⟩
      | none =>
        obtain ⟨⟩ := h
        exact ⟨hstart, hstop, fun h h' => absurd ⟨h, h'⟩ hnone, fun _ => rfl⟩
    · intro h
      refine ⟨j.start, h.start, j.stop, h.stop, ?_⟩
      have hmeasured := h.measured hnone
      obtain ⟨start, stop, duration⟩ := j
      cases stop with
      | some stop => exact bind_eq_ok.mpr ⟨duration, hmeasured, rfl⟩
      | none =>
        obtain rfl : duration = runningDuration := hmeasured
        rfl

structure PatchedTo (e : Entry) (p : Patch) (now : Instant) (e' : Entry) : Prop where
  origin : e'.id = e.id ∧ e'.user = e.user ∧ e'.createdWith = e.createdWith ∧
    e'.created = e.created
  description : e'.description = p.description.getD e.description
  workspace : Takes (Identifier.parse .workspace) p.workspace e.workspace e'.workspace
  project : Takes (fun s => Identifier.parseOptional .project (some s)) p.project e.project e'.project
  task : Takes (fun s => Identifier.parseOptional .task (some s)) p.task e.task e'.task
  billable : e'.billable = p.billable.getD e.billable
  interval : e.interval.PatchedTo p e'.interval
  tags : e'.tags = (p.tags.map TagSet.normalize).getD e.tags
  durationOnly : e'.durationOnly = p.durationOnly.getD e.durationOnly
  updated : e'.updated = now.wholeSecond

theorem applyPatch_eq_ok_iff : e.applyPatch p now = .ok e' ↔ e.PatchedTo p now e' := by
  unfold applyPatch
  simp only [bind_eq_ok, mapError_eq_ok, patchedIdentifier_eq_ok, patchedInterval_eq_ok_iff]
  constructor
  · rintro ⟨workspace, hworkspace, project, hproject, task, htask, interval, hinterval, ⟨⟩⟩
    exact ⟨⟨rfl, rfl, rfl, rfl⟩, rfl, hworkspace, hproject, htask, rfl, hinterval, rfl, rfl, rfl⟩
  · intro h
    refine ⟨_, h.workspace, _, h.project, _, h.task, _, h.interval, ?_⟩
    obtain ⟨hid, huser, hwith, hcreated⟩ := h.origin
    rw [← h.description, ← h.billable, ← h.tags, ← h.durationOnly, ← h.updated, ← hid, ← huser,
      ← hwith, ← hcreated]
    rfl

namespace Interval

variable {i j k : Interval} {q : Patch}

theorem PatchedTo.trans (h : i.PatchedTo p j) (h' : j.PatchedTo q k) :
    i.PatchedTo (p.merge q) k where
  start := h.start.trans h'.start
  stop := h.stop.trans h'.stop
  kept hstart hstop := by
    obtain ⟨hstart', hstart⟩ := Option.or_eq_none_iff.mp hstart
    obtain ⟨hstop', hstop⟩ := Option.or_eq_none_iff.mp hstop
    exact (h'.kept hstart' hstop').trans (h.kept hstart hstop)
  measured hsome := by
    by_cases hlater : q.start = none ∧ q.stop = none
    -- The later patch leaves the interval that the first one measured.
    · have hkept : k = j := by
        obtain ⟨start, stop, duration⟩ := k
        obtain rfl : start = j.start := h'.start.eq_of_none hlater.1
        obtain rfl : stop = j.stop := h'.stop.eq_of_none hlater.2
        obtain rfl : duration = j.duration := h'.kept hlater.1 hlater.2
        rfl
      rw [hkept]
      refine h.measured fun hnone => hsome ?_
      exact ⟨Option.or_eq_none_iff.mpr ⟨hlater.1, hnone.1⟩,
        Option.or_eq_none_iff.mpr ⟨hlater.2, hnone.2⟩⟩
    · exact h'.measured hlater

theorem PatchedTo.again (h : i.PatchedTo p j) : j.PatchedTo p j where
  start := h.start.again
  stop := h.stop.again
  kept _ _ := rfl
  measured := h.measured

end Interval

variable {e'' : Entry} {q : Patch} {later : Instant}

theorem PatchedTo.trans (h : e.PatchedTo p now e') (h' : e'.PatchedTo q later e'') :
    e.PatchedTo (p.merge q) later e'' where
  origin := by
    obtain ⟨hid, huser, hwith, hcreated⟩ := h.origin
    obtain ⟨hid', huser', hwith', hcreated'⟩ := h'.origin
    exact ⟨hid'.trans hid, huser'.trans huser, hwith'.trans hwith, hcreated'.trans hcreated⟩
  description := by
    rw [h'.description, h.description]
    exact Option.getD_or.symm
  workspace := h.workspace.trans h'.workspace
  project := h.project.trans h'.project
  task := h.task.trans h'.task
  billable := by
    rw [h'.billable, h.billable]
    exact Option.getD_or.symm
  interval := h.interval.trans h'.interval
  tags := by
    rw [h'.tags, h.tags, ← Option.getD_or, ← Option.map_or]
    rfl
  durationOnly := by
    rw [h'.durationOnly, h.durationOnly]
    exact Option.getD_or.symm
  updated := h'.updated

theorem PatchedTo.again (h : e.PatchedTo p now e') : e'.PatchedTo p now e' where
  origin := ⟨rfl, rfl, rfl, rfl⟩
  description := by
    rw [h.description]
    cases p.description <;> rfl
  workspace := h.workspace.again
  project := h.project.again
  task := h.task.again
  billable := by
    rw [h.billable]
    cases p.billable <;> rfl
  interval := h.interval.again
  tags := by
    rw [h.tags]
    cases p.tags <;> rfl
  durationOnly := by
    rw [h.durationOnly]
    cases p.durationOnly <;> rfl
  updated := h.updated

/-- Every field that a patch does not supply is as before, and so is what no patch can supply; the
duration may change with a start or a stop. -/
structure AgreesOutside (e : Entry) (p : Patch) (e' : Entry) : Prop where
  origin : e'.id = e.id ∧ e'.user = e.user ∧ e'.createdWith = e.createdWith ∧
    e'.created = e.created
  description : p.description = none → e'.description = e.description
  workspace : p.workspace = none → e'.workspace = e.workspace
  project : p.project = none → e'.project = e.project
  task : p.task = none → e'.task = e.task
  billable : p.billable = none → e'.billable = e.billable
  start : p.start = none → e'.start = e.start
  stop : p.stop = none → e'.stop = e.stop
  tags : p.tags = none → e'.tags = e.tags
  durationOnly : p.durationOnly = none → e'.durationOnly = e.durationOnly
  duration : p.start = none → p.stop = none → e'.duration = e.duration

theorem PatchedTo.agreesOutside (h : e.PatchedTo p now e') : e.AgreesOutside p e' where
  origin := h.origin
  description hnone := by rw [h.description, hnone, Option.getD_none]
  workspace := h.workspace.eq_of_none
  project := h.project.eq_of_none
  task := h.task.eq_of_none
  billable hnone := by rw [h.billable, hnone, Option.getD_none]
  start := h.interval.start.eq_of_none
  stop := h.interval.stop.eq_of_none
  tags hnone := by rw [h.tags, hnone, Option.map_none, Option.getD_none]
  durationOnly hnone := by rw [h.durationOnly, hnone, Option.getD_none]
  duration := h.interval.kept

end Entry

/-- A refused update leaves the store as it was. -/
def RefusedUnchanged {σ : Type} [Store σ] (policy : Policy) (d : Desk σ) (p : Patch) (now : Instant) :
    Prop :=
  ∀ text id e g, Identifier.parse .entry text = .ok id → Store.fetch d.store id = .ok e →
    e.applyPatch p now = .error g →
      (((Request.update text p now).program policy).run d).1 = .entry (.error (.refused g)) ∧
        (((Request.update text p now).program policy).run d).2.store = d.store

/-- Patches compose, a patch applied twice is a patch applied once, and it changes what it supplies
and nothing else; a refused patch changes nothing. -/
theorem patches_compose (p q : Patch) (now : Instant) :
    (∀ e e₁ e₂ : Entry, e.applyPatch p now = .ok e₁ → e₁.applyPatch q now = .ok e₂ →
      e.applyPatch (p.merge q) now = .ok e₂) ∧
    (∀ e : Entry, (do (← e.applyPatch p now).applyPatch p now) = e.applyPatch p now) ∧
    (∀ e e₁ : Entry, e.applyPatch p now = .ok e₁ →
      e.AgreesOutside p e₁ ∧ e₁.updated = now.wholeSecond) ∧
    ∀ policy : Policy, (∀ d : Desk Memory, RefusedUnchanged policy d p now) ∧
      ∀ d : Desk Database, RefusedUnchanged policy d p now := by
  refine ⟨fun e e₁ e₂ h h' => ?_, fun e => ?_, fun e e₁ h => ?_, fun policy => ⟨?_, ?_⟩⟩
  · rw [Entry.applyPatch_eq_ok_iff] at h h' ⊢
    exact h.trans h'
  · cases h : e.applyPatch p now with
    | error g => rfl
    | ok e₁ => exact Entry.applyPatch_eq_ok_iff.mpr (Entry.applyPatch_eq_ok_iff.mp h).again
  · have hpatched := Entry.applyPatch_eq_ok_iff.mp h
    exact ⟨hpatched.agreesOutside, hpatched.updated⟩
  · intro d text id e g hid hfetch h
    exact Memory.view.edit_refused (r := .update text p now) rfl hid hfetch h
  · intro d text id e g hid hfetch h
    exact Database.view.edit_refused (r := .update text p now) rfl hid hfetch h

def nextDay : Instant :=
  .ofSecond 1483315200 (by decide)

def beginLater : Patch :=
  { project := some "00000000-0000-0000-0000-00000000000a", start := some fourSecondsLater }

def endWithoutProject (stop : Instant) : Patch :=
  { project := some " ", stop := some stop }

theorem patches_compose_of_timer :
    (timerFrom leapSecond).applyPatch beginLater thirdSecond =
      .ok { timerFrom leapSecond with
        project := ⟨.ofNat 10⟩, start := fourSecondsLater, updated := thirdSecond } ∧
    (timerFrom leapSecond).applyPatch (beginLater.merge (endWithoutProject nextDay)) thirdSecond =
      .ok { timerFrom leapSecond with
        start := fourSecondsLater, stop := some nextDay, duration := 86396
        updated := thirdSecond } ∧
    (((Request.update "00000000-0000-0000-0000-000000000001" (endWithoutProject .epoch)
      thirdSecond).program {}).run ⟨({ entries := Shelf.empty.put (timerFrom thirdSecond) } : Memory),
        .after 1⟩).2.store = { entries := Shelf.empty.put (timerFrom thirdSecond) } := by
  have hfirst : (timerFrom leapSecond).applyPatch beginLater thirdSecond =
      .ok { timerFrom leapSecond with
        project := ⟨.ofNat 10⟩, start := fourSecondsLater, updated := thirdSecond } := by
    decide +kernel
  refine ⟨hfirst, (patches_compose beginLater (endWithoutProject nextDay) thirdSecond).1 _ _ _ hfirst
    (by decide +kernel), ?_⟩
  refine (((patches_compose (endWithoutProject .epoch) {} thirdSecond).2.2.2 {}).1 _ _ ⟨.ofNat 1⟩
    (timerFrom thirdSecond) (.invalid (.stopBeforeStart thirdSecond .epoch)) ?_ ?_ ?_).2
  · decide +kernel
  · rfl
  · decide +kernel

end Timesheet
