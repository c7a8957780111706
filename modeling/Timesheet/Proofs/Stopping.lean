import Timesheet.Proofs.Insertion
import Timesheet.Proofs.Paging
import Timesheet.Proofs.Resending
import Timesheet.Proofs.Rereading
import Timesheet.Proofs.Totals

/-!
Stopping an entry. To stop it is to patch its stop alone, with the totals following: both programs are the
same tree of calls. A timer that has been started can be stopped from its own second on, for as long as
nobody changes it; it then has the seconds between its start and its stop, and runs no more.
-/

namespace Timesheet

open Service

section Patch

theorem Service.targets_pair {kind : IdentifierKind} (id : Identifier kind) :
    targets [id, id] = targets [id] := by
  unfold targets
  cases h : id.isAbsent <;> simp [h, dedupAdjacent]

theorem Service.resync_pair (entry : EntryId) (task : TaskId) (project : ProjectId) (now : Instant) :
    resync entry [task, task] [project, project] now = resync entry [task] [project] now := by
  unfold resync syncAll
  rw [targets_pair, targets_pair]

theorem Entry.patchedInterval_stop (e : Entry) (now : Instant) :
    e.patchedInterval { stop := some now } = do
      let stop ← storable .stop now.wholeSecond
      let duration ← intervalSeconds e.start stop
      return ⟨e.start, some stop, duration⟩ := by
  unfold patchedInterval
  rw [if_neg (by simp)]
  cases h : storable .stop now.wholeSecond <;> simp only [patchedStart, patchedStop, h] <;> rfl

theorem Entry.applyPatch_stop (e : Entry) (now : Instant) :
    e.applyPatch { stop := some now } now = (e.stopAt now).mapError .invalid := by
  rw [applyPatch_interval, patchedInterval_stop]
  unfold stopAt
  cases hstop : storable .stop now.wholeSecond with
  | error g => rfl
  | ok stop =>
    obtain ⟨-, rfl⟩ := storable_eq_ok.mp hstop
    change (((intervalSeconds e.start now.wholeSecond >>= _).mapError Refusal.invalid) >>= _) =
      (intervalSeconds e.start now.wholeSecond >>= _).mapError Refusal.invalid
    cases intervalSeconds e.start now.wholeSecond <;> rfl

theorem Service.checked_bind_congr {α : Type} {x : Except Refusal α} {f g : α → Operation Entry}
    (h : ∀ a, x = .ok a → f a = g a) : (checked x >>= f) = (checked x >>= g) := by
  cases x with
  | error r => rfl
  | ok a => exact h a rfl

theorem Service.stop_eq_update {policy : Policy} (hpolicy : policy.resyncOnEdit = true) (id : String)
    (now : Instant) : stop id now = update policy id { stop := some now } now := by
  unfold stop update
  refine bind_congr fun id => bind_congr fun e => ?_
  rw [e.applyPatch_stop]
  refine checked_bind_congr fun e' h => bind_congr fun _ => ?_
  obtain ⟨-, -, rfl⟩ := Entry.stopAt_eq_ok.mp (mapError_eq_ok.mp h)
  rw [if_pos hpolicy, resync_pair]
  rfl

end Patch

/-- Where totals follow edits, stopping an entry is patching its stop: the same calls in the same order, so
that any store is left the same and gives the same answer. -/
theorem stop_as_patch {policy : Policy} (hpolicy : policy.resyncOnEdit = true) (id : String)
    (now : Instant) :
    (Request.stop id now).program policy =
        (Request.update id { stop := some now } now).program policy ∧
      (∀ d : Desk Memory, ((Request.stop id now).program policy).run d =
        ((Request.update id { stop := some now } now).program policy).run d) ∧
      ∀ d : Desk Database, ((Request.stop id now).program policy).run d =
        ((Request.update id { stop := some now } now).program policy).run d := by
  have hprogram : (Request.stop id now).program policy =
      (Request.update id { stop := some now } now).program policy :=
    congrArg (fun op => Reply.entry <$> ExceptT.run op) (stop_eq_update hpolicy id now)
  exact ⟨hprogram, fun _ => congrArg (Program.run _) hprogram,
    fun _ => congrArg (Program.run _) hprogram⟩

theorem stop_as_patch_of_timer : following.resyncOnEdit = true ∧
    (((Request.update "00000000-0000-0000-0000-000000000001" { stop := some fourSecondsLater }
      fourSecondsLater).program following).run
        ⟨({ entries := Shelf.empty.put (timerFrom .epoch) } : Memory), .after 1⟩).1 =
      .entry (.ok { timerFrom .epoch with
        stop := some fourSecondsLater, duration := 1483228804, updated := fourSecondsLater }) := by
  have hpolicy : following.resyncOnEdit = true := rfl
  refine ⟨hpolicy, ?_⟩
  rw [← (stop_as_patch hpolicy _ _).1]
  rfl

section Elapsed

def Instant.nanosUntil (a b : Instant) : Int :=
  (b.second - a.second) * nanosPerSecond + (b.nano - a.nano)

theorem Instant.wholeSecond_nano_of_not_isLeap {i : Instant} (h : ¬i.isLeap = true) :
    i.wholeSecond.nano = 0 := by
  have hnano : ¬nanosPerSecond ≤ i.nano := by simpa [isLeap] using h
  rw [wholeSecond_nano, if_neg hnano]

theorem Instant.secondsUntil_wholeSecond {a b : Instant} (ha : ¬a.isLeap = true)
    (hb : ¬b.isLeap = true) :
    |a.wholeSecond.secondsUntil b.wholeSecond * nanosPerSecond - a.nanosUntil b| <
      nanosPerSecond := by
  have hna : a.nano < nanosPerSecond := by simpa [isLeap] using ha
  have hnb : b.nano < nanosPerSecond := by simpa [isLeap] using hb
  rw [secondsUntil_of_nano_eq_zero (wholeSecond_nano_of_not_isLeap ha)
    (wholeSecond_nano_of_not_isLeap hb), wholeSecond_second, wholeSecond_second, nanosUntil, abs_lt]
  constructor <;> omega

namespace Entry

def stoppedAt (e : Entry) (last : Instant) : Entry :=
  { e with
    stop := some last.wholeSecond
    duration := e.start.secondsUntil last.wholeSecond
    updated := last.wholeSecond }

structure Spans (e : Entry) (first last : Instant) : Prop where
  start : e.start = first.wholeSecond
  stop : e.stop = some last.wholeSecond
  nonneg : 0 ≤ e.duration
  drift : ¬first.isLeap = true → ¬last.isLeap = true →
    |e.duration * nanosPerSecond - first.nanosUntil last| < nanosPerSecond

variable {e : Entry} {first last : Instant}

theorem stopAt_of_le (hlast : last.IsStorable) (h : e.start ≤ last.wholeSecond) :
    e.stopAt last = .ok (e.stoppedAt last) :=
  stopAt_eq_ok.mpr ⟨Instant.wholeSecond_isStorable.mpr hlast, Instant.not_lt.mpr h, rfl⟩

theorem stopAt_of_lt (hlast : last.IsStorable) (h : last.wholeSecond < e.start) :
    e.stopAt last = .error (.stopBeforeStart e.start last.wholeSecond) := by
  unfold stopAt storable intervalSeconds
  rw [if_pos (Instant.wholeSecond_isStorable.mpr hlast)]
  simp [bind, Except.bind, h]

theorem stoppedAt_spans (hstart : e.start = first.wholeSecond)
    (h : first.wholeSecond ≤ last.wholeSecond) : (e.stoppedAt last).Spans first last where
  start := hstart
  stop := rfl
  nonneg := Instant.secondsUntil_nonneg (hstart ▸ h)
  drift hfirst hlast := by
    change |e.start.secondsUntil last.wholeSecond * nanosPerSecond - _| < _
    rw [hstart]
    exact Instant.secondsUntil_wholeSecond hfirst hlast

theorem HasPlainInstants.stoppedAt (he : e.HasPlainInstants) (hlast : last.IsStorable) :
    (e.stoppedAt last).HasPlainInstants := by
  have hplain : last.wholeSecond.IsPlain :=
    ⟨last.wholeSecond_isWhole, Instant.wholeSecond_isStorable.mpr hlast⟩
  intro i hi
  rcases mem_instants.mp hi with rfl | rfl | rfl | hstop
  · exact he.start
  · exact he.created
  · exact hplain
  · cases hstop
    exact hplain

theorem running_hasPlainInstants (id : EntryId) (user : UserId) (details : EntryDetails)
    (hfirst : first.IsStorable) : (running id user details first).HasPlainInstants := by
  have hplain : first.wholeSecond.IsPlain :=
    ⟨first.wholeSecond_isWhole, Instant.wholeSecond_isStorable.mpr hfirst⟩
  intro i hi
  rcases mem_instants.mp hi with rfl | rfl | rfl | hstop
  · exact hplain
  · exact hplain
  · exact hplain
  · cases hstop

end Entry

end Elapsed

/-- A table of entries in which an identifier can be told to be one row's only, so that whatever is listed
under it is what is fetched under it. -/
structure TimerView (σ τ : Type) [Store σ] extends EntryView σ τ where
  Sole : τ → EntryId → Prop
  sole_put {t : τ} {id : EntryId} (e : Entry) (h : Sole t id) : Sole (put e t) id
  sole_erase {t : τ} {id : EntryId} (id' : EntryId) (h : Sole t id) : Sole (erase id' t) id
  fetch_put {s : σ} {t : τ} {e : Entry} (he : e.HasPlainInstants) (h : entries s = put e t) :
    Store.fetch s e.id = .ok e
  unlisted {s : σ} {e : Entry} {user : UserId} {page : Page} {es : List Entry}
    (hsole : Sole (entries s) e.id) (hfetch : Store.fetch s e.id = .ok e)
    (he : ¬e.isRunning = true) (h : Store.running s user page = .ok es) : ∀ x ∈ es, x.id ≠ e.id

def Memory.timerView : TimerView Memory (Shelf Entry.id) where
  toEntryView := Memory.view
  Sole _ _ := True
  sole_put _ _ := trivial
  sole_erase _ _ := trivial
  fetch_put _ h := Memory.fetch_of_put h
  unlisted {m e user page es} _ hfetch he h x hx heq := by
    obtain ⟨⟩ := h
    obtain ⟨hx, -, hrun⟩ := mem_running.mp (List.mem_of_mem_drop (List.mem_of_mem_take hx))
    have hfind : m.entries.find? e.id = some x := Shelf.find?_eq_some.mpr ⟨hx, heq⟩
    obtain ⟨⟩ := (found_eq_ok.mp hfetch).symm.trans hfind
    exact he hrun

def EntryRow.Spelled (id : EntryId) (r : EntryRow) : Prop :=
  ∀ s, r.key = .named s → Identifier.parse .entry s = .ok id → s = id.text

theorem EntryRow.ofEntry_spelled (id : EntryId) (e : Entry) : (ofEntry e).Spelled id := by
  rintro s ⟨⟩ hid
  obtain ⟨⟩ := (Identifier.parse_text e.id).symm.trans hid
  rfl

def Database.timerView : TimerView Database (Shelf EntryRow.key) where
  toEntryView := Database.view
  Sole t id := t.Holds (EntryRow.Spelled id)
  sole_put e h := h.put (EntryRow.ofEntry_spelled _ e)
  sole_erase _ h := h.erase _
  fetch_put he h := Database.fetch_of_put h (EntryRow.ofEntry_denotes_self.mpr he)
  unlisted {d e user page es} hsole hfetch he h x hx heq := by
    obtain ⟨row, hrow, hentry⟩ : ∃ r ∈ selectPage page ((d.ofUser user).filter isRunningRow),
        r.entry = .ok x := by
      have hread : (.ok x : Except DatabaseFault Entry) ∈ es.map .ok := List.mem_map_of_mem hx
      rw [← readRows_eq_ok.mp h] at hread
      exact List.mem_map.mp hread
    obtain ⟨hmem, hrun⟩ :=
      List.mem_filter.mp (List.mem_of_mem_drop (List.mem_of_mem_take hrow))
    have hitem := List.mem_of_mem_filter hmem
    obtain ⟨s, hkey, hid⟩ := (EntryRow.entry_eq_ok.mp hentry).key
    obtain rfl := hsole row hitem s hkey (heq ▸ hid)
    have hfind : d.entries.find? (.named e.id.text) = some row :=
      Shelf.find?_eq_some.mpr ⟨hitem, hkey⟩
    obtain ⟨row', hfind', hdenotes⟩ := fetch_eq_ok.mp hfetch
    obtain ⟨⟩ := hfind.symm.trans hfind'
    exact he ((EntryRow.isRunningRow_iff (EntryRow.entry_eq_ok.mpr hdenotes)).mp hrun)

section Timer

variable {σ : Type} [Store σ]

theorem Request.recounts_of_stale {policy : Policy} {r : Request} {d : Desk σ} {id : EntryId}
    {cause : ServiceFault} (h : ((r.program policy).run d).1 = .entry (.error (.stale id cause))) :
    r.Recounts policy := by
  obtain ⟨now, hnow, -⟩ := r.exists_clock
  obtain ⟨op, hop⟩ := operation?_of_stale h
  rw [program_of_operation? hop, Program.run_map] at h
  have herror := Reply.entry.inj h
  cases performed (d := d) hop hnow with
  | failed hfails hran hstore hquiet =>
    rw [hran.run] at herror
    obtain ⟨⟩ := herror
    exact absurd ⟨id, cause, rfl⟩ hfails.not_isStale
  | kept hmade he h hsame hquiet hran =>
    rw [hran.run] at herror
    cases herror
  | synced hmade he h htasks hprojects hsync ha hran hrecounts => exact hrecounts

/-- The timer is stopped: it has the seconds from its start to its stop, even if totals could not follow,
and is listed no more among the running entries of anybody. -/
structure Stopped (policy : Policy) (text : String) (e : Entry) (first last : Instant) (d : Desk σ) :
    Prop where
  answered : (((Request.stop text last).program policy).run d).1 = .entry (.ok (e.stoppedAt last)) ∨
    ∃ cause, (((Request.stop text last).program policy).run d).1 =
      .entry (.error (.stale e.id cause))
  stored : Store.fetch (((Request.stop text last).program policy).run d).2.store e.id =
    .ok (e.stoppedAt last)
  spans : (e.stoppedAt last).Spans first last
  unlisted : ∀ owner page es, (((Request.running owner page).program policy).run
    (((Request.stop text last).program policy).run d).2).1 = .entries (.ok es) →
      ∀ x ∈ es, x.id ≠ e.id

/-- The timer is not stopped: the request is refused for its instant, and the timer runs on. -/
structure Unstopped (policy : Policy) (text : String) (e : Entry) (first last : Instant)
    (d : Desk σ) : Prop where
  refused : (((Request.stop text last).program policy).run d).1 =
    .entry (.error (.refused (.invalid (.stopBeforeStart first.wholeSecond last.wholeSecond))))
  unchanged : (((Request.stop text last).program policy).run d).2.store = d.store
  stored : Store.fetch (((Request.stop text last).program policy).run d).2.store e.id = .ok e
  running : e.isRunning = true

/-- A timer that is started at one instant, and what becomes of it when it is stopped at another, for as
long as nothing that happens in between changes it. -/
structure TimerLasts (policy : Policy) (fields : EntryFields) (owner : String) (first last : Instant)
    (timer : Entry) (d : Desk σ) : Prop where
  answered : (((Request.start fields owner first).program policy).run d).1 = .entry (.ok timer)
  stored : Store.fetch (((Request.start fields owner first).program policy).run d).2.store timer.id =
    .ok timer
  in_time : first ≤ last → first.wholeSecond ≤ last.wholeSecond
  stops : ∀ rs text d', d' = ((session policy rs).run
      (((Request.start fields owner first).program policy).run d).2).2 →
    Identifier.parse .entry text = .ok timer.id → Store.fetch d'.store timer.id = .ok timer →
      first.wholeSecond ≤ last.wholeSecond → Stopped policy text timer first last d'
  runs_on : ∀ rs text d', d' = ((session policy rs).run
      (((Request.start fields owner first).program policy).run d).2).2 →
    Identifier.parse .entry text = .ok timer.id → Store.fetch d'.store timer.id = .ok timer →
      last.wholeSecond < first.wholeSecond → Unstopped policy text timer first last d'

namespace TimerView

variable {τ : Type} (V : TimerView σ τ) {policy : Policy} {text : String} {e : Entry}
  {first last : Instant} {d : Desk σ}

theorem stopped (hid : Identifier.parse .entry text = .ok e.id)
    (hfetch : Store.fetch d.store e.id = .ok e) (hplain : e.HasPlainInstants)
    (hstart : e.start = first.wholeSecond) (hsole : V.Sole (V.entries d.store) e.id)
    (hlast : last.IsStorable) (hle : first.wholeSecond ≤ last.wholeSecond) :
    Stopped policy text e first last d := by
  have hedit : (Request.stop text last).edit? =
      some (text, fun e => (e.stopAt last).mapError .invalid) := rfl
  have hstop : (e.stopAt last).mapError Refusal.invalid = .ok (e.stoppedAt last) :=
    mapError_eq_ok.mpr (e.stopAt_of_le hlast (hstart ▸ hle))
  have hspans := e.stoppedAt_spans hstart hle
  obtain ⟨hentries, hreply⟩ : V.entries (((Request.stop text last).program policy).run d).2.store =
      V.put (e.stoppedAt last) (V.entries d.store) ∧ _ := V.edit_answered hedit hid hfetch hstop
  have hstored := V.fetch_put (hplain.stoppedAt hlast) hentries
  refine ⟨hreply, hstored, hspans, fun owner page es hlisted => ?_⟩
  cases howner : Identifier.parse .user owner with
  | error g =>
    have hrefused (d' : Desk σ) : (((Request.running owner page).program policy).run d').1 =
        .entries (.error (.refused (.identifier g))) := by
      rw [Request.program, Program.run_map, Service.running, howner]
      rfl
    cases (hrefused _).symm.trans hlisted
  | ok user =>
    rw [run_running policy howner] at hlisted
    refine V.unlisted (e := e.stoppedAt last) ?_ hstored
      (Entry.not_isRunning_of_nonneg hspans.nonneg) (mapError_eq_ok.mp (Reply.entries.inj hlisted))
    exact hentries ▸ V.sole_put _ hsole

theorem unstopped (V : TimerView σ τ) (hid : Identifier.parse .entry text = .ok e.id)
    (hfetch : Store.fetch d.store e.id = .ok e) (hrunning : e.isRunning = true)
    (hstart : e.start = first.wholeSecond) (hlast : last.IsStorable)
    (hlt : last.wholeSecond < first.wholeSecond) : Unstopped policy text e first last d := by
  have hstop : (e.stopAt last).mapError Refusal.invalid =
      .error (.invalid (.stopBeforeStart first.wholeSecond last.wholeSecond)) := by
    rw [e.stopAt_of_lt hlast (hstart ▸ hlt), hstart]
    rfl
  have hedit : (Request.stop text last).edit? =
      some (text, fun e => (e.stopAt last).mapError .invalid) := rfl
  obtain ⟨hreply, hstore⟩ : (((Request.stop text last).program policy).run d).1 = _ ∧ _ :=
    V.edit_refused hedit hid hfetch hstop
  exact ⟨hreply, hstore, hstore ▸ hfetch, hrunning⟩

theorem timerLasts {fields : EntryFields} {owner : String} {user : UserId} {details : EntryDetails}
    {s : σ} (howner : Identifier.parse .user owner = .ok user)
    (hfields : fields.validate = .ok details) (hfirst : first.IsStorable) (hlast : last.IsStorable)
    (hfree : policy.singleRunningTimer = true → Store.running d.store user Page.single = .ok [])
    (hinsert : Store.insert d.store (Entry.running d.ids.next user details first) = .ok s)
    (hsole : V.Sole (V.entries d.store) d.ids.next) :
    TimerLasts policy fields owner first last (Entry.running d.ids.next user details first) d := by
  have hplain := Entry.running_hasPlainInstants d.ids.next user details hfirst
  obtain ⟨hreply, hentries⟩ := V.add_answered (.start howner hfields hfree) hinsert
  have hkept (rs : List Request) : V.Sole (V.entries ((session policy rs).run
      (((Request.start fields owner first).program policy).run d).2).2.store) d.ids.next := by
    refine V.session_keeps_entries (I := fun t => V.Sole t d.ids.next) (C := fun _ => True)
      (fun {_ _ old new} _ _ h => ?_) (fun _ _ _ _ => trivial) (hentries ▸ V.sole_put _ hsole)
    unfold EntryView.written
    split
    · exact V.sole_put _ h
    · exact V.sole_erase _ h
    · exact h
  constructor
  case answered =>
    rcases hreply with h | ⟨cause, h⟩
    · exact h
    · exact (Request.recounts_of_stale h).elim
  case stored => exact V.fetch_put hplain hentries
  case in_time => exact Instant.wholeSecond_mono
  case stops =>
    rintro rs text d' rfl hid hfetch hle
    exact V.stopped hid hfetch hplain rfl (hkept rs) hlast hle
  case runs_on =>
    rintro rs text d' rfl hid hfetch hlt
    exact V.unstopped hid hfetch rfl rfl hlast hlt

end TimerView

/-- A timer can be stopped from the second on in which it was started: never is it refused as long as the
timer is still what it was, and it then spans the seconds from its start. Before that second the stop is
refused, and the timer runs on. A database takes the timer under an identifier that no row is read by. -/
theorem timer_lasts (policy : Policy) {fields : EntryFields} {owner : String} {user : UserId}
    {details : EntryDetails} {first last : Instant}
    (howner : Identifier.parse .user owner = .ok user) (hfields : fields.validate = .ok details)
    (hfirst : first.IsStorable) (hlast : last.IsStorable) :
    (∀ d : Desk Memory,
      (policy.singleRunningTimer = true → Store.running d.store user Page.single = .ok []) →
        TimerLasts policy fields owner first last (Entry.running d.ids.next user details first) d) ∧
    ∀ d : Desk Database,
      (policy.singleRunningTimer = true → Store.running d.store user Page.single = .ok []) →
      (∀ r ∈ d.store.entries.items, ∀ s, r.key = .named s →
        Identifier.parse .entry s ≠ .ok d.ids.next) →
          TimerLasts policy fields owner first last (Entry.running d.ids.next user details first)
            d := by
  constructor
  · intro d hfree
    exact Memory.timerView.timerLasts howner hfields hfirst hlast hfree rfl trivial
  · intro d hfree hfresh
    have hlacks : d.store.entries.find? (.named d.ids.next.text) = none := by
      by_contra hfind
      obtain ⟨r, hr⟩ := Option.ne_none_iff_exists'.mp hfind
      obtain ⟨hmem, hkey⟩ := Shelf.find?_eq_some.mp hr
      exact hfresh r hmem _ hkey (Identifier.parse_text _)
    exact Database.timerView.timerLasts howner hfields hfirst hlast hfree
      (Database.insert_eq_ok.mpr ⟨hlacks, rfl⟩) fun r hr s hs hid => absurd hid (hfresh r hr s hs)

theorem timer_lasts_of_epoch :
    Stopped oneTimer "00000000-0000-0000-0000-000000000001" (timerFrom .epoch) .epoch fourSecondsLater
      (((startTimer "00000000-0000-0000-0000-000000000002").program oneTimer).run
        ⟨({} : Memory), .after 0⟩).2 ∧
    Stopped oneTimer "00000000-0000-0000-0000-000000000001" (timerFrom .epoch) .epoch fourSecondsLater
      (((startTimer "00000000-0000-0000-0000-000000000002").program oneTimer).run
        ⟨({} : Database), .after 0⟩).2 ∧
    Unstopped oneTimer "00000000-0000-0000-0000-000000000001" (timerFrom leapSecond) leapSecond .epoch
      (((Request.start timerFields "00000000-0000-0000-0000-000000000002" leapSecond).program
        oneTimer).run ⟨({} : Database), .after 0⟩).2 := by
  have howner : Identifier.parse .user "00000000-0000-0000-0000-000000000002" =
      .ok ⟨.ofNat 2⟩ := by decide +kernel
  have hid : Identifier.parse .entry "00000000-0000-0000-0000-000000000001" =
      .ok ⟨.ofNat 1⟩ := by decide +kernel
  obtain ⟨details, hfields, hepoch, hleap⟩ : ∃ details, timerFields.validate = .ok details ∧
      Entry.running ⟨.ofNat 1⟩ ⟨.ofNat 2⟩ details .epoch = timerFrom .epoch ∧
      Entry.running ⟨.ofNat 1⟩ ⟨.ofNat 2⟩ details leapSecond = timerFrom leapSecond :=
    ⟨_, rfl, rfl, rfl⟩
  have hlater : fourSecondsLater.IsStorable := by decide
  have hleapSecond : leapSecond.IsStorable := by decide
  obtain ⟨hm, hd⟩ := timer_lasts oneTimer howner hfields Instant.epoch_isStorable hlater
  obtain ⟨-, hl⟩ := timer_lasts oneTimer howner hfields hleapSecond Instant.epoch_isStorable
  have hm := hm ⟨{}, .after 0⟩ fun _ => rfl
  have hd := hd ⟨{}, .after 0⟩ (fun _ => rfl) (by rintro _ ⟨⟩)
  have hl := hl ⟨{}, .after 0⟩ (fun _ => rfl) (by rintro _ ⟨⟩)
  rw [← hepoch, ← hleap]
  exact ⟨hm.stops [] _ _ rfl hid hm.stored (hm.in_time (by decide)),
    hd.stops [] _ _ rfl hid hd.stored (hd.in_time (by decide)),
    hl.runs_on [] _ _ rfl hid hl.stored (by decide)⟩

end Timer

end Timesheet
