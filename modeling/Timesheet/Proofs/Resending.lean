import Timesheet.Proofs.Pairing
import Timesheet.Proofs.View

/-!
Start and stop of an entry sent to it again. Main statement: of an entry that a session made this is
accepted and sets the duration to the seconds from start to stop, which it was before unless the entry
was created from a leap second on; only a start that was never checked may be refused.
-/

namespace Timesheet

open Service
open Entry (Interval)

namespace Instant

variable {a b : Instant}

theorem secondsUntil_self (a : Instant) : a.secondsUntil a = 0 := by
  simp [secondsUntil]

theorem secondsUntil_of_leap (ha : a.nano = nanosPerSecond) (hb : b.nano = 0) :
    a.secondsUntil b = b.second - a.second - if a.secondOfDay < b.secondOfDay then 0 else 1 := by
  have hla : a.isLeap = true := by simp [isLeap, ha]
  have hlb : b.isLeap = false := by simp [isLeap, hb, nanosPerSecond]
  have hda := dayNumber_mul a
  have hdb := dayNumber_mul b
  have hsum : (b.dayNumber - a.dayNumber) * secondsPerDay + (b.secondOfDay - a.secondOfDay) =
      b.second - a.second := by
    rw [Int.sub_mul]
    omega
  have hcancel (n : Int) : (n * nanosPerSecond + ((0 : Nat) - (nanosPerSecond : Int))).tdiv
      nanosPerSecond = n - 1 := by
    rw [show n * nanosPerSecond + ((0 : Nat) - (nanosPerSecond : Int)) =
      (n - 1) * nanosPerSecond by rw [Int.sub_mul]; simp; omega]
    exact Int.mul_tdiv_cancel _ (by decide)
  unfold secondsUntil
  simp only [hsum, hla, hlb, ha, hb, and_true, Bool.false_eq_true, and_false, ↓reduceIte, hcancel]
  split <;> omega

theorem secondsUntil_of_addSeconds? {d : Int} (ha : a.IsWhole) (hd : 0 ≤ d)
    (h : a.addSeconds? d = some b) : d = a.secondsUntil b ∨
      (a.isLeap ∧ b.secondOfDay ≤ a.secondOfDay ∧ d = a.secondsUntil b + 1) := by
  rcases addSeconds?_eq_some h with ⟨rfl, rfl⟩ | ⟨h0, hleap, hs, hn⟩ | ⟨-, hleap, hs, hn⟩
  · exact .inl (secondsUntil_self b).symm
  · have hna : a.nano = nanosPerSecond := by
      rcases ha with ha | ha
      · exact absurd hleap ((not_isLeap_iff (.inl ha)).mpr ha)
      · exact ha
    have hnb : b.nano = 0 := by omega
    rw [if_pos (by omega)] at hs
    rw [secondsUntil_of_leap hna hnb]
    split
    · exact .inl (by omega)
    · exact .inr ⟨hleap, by omega, by omega⟩
  · have hna := (not_isLeap_iff ha).mp hleap
    rw [secondsUntil_of_nano_eq_zero hna (hn.trans hna)]
    exact .inl (by omega)

end Instant

namespace Entry.Interval

structure EndsAt (i : Interval) (stop : Instant) : Prop where
  stops : i.stop = some stop
  start_le : i.start ≤ stop
  storable : stop.IsStorable
  duration : i.duration = i.start.secondsUntil stop ∨ (i.start.isLeap ∧
    stop.secondOfDay ≤ i.start.secondOfDay ∧ i.duration = i.start.secondsUntil stop + 1)

def IsMade (i : Interval) : Prop :=
  i.IsWhole ∧ (i.IsOpen ∨ ∃ stop, i.EndsAt stop)

variable {i : Interval}

theorem isMade_open (now : Instant) : IsMade ⟨now.wholeSecond, none, runningDuration⟩ :=
  ⟨⟨now.wholeSecond_isWhole, by simp⟩, .inl ⟨rfl, rfl⟩⟩

theorem isMade_of_secondsUntil {start stop : Instant} (hs : start.IsWhole) (ht : stop.IsWhole)
    (hstorable : stop.IsStorable) (hlt : ¬stop < start) :
    IsMade ⟨start, some stop, start.secondsUntil stop⟩ := by
  refine ⟨⟨hs, ?_⟩, .inr ⟨stop, rfl, Instant.not_lt.mp hlt, hstorable, .inl rfl⟩⟩
  rintro _ ⟨⟩
  exact ht

end Entry.Interval

namespace Entry

variable {e e' : Entry} {now : Instant}

theorem isMade_finished {id : EntryId} {user : UserId} {details : EntryDetails} {start : Instant}
    {duration : Int} (h : finished id user details start duration now = .ok e) :
    e.interval.IsMade := by
  obtain ⟨hd, -, stop, hstop, hadd, rfl⟩ := finished_eq_ok.mp h
  have hwhole := start.wholeSecond_isWhole
  refine ⟨⟨hwhole, ?_⟩, .inr ⟨stop, rfl, Instant.le_of_addSeconds? hd hadd, hstop,
    Instant.secondsUntil_of_addSeconds? hwhole hd hadd⟩⟩
  rintro _ ⟨⟩
  exact Instant.isWhole_of_addSeconds? hwhole hadd

theorem isMade_stopAt (he : e.interval.IsMade) (h : e.stopAt now = .ok e') :
    e'.interval.IsMade := by
  obtain ⟨hstorable, hlt, rfl⟩ := stopAt_eq_ok.mp h
  exact Interval.isMade_of_secondsUntil he.1.1 now.wholeSecond_isWhole hstorable hlt

theorem isMade_applyPatch {p : Patch} (he : e.interval.IsMade) (h : e.applyPatch p now = .ok e') :
    e'.interval.IsMade := by
  rcases patchedInterval_eq_ok (applyPatch_eq_ok h).1 with heq | ⟨hs, ht, hd⟩
  · rw [heq]
    exact he
  have hstart : e'.start.IsWhole := by
    rcases hs with hs | ⟨s, -, hs, -⟩
    · exact (congrArg Instant.IsWhole hs).mpr he.1.1
    · exact (congrArg Instant.IsWhole hs).mpr s.wholeSecond_isWhole
  rcases hd with ⟨hstop, hd⟩ | ⟨stop, hstop, hlt, hd⟩
  · refine ⟨⟨hstart, fun stop h => ?_⟩, .inl ⟨hd, hstop⟩⟩
    cases hstop.symm.trans h
  · have hnew : e'.interval = ⟨e'.start, some stop, e'.start.secondsUntil stop⟩ := by
      rw [Interval.mk.injEq]
      exact ⟨rfl, hstop, hd⟩
    rw [hnew]
    rcases ht with ht | ⟨s, -, ht, hstorable⟩
    · have hold : e.stop = some stop := ht.symm.trans hstop
      obtain ⟨hwhole, ⟨-, hnone⟩ | ⟨stop', hends⟩⟩ := he
      · cases hold.symm.trans hnone
      · obtain rfl : stop = stop' := Option.some.inj (hold.symm.trans hends.stops)
        exact Interval.isMade_of_secondsUntil hstart (hwhole.2 stop hold) hends.storable hlt
    · obtain rfl : s.wholeSecond = stop := Option.some.inj (ht.symm.trans hstop)
      exact Interval.isMade_of_secondsUntil hstart s.wholeSecond_isWhole hstorable hlt

end Entry

def making : Contract where
  entry e := e.interval.IsMade
  clock _ := True
  bound _ := True
  total _ := True

theorem Request.builds_making (r : Request) : r.Builds making := by
  cases r with
  | create input owner now => exact fun _ _ _ _ _ _ _ _ h => Entry.isMade_finished h
  | start fields owner now => exact fun _ _ _ => Interval.isMade_open now
  | stop id now => exact fun _ _ => Entry.isMade_stopAt
  | update id patch now => exact fun _ _ => Entry.isMade_applyPatch
  | updateBatch ids patch now => exact fun _ _ => Entry.isMade_applyPatch
  | updateTags id tags mode now => exact fun _ he => he
  | updateTagsBatch ids tags mode now => exact fun _ he => he
  | range owner page first last => exact ⟨trivial, trivial⟩
  | dashboard owner now => exact ⟨trivial, trivial⟩
  | _ => trivial

theorem session_keeps_making (policy : Policy) (rs : List Request) :
    (session policy rs).Keeps making (fun _ => True) none :=
  session_keeps (fun r _ => ⟨r.builds_making, fun _ _ => trivial⟩) policy none

namespace Entry

variable {e : Entry} {stop now : Instant}

def resendings (e : Entry) : List Patch :=
  [{ start := some e.start }, { stop := e.stop }, { start := some e.start, stop := e.stop }]

def remeasured (e : Entry) (stop now : Instant) : Entry :=
  { e with duration := e.start.secondsUntil stop, updated := now.wholeSecond }

theorem patchedInterval_of_supplied {p : Patch} {start : Instant} {n : Int}
    (hp : ¬(p.start = none ∧ p.stop = none)) (hstart : e.patchedStart p.start = .ok start)
    (hstop : e.patchedStop p.stop = .ok (some stop)) (hn : intervalSeconds start stop = .ok n) :
    e.patchedInterval p = .ok ⟨start, some stop, n⟩ := by
  rw [patchedInterval, if_neg hp, hstart, bind_eq_ok]
  refine ⟨start, rfl, ?_⟩
  rw [hstop, bind_eq_ok]
  refine ⟨some stop, rfl, ?_⟩
  simp only [hn]
  rfl

theorem applyPatch_interval (start stop : Option Instant) (now : Instant) :
    e.applyPatch { start, stop } now = do
      let i ← (e.patchedInterval { start, stop }).mapError .invalid
      return { e with
        start := i.start, stop := i.stop, duration := i.duration, updated := now.wholeSecond } :=
  rfl

theorem of_mem_resendings {p : Patch} (hp : p ∈ e.resendings) :
    p = { start := p.start, stop := p.stop } ∧ (p.start = none ∨ p.start = some e.start) ∧
      (p.stop = e.stop ∨ p.start ≠ none ∧ p.stop = none) := by
  simp only [resendings, List.mem_cons, List.not_mem_nil, or_false] at hp
  rcases hp with rfl | rfl | rfl <;> simp

theorem applyPatch_resending (hwhole : e.interval.IsWhole) (hends : e.interval.EndsAt stop)
    {p : Patch} (hp : p ∈ e.resendings) (hstart : p.start = none ∨ e.start.IsStorable) :
    e.applyPatch p now = .ok (e.remeasured stop now) := by
  have hs : e.stop = some stop := hends.stops
  have hw : e.start.wholeSecond = e.start := Instant.wholeSecond_of_isWhole hwhole.1
  have hseconds : intervalSeconds e.start stop = .ok (e.start.secondsUntil stop) :=
    intervalSeconds_eq_ok.mpr ⟨Instant.not_lt.mpr hends.start_le, rfl⟩
  obtain ⟨heq, hpstart, hpstop⟩ := of_mem_resendings hp
  have hpatchedStart : e.patchedStart p.start = .ok e.start := by
    rcases hpstart with h | h
    · rw [h]
      rfl
    · have hstorable := hstart.resolve_left (by simp [h])
      rw [h, patchedStart, hw, storable, if_pos hstorable]
  have hpatchedStop : e.patchedStop p.stop = .ok (some stop) := by
    rcases hpstop with h | ⟨-, h⟩
    · rw [h, hs, patchedStop, Instant.wholeSecond_of_isWhole (hwhole.2 stop hs), storable,
        if_pos hends.storable]
      rfl
    · rw [h, patchedStop, hs]
  have hinterval : e.patchedInterval p = .ok ⟨e.start, some stop, e.start.secondsUntil stop⟩ := by
    refine patchedInterval_of_supplied ?_ hpatchedStart hpatchedStop hseconds
    rintro ⟨hnone, hnone'⟩
    rcases hpstop with h | ⟨hne, -⟩
    · cases hs.symm.trans (h.symm.trans hnone')
    · exact hne hnone
  rw [heq] at hinterval ⊢
  rw [applyPatch_interval, hinterval]
  simp only [remeasured, ← hs]
  rfl

theorem applyPatch_resending_refused (hwhole : e.interval.IsWhole) {p : Patch}
    (hp : p ∈ e.resendings) (hstart : p.start ≠ none) (hstorable : ¬e.start.IsStorable) :
    e.applyPatch p now = .error (.invalid (.instantOutOfRange .start e.start)) := by
  have hw : e.start.wholeSecond = e.start := Instant.wholeSecond_of_isWhole hwhole.1
  obtain ⟨heq, hpstart, -⟩ := of_mem_resendings hp
  have hpatchedStart : e.patchedStart p.start = .error (.instantOutOfRange .start e.start) := by
    rw [hpstart.resolve_left hstart, patchedStart, hw, storable, if_neg hstorable]
  have hinterval : e.patchedInterval p = .error (.instantOutOfRange .start e.start) := by
    rw [patchedInterval, if_neg fun h => hstart h.1, hpatchedStart]
    rfl
  rw [heq] at hinterval ⊢
  rw [applyPatch_interval, hinterval]
  rfl

end Entry

section Resends

variable {σ τ : Type} [Store σ] {V : EntryView σ τ} {policy : Policy} {d : Desk σ} {id : EntryId}
  {text : String} {e : Entry} {stop : Instant}

/-- What becomes of a finished entry when its own start or stop is supplied to it. -/
structure Resends (V : EntryView σ τ) (policy : Policy) (d : Desk σ) (text : String) (e : Entry)
    (stop : Instant) : Prop where
  ends : e.interval.EndsAt stop
  accepted : ∀ p ∈ e.resendings, ∀ now, p.start = none ∨ e.start.IsStorable →
    V.entries (((Request.update text p now).program policy).run d).2.store =
        V.put (e.remeasured stop now) (V.entries d.store) ∧
      ((((Request.update text p now).program policy).run d).1 =
          .entry (.ok (e.remeasured stop now)) ∨
        ∃ cause, (((Request.update text p now).program policy).run d).1 =
          .entry (.error (.stale e.id cause)))
  refused : ∀ p ∈ e.resendings, ∀ now, p.start ≠ none → ¬e.start.IsStorable →
    (((Request.update text p now).program policy).run d).1 =
        .entry (.error (.refused (.invalid (.instantOutOfRange .start e.start)))) ∧
      (((Request.update text p now).program policy).run d).2.store = d.store

theorem resends_of_isMade (hid : Identifier.parse .entry text = .ok id)
    (hfetch : Store.fetch d.store id = .ok e) (he : e.interval.IsMade)
    (hfinished : e.isRunning = false) : ∃ stop, Resends V policy d text e stop := by
  obtain ⟨hwhole, hopen | ⟨stop, hends⟩⟩ := he
  · have hrunning : e.isRunning = true := beq_iff_eq.mpr hopen.1
    cases hfinished.symm.trans hrunning
  · refine ⟨stop, hends, fun p hp now hstart => ?_, fun p hp now hstart hnot => ?_⟩
    · exact V.edit_answered rfl hid hfetch (Entry.applyPatch_resending hwhole hends hp hstart)
    · exact V.edit_refused rfl hid hfetch
        (Entry.applyPatch_resending_refused hwhole hp hstart hnot)

end Resends

namespace EntryRow

def IsMade (r : EntryRow) : Prop :=
  ∀ e, r.Denotes e → e.interval.IsMade ∧ e.start.IsStorable

theorem ofEntry_isMade (e : Entry) (h : making.entry e) : (ofEntry e).IsMade := by
  intro e' he'
  obtain ⟨hstorable, rfl⟩ := ofEntry_denotes.mp he'
  have hinterval : e.wholeSeconds.interval = e.interval :=
    Interval.wholeSeconds_of_isWhole h.1
  refine ⟨hinterval ▸ h, ?_⟩
  exact Entry.mem_instants_wholeSeconds hstorable _ (Entry.mem_instants.mpr (.inl rfl))

end EntryRow

/-- Of any finished entry that a session has made of no entries, its own start or stop is accepted
again, if the start is storable, as it always is of an entry in a database. The duration becomes the
seconds from start to stop, which it was already or one more. -/
theorem session_resends (policy : Policy) (rs : List Request) (ids : IdSource) (text : String)
    (id : EntryId) (e : Entry) (hid : Identifier.parse .entry text = .ok id)
    (hfinished : e.isRunning = false) :
    (∀ m : Memory, m.entries = Shelf.empty →
      Store.fetch ((session policy rs).run ⟨m, ids⟩).2.store id = .ok e →
        ∃ stop, Resends Memory.view policy ((session policy rs).run ⟨m, ids⟩).2 text e stop) ∧
    ∀ d : Database, d.entries = Shelf.empty →
      Store.fetch ((session policy rs).run ⟨d, ids⟩).2.store id = .ok e →
        e.start.IsStorable ∧
          ∃ stop, Resends Database.view policy ((session policy rs).run ⟨d, ids⟩).2 text e stop := by
  constructor
  · intro m hm hfetch
    have hheld := Memory.run_holds (m := m) (session_keeps_making policy rs) (fun _ => trivial) ids
      (hm ▸ Shelf.holds_empty)
    exact resends_of_isMade hid hfetch (hheld.of_find? (Memory.found_eq_ok.mp hfetch)) hfinished
  · intro d hd hfetch
    have hheld := Database.run_holds (d := d) (session_keeps_making policy rs) (fun _ => trivial)
      EntryRow.ofEntry_isMade (fun r e hr he => (hr e he).1) ids (hd ▸ Shelf.holds_empty)
    obtain ⟨r, hr, hdenotes⟩ := Database.fetch_eq_ok.mp hfetch
    obtain ⟨hmade, hstorable⟩ := hheld.of_find? hr e hdenotes
    exact ⟨hstorable, resends_of_isMade hid hfetch hmade hfinished⟩

theorem Memory.fetch_of_put {m : Memory} {s : Shelf Entry.id} {e : Entry}
    (h : m.entries = s.put e) : Store.fetch m e.id = .ok e :=
  found_eq_ok.mpr (h ▸ s.find?_put_self e)

theorem Database.fetch_of_put {d : Database} {s : Shelf EntryRow.key} {e : Entry}
    (h : d.entries = s.put (.ofEntry e)) (he : (EntryRow.ofEntry e).Denotes e) :
    Store.fetch d e.id = .ok e :=
  fetch_eq_ok.mpr ⟨_, h ▸ s.find?_put_self (.ofEntry e), he⟩

def leapSecond : Instant :=
  .ofLeap 1483228799 (by decide) (by decide)

def fourSecondsLater : Instant :=
  .ofSecond 1483228804 (by decide)

def fromLeapSecond : Request :=
  .create { fields := { workspace := some "00000000-0000-0000-0000-000000000003",
                        createdWith := some "test" },
            start := some leapSecond, duration := some 5 }
    "00000000-0000-0000-0000-000000000002" .epoch

def leapSecondEntry : Entry :=
  { timerFrom .epoch with start := leapSecond, stop := some fourSecondsLater, duration := 5 }

theorem session_resends_leapSecond :
    (leapSecondEntry.remeasured fourSecondsLater .epoch).duration = 4 ∧
    (((Request.update "00000000-0000-0000-0000-000000000001" { start := some leapSecond }
      .epoch).program {}).run
        ((session {} [fromLeapSecond]).run ⟨({} : Memory), .after 0⟩).2).2.store.entries =
          (Shelf.empty.put leapSecondEntry).put
            (leapSecondEntry.remeasured fourSecondsLater .epoch) ∧
    (((Request.update "00000000-0000-0000-0000-000000000001" { start := some leapSecond }
      .epoch).program {}).run
        ((session {} [fromLeapSecond]).run ⟨({} : Database), .after 0⟩).2).2.store.entries =
          (Shelf.empty.put (.ofEntry leapSecondEntry)).put
            (.ofEntry (leapSecondEntry.remeasured fourSecondsLater .epoch)) := by
  have hid : Identifier.parse .entry "00000000-0000-0000-0000-000000000001" = .ok ⟨.ofNat 1⟩ := by
    decide +kernel
  have hstorable : leapSecondEntry.start.IsStorable := by decide
  have hp : { start := some leapSecond } ∈ leapSecondEntry.resendings := List.mem_cons_self
  have hmemory : ((session {} [fromLeapSecond]).run ⟨({} : Memory), .after 0⟩).2.store.entries =
      Shelf.empty.put leapSecondEntry := by decide +kernel
  have hdatabase : ((session {} [fromLeapSecond]).run ⟨({} : Database), .after 0⟩).2.store.entries =
      Shelf.empty.put (.ofEntry leapSecondEntry) := by decide +kernel
  have hdenotes : (EntryRow.ofEntry leapSecondEntry).Denotes leapSecondEntry :=
    EntryRow.ofEntry_denotes.mpr ⟨by decide, rfl⟩
  obtain ⟨hm, hd⟩ := session_resends {} [fromLeapSecond] (.after 0) _ _ leapSecondEntry hid rfl
  refine ⟨by decide, ?_, ?_⟩
  · have hfetch := Memory.fetch_of_put hmemory
    obtain ⟨stop, h⟩ := hm {} rfl hfetch
    have hstop : some fourSecondsLater = some stop := h.ends.stops
    cases hstop
    obtain ⟨hput, -⟩ := h.accepted _ hp .epoch (.inr hstorable)
    simpa only [Memory.view_entries, Memory.view_put, hmemory] using hput
  · have hfetch := Database.fetch_of_put hdatabase hdenotes
    obtain ⟨-, stop, h⟩ := hd {} rfl hfetch
    have hstop : some fourSecondsLater = some stop := h.ends.stops
    cases hstop
    obtain ⟨hput, -⟩ := h.accepted _ hp .epoch (.inr hstorable)
    simpa only [Database.view_entries, Database.view_put, hdatabase] using hput

end Timesheet
