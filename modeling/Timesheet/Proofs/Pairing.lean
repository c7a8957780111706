import Timesheet.Proofs.Contract
import Timesheet.Proofs.Holding
import Timesheet.Proofs.Stamp

/-!
The pairing of a duration with a stop. Main statement: after any session an entry either has no stop
and the duration that says so, or has a stop that does not come before its start and a duration that
is not negative; and the seconds from start to stop are exactly the duration, if whole seconds were
stored to begin with.
-/

namespace Timesheet

open Entry (Interval)

namespace Entry.Interval

variable {i j : Interval}

def IsOpen (i : Interval) : Prop :=
  i.duration = Entry.runningDuration ∧ i.stop = none

def IsClosed (i : Interval) : Prop :=
  0 ≤ i.duration ∧ ∃ stop ∈ i.stop, i.start ≤ stop

/-- From a start to a stop that are no leap seconds it is exactly the duration. -/
def IsExact (i : Interval) : Prop :=
  ∀ stop ∈ i.stop, ¬i.start.isLeap → ¬stop.isLeap → i.start.addSeconds? i.duration = some stop

def IsWhole (i : Interval) : Prop :=
  i.start.IsWhole ∧ ∀ stop ∈ i.stop, stop.IsWhole

instance (i : Interval) : Decidable i.IsOpen :=
  inferInstanceAs (Decidable (_ ∧ _))

instance (i : Interval) : Decidable i.IsClosed :=
  inferInstanceAs (Decidable (_ ∧ _))

instance (i : Interval) : Decidable i.IsWhole :=
  inferInstanceAs (Decidable (_ ∧ ∀ stop ∈ i.stop, _))

instance (i : Interval) : Decidable i.IsExact :=
  inferInstanceAs (Decidable (∀ stop ∈ i.stop, _))

theorem not_isClosed_of_isOpen (h : i.IsOpen) : ¬i.IsClosed := by
  rintro ⟨-, stop, hstop, -⟩
  rw [h.2] at hstop
  simp at hstop

def wholeSeconds (i : Interval) : Interval :=
  ⟨i.start.wholeSecond, i.stop.map Instant.wholeSecond, i.duration⟩

theorem IsClosed.wholeSeconds (h : i.IsClosed) : i.wholeSeconds.IsClosed := by
  obtain ⟨hd, stop, hstop, hle⟩ := h
  refine ⟨hd, stop.wholeSecond, ?_, Instant.wholeSecond_mono hle⟩
  exact Option.mem_map_of_mem _ hstop

theorem wholeSeconds_of_isWhole (h : i.IsWhole) : i.wholeSeconds = i := by
  obtain ⟨start, stop, duration⟩ := i
  obtain ⟨hs, ht⟩ := h
  unfold Interval.wholeSeconds
  rw [Instant.wholeSecond_of_isWhole hs]
  cases stop with
  | none => rfl
  | some stop => rw [Option.map_some, Instant.wholeSecond_of_isWhole (ht stop rfl)]

structure FollowsFrom (j i : Interval) : Prop where
  start : j.start = i.start ∨ j.start.IsWhole
  stop : j.stop = i.stop ∨ ∀ stop ∈ j.stop, stop.IsWhole
  duration : j.stop = none ∧ j.duration = Entry.runningDuration ∨
    ∃ stop, j.stop = some stop ∧ j.start ≤ stop ∧ j.duration = j.start.secondsUntil stop

theorem FollowsFrom.isPaired (h : j.FollowsFrom i) : j.IsOpen ∨ j.IsClosed := by
  rcases h.duration with ⟨hs, hd⟩ | ⟨stop, hs, hle, hd⟩
  · exact .inl ⟨hd, hs⟩
  · right
    refine ⟨?_, stop, hs, hle⟩
    rw [hd]
    exact Instant.secondsUntil_nonneg hle

theorem FollowsFrom.isWhole (h : j.FollowsFrom i) (hi : i.IsWhole) : j.IsWhole := by
  constructor
  · rcases h.start with hs | hs
    · rw [hs]
      exact hi.1
    · exact hs
  · rcases h.stop with hs | hs
    · rw [hs]
      exact hi.2
    · exact hs

theorem FollowsFrom.isExact (h : j.FollowsFrom i) (hi : i.IsWhole) : j.IsExact := by
  intro stop hstop hls hlt
  have hj := h.isWhole hi
  rcases h.duration with ⟨hs, -⟩ | ⟨stop', hs, -, hd⟩
  · rw [hs] at hstop
    simp at hstop
  · obtain rfl : stop' = stop := Option.some.inj (hs.symm.trans hstop)
    rw [hd]
    apply Instant.addSeconds?_secondsUntil
    · exact (Instant.not_isLeap_iff hj.1).mp hls
    · exact (Instant.not_isLeap_iff (hj.2 _ hstop)).mp hlt

end Interval

theorem interval_finished {id : EntryId} {user : UserId} {d : EntryDetails} {start now : Instant}
    {duration : Int} {e : Entry} (h : finished id user d start duration now = .ok e) :
    0 ≤ duration ∧ ∃ stop, start.wholeSecond.addSeconds? duration = some stop ∧
      e.interval = ⟨start.wholeSecond, some stop, duration⟩ := by
  obtain ⟨hd, -, stop, -, hadd, rfl⟩ := finished_eq_ok.mp h
  exact ⟨hd, stop, hadd, rfl⟩

theorem interval_stopAt {e e' : Entry} {now : Instant} (h : e.stopAt now = .ok e') :
    e'.interval.FollowsFrom e.interval := by
  obtain ⟨-, hlt, rfl⟩ := stopAt_eq_ok.mp h
  refine ⟨.inl rfl, .inr ?_, .inr ⟨_, rfl, Instant.not_lt.mp hlt, rfl⟩⟩
  rintro stop ⟨⟩
  exact now.wholeSecond_isWhole

theorem interval_applyPatch {e e' : Entry} {p : Patch} {now : Instant}
    (h : e.applyPatch p now = .ok e') :
    e'.interval = e.interval ∨ e'.interval.FollowsFrom e.interval := by
  rcases patchedInterval_eq_ok (applyPatch_eq_ok h).1 with he | ⟨hs, ht, hd⟩
  · exact .inl he
  · right
    refine ⟨?_, ?_, ?_⟩
    · rcases hs with hs | ⟨s, -, hs, -⟩
      · exact .inl hs
      · exact .inr (hs ▸ s.wholeSecond_isWhole)
    · rcases ht with ht | ⟨s, -, ht, -⟩
      · exact .inl ht
      · right
        intro stop hstop
        rw [ht] at hstop
        obtain ⟨⟩ := hstop
        exact s.wholeSecond_isWhole
    · rcases hd with hd | ⟨stop, hs, hlt, hd⟩
      · exact .inl hd
      · exact .inr ⟨stop, hs, Instant.not_lt.mp hlt, hd⟩

end Entry

theorem Request.builds_of_interval {P : Interval → Prop}
    (hopen : ∀ now : Instant, P ⟨now.wholeSecond, none, Entry.runningDuration⟩)
    (hfinished : ∀ (start stop : Instant) (duration : Int), 0 ≤ duration →
      start.wholeSecond.addSeconds? duration = some stop →
        P ⟨start.wholeSecond, some stop, duration⟩)
    (hfollows : ∀ i j : Interval, P i → j.FollowsFrom i → P j) (r : Request) :
    r.Builds ⟨fun e => P e.interval, fun _ => True, fun _ => True, fun _ => True⟩ := by
  have hpatch (p : Patch) (now : Instant) (e e' : Entry) (he : P e.interval)
      (h : e.applyPatch p now = .ok e') : P e'.interval := by
    rcases Entry.interval_applyPatch h with heq | hf
    · rw [heq]
      exact he
    · exact hfollows _ _ he hf
  cases r with
  | create input owner now =>
    intro id user details start duration e _ _ he
    obtain ⟨hd, stop, hadd, hi⟩ := Entry.interval_finished he
    change P e.interval
    rw [hi]
    exact hfinished start stop duration hd hadd
  | start fields owner now => exact fun _ _ _ => hopen now
  | stop id now => exact fun e e' he h => hfollows _ _ he (Entry.interval_stopAt h)
  | update id patch now => exact hpatch patch now
  | updateBatch ids patch now => exact hpatch patch now
  | updateTags id tags mode now => exact fun e he => he
  | updateTagsBatch ids tags mode now => exact fun e he => he
  | range owner page first last => exact ⟨trivial, trivial⟩
  | dashboard owner now => exact ⟨trivial, trivial⟩
  | _ => trivial

/-- What a text in a column of instants shows: the instant that is read from it, or the whole second
that it is the stamp of. -/
def Shows (text : String) (i : Instant) : Prop :=
  Instant.ofStamp? text = some i ∨ i.IsWhole ∧ text = i.stamp

theorem Shows.eq_of_read {text : String} {i j : Instant} (h : Shows text i)
    (hj : Instant.ofStamp? text = some j) : i = j := by
  rcases h with h | ⟨hw, rfl⟩
  · exact Option.some.inj (h.symm.trans hj)
  · obtain ⟨-, rfl⟩ := Instant.ofStamp?_stamp_eq_some.mp hj
    exact (Instant.wholeSecond_of_isWhole hw).symm

theorem shows_stamp (i : Instant) : Shows i.stamp i.wholeSecond :=
  .inr ⟨i.wholeSecond_isWhole, (Instant.stamp_wholeSecond i).symm⟩

theorem Shows.isWhole_of_stamp {i j : Instant} (h : Shows j.stamp i) : i.IsWhole := by
  rcases h with h | ⟨hw, -⟩
  · obtain ⟨-, rfl⟩ := Instant.ofStamp?_stamp_eq_some.mp h
    exact j.wholeSecond_isWhole
  · exact hw

namespace EntryRow

variable {r : EntryRow} {e : Entry}

structure ShowsInterval (r : EntryRow) (i : Interval) : Prop where
  start : Shows r.start i.start
  stop : Option.Rel Shows r.stop i.stop
  duration : r.duration = .integer i.duration

def IsOpen (r : EntryRow) : Prop :=
  r.duration = .integer Entry.runningDuration ∧ r.stop = none

def IsClosed (r : EntryRow) : Prop :=
  ∃ i, r.ShowsInterval i ∧ i.IsClosed

def IsExact (r : EntryRow) : Prop :=
  r.IsOpen ∨ ∃ i, r.ShowsInterval i ∧ i.IsClosed ∧ i.IsExact

def IsWhole (r : EntryRow) : Prop :=
  (∀ start, Shows r.start start → start.IsWhole) ∧
    ∀ text ∈ r.stop, ∀ stop, Shows text stop → stop.IsWhole

theorem not_isClosed_of_isOpen (h : r.IsOpen) : ¬r.IsClosed := by
  rintro ⟨i, hi, -, stop, hstop, -⟩
  have hrel := hi.stop
  rw [h.2, Option.mem_def.mp hstop] at hrel
  cases hrel

theorem ShowsInterval.eq_of_denotes {i : Interval} (hi : r.ShowsInterval i) (h : r.Denotes e) :
    i = e.interval := by
  obtain ⟨start, stop, duration⟩ := i
  have hstart := hi.start.eq_of_read h.start
  have hduration : duration = e.duration := by
    simpa using hi.duration.symm.trans h.duration
  have hstop : stop = e.stop := by
    have hd := h.stop
    have hrel := hi.stop
    cases hr : r.stop <;> cases he : e.stop <;> rw [hr] at hrel <;> cases hrel <;>
      simp only [hr, he, Option.map_some, Option.map_none, reduceCtorEq, Option.some.injEq] at hd
    · rfl
    · rename_i htext
      rw [htext.eq_of_read hd]
  rw [Interval.mk.injEq]
  exact ⟨hstart, hstop, hduration⟩

theorem ofEntry_showsInterval (e : Entry) : (ofEntry e).ShowsInterval e.interval.wholeSeconds := by
  refine ⟨shows_stamp _, ?_, rfl⟩
  change Option.Rel Shows (e.stop.map Instant.stamp) (e.stop.map Instant.wholeSecond)
  cases e.stop with
  | none => exact .none
  | some stop => exact .some (shows_stamp stop)

theorem ofEntry_isOpen (h : e.interval.IsOpen) : (ofEntry e).IsOpen :=
  ⟨congrArg NumberCell.integer h.1, congrArg (Option.map Instant.stamp) h.2⟩

theorem ofEntry_isWhole (e : Entry) : (ofEntry e).IsWhole := by
  refine ⟨fun _ h => h.isWhole_of_stamp, ?_⟩
  intro text htext stop h
  obtain ⟨i, -, rfl⟩ := Option.mem_map.mp htext
  exact h.isWhole_of_stamp

theorem interval_isOpen (h : r.Denotes e) : e.interval.IsOpen ↔ r.IsOpen := by
  have hd := h.duration
  have hs := h.stop
  unfold Interval.IsOpen IsOpen Entry.interval
  rw [hd, NumberCell.integer.injEq]
  cases hr : r.stop <;> cases he : e.stop <;> simp_all

theorem interval_isWhole (h : r.Denotes e) (hw : r.IsWhole) : e.interval.IsWhole := by
  refine ⟨hw.1 _ (.inl h.start), ?_⟩
  intro stop hstop
  have hs := h.stop
  rw [show e.stop = some stop from hstop] at hs
  obtain ⟨text, htext, hread⟩ := Option.map_eq_some_iff.mp hs
  exact hw.2 text htext stop (.inl hread)

end EntryRow

/-- An entry is open or closed, not both, and each test of its duration tells which. -/
structure Entry.IsSplit (e : Entry) : Prop where
  either : Xor e.interval.IsOpen e.interval.IsClosed
  least : runningDuration ≤ e.duration
  running : e.isRunning = true ↔ e.interval.IsOpen
  finished : 0 ≤ e.duration ↔ e.interval.IsClosed

/-- A row is open or closed, not both, and each test of its duration tells which, before it is read
and after. -/
structure EntryRow.IsSplit (r : EntryRow) : Prop where
  either : Xor r.IsOpen r.IsClosed
  least : ∃ n, r.duration = .integer n ∧ Entry.runningDuration ≤ n
  running : Database.isRunningRow r = true ↔ r.IsOpen
  finished : Database.isFinishedCell r.duration = true ↔ r.IsClosed
  read : ∀ e, r.entry = .ok e → (e.isRunning = true ↔ r.IsOpen)

theorem xor_of_or {p q : Prop} (h : p ∨ q) (hpq : p → ¬q) : Xor p q := by
  rcases h with hp | hq
  · exact .inl ⟨hp, hpq hp⟩
  · exact .inr ⟨hq, fun hp => hpq hp hq⟩

theorem Entry.isSplit_of_or {e : Entry} (h : e.interval.IsOpen ∨ e.interval.IsClosed) :
    e.IsSplit := by
  have hrun : e.isRunning = true ↔ e.duration = runningDuration := beq_iff_eq
  refine ⟨xor_of_or h Interval.not_isClosed_of_isOpen, ?_, ?_, ?_⟩
  · rcases h with h | h
    · exact h.1.ge
    · exact le_trans (by decide) h.1
  · rw [hrun]
    refine ⟨fun hd => ?_, And.left⟩
    rcases h with h | h
    · exact h
    · have := h.1.trans_eq hd
      exact absurd this (by decide)
  · refine ⟨fun hd => ?_, And.left⟩
    rcases h with h | h
    · have := hd.trans_eq h.1
      exact absurd this (by decide)
    · exact h

theorem EntryRow.isSplit_of_or {r : EntryRow} (h : r.IsOpen ∨ r.IsClosed) : r.IsSplit := by
  have hrun : Database.isRunningRow r = true ↔ r.duration = .integer Entry.runningDuration :=
    beq_iff_eq
  have hopen (h' : r.duration = .integer Entry.runningDuration) : r.IsOpen := by
    rcases h with h | ⟨i, hi, hc⟩
    · exact h
    · rw [hi.duration, NumberCell.integer.injEq] at h'
      have := hc.1.trans_eq h'
      exact absurd this (by decide)
  refine ⟨xor_of_or h not_isClosed_of_isOpen, ?_, ?_, ?_, ?_⟩
  · rcases h with h | ⟨i, hi, hc⟩
    · exact ⟨_, h.1, le_refl _⟩
    · exact ⟨_, hi.duration, le_trans (by decide) hc.1⟩
  · rw [hrun]
    exact ⟨hopen, And.left⟩
  · constructor
    · intro hf
      rcases h with h | h
      · rw [h.1, Database.isFinishedCell_integer] at hf
        exact absurd hf (by decide)
      · exact h
    · rintro ⟨i, hi, hc⟩
      rw [hi.duration, Database.isFinishedCell_integer]
      exact hc.1
  · intro e he
    have hd := (EntryRow.entry_eq_ok.mp he).duration
    have hrun : e.isRunning = true ↔ e.duration = Entry.runningDuration := beq_iff_eq
    rw [hrun]
    constructor
    · intro h'
      exact hopen (h' ▸ hd)
    · intro h'
      simpa using hd.symm.trans h'.1

def pairing : Contract where
  entry e := e.interval.IsOpen ∨ e.interval.IsClosed
  clock _ := True
  bound _ := True
  total _ := True

def exactPairing : Contract where
  entry e := (e.interval.IsOpen ∨ e.interval.IsClosed) ∧ e.interval.IsWhole ∧ e.interval.IsExact
  clock _ := True
  bound _ := True
  total _ := True

namespace EntryRow

variable {r : EntryRow} {e : Entry}

theorem ofEntry_paired (e : Entry) (h : pairing.entry e) :
    (ofEntry e).IsOpen ∨ (ofEntry e).IsClosed := by
  rcases h with h | h
  · exact .inl (ofEntry_isOpen h)
  · exact .inr ⟨_, ofEntry_showsInterval e, h.wholeSeconds⟩

theorem paired_of_denotes (hr : r.IsOpen ∨ r.IsClosed) (h : r.Denotes e) : pairing.entry e := by
  rcases hr with hr | ⟨i, hi, hc⟩
  · exact .inl ((interval_isOpen h).mpr hr)
  · rw [hi.eq_of_denotes h] at hc
    exact .inr hc

theorem ofEntry_exact (e : Entry) (h : exactPairing.entry e) :
    (ofEntry e).IsWhole ∧ (ofEntry e).IsExact := by
  obtain ⟨h, hw, hx⟩ := h
  refine ⟨ofEntry_isWhole e, ?_⟩
  rcases h with h | h
  · exact .inl (ofEntry_isOpen h)
  · have hs := ofEntry_showsInterval e
    rw [Interval.wholeSeconds_of_isWhole hw] at hs
    exact .inr ⟨_, hs, h, hx⟩

theorem exact_of_denotes (hr : r.IsWhole ∧ r.IsExact) (h : r.Denotes e) : exactPairing.entry e := by
  have hw := interval_isWhole h hr.1
  rcases hr.2 with hr | ⟨i, hi, hc, hx⟩
  · have ho := (interval_isOpen h).mpr hr
    refine ⟨.inl ho, hw, fun stop hstop => ?_⟩
    rw [ho.2] at hstop
    simp at hstop
  · rw [hi.eq_of_denotes h] at hc hx
    exact ⟨.inr hc, hw, hx⟩

end EntryRow

theorem Request.builds_pairing (r : Request) : r.Builds pairing := by
  apply Request.builds_of_interval (P := fun i => i.IsOpen ∨ i.IsClosed)
  · exact fun now => .inl ⟨rfl, rfl⟩
  · exact fun start stop duration hd hadd =>
      .inr ⟨hd, stop, rfl, Instant.le_of_addSeconds? hd hadd⟩
  · exact fun i j _ hj => hj.isPaired

theorem session_keeps_pairing (policy : Policy) (rs : List Request) :
    (session policy rs).Keeps pairing (fun _ => True) none :=
  session_keeps (fun r _ => ⟨r.builds_pairing, fun _ _ => trivial⟩) policy none

theorem session_keeps_exactPairing (policy : Policy) (rs : List Request) :
    (session policy rs).Keeps exactPairing (fun _ => True) none := by
  refine session_keeps (fun r _ => ⟨?_, fun _ _ => trivial⟩) policy none
  apply Request.builds_of_interval
    (P := fun i => (i.IsOpen ∨ i.IsClosed) ∧ i.IsWhole ∧ i.IsExact)
  · intro now
    refine ⟨.inl ⟨rfl, rfl⟩, ⟨now.wholeSecond_isWhole, ?_⟩, ?_⟩ <;> rintro stop ⟨⟩
  · intro start stop duration hd hadd
    refine ⟨.inr ⟨hd, stop, rfl, Instant.le_of_addSeconds? hd hadd⟩,
      ⟨start.wholeSecond_isWhole, ?_⟩, ?_⟩
    · rintro _ ⟨⟩
      exact Instant.isWhole_of_addSeconds? start.wholeSecond_isWhole hadd
    · rintro _ ⟨⟩ - -
      exact hadd
  · exact fun i j hi hj => ⟨hj.isPaired, hj.isWhole hi.2.1, hj.isExact hi.2.1⟩

/-- After any session every entry is open or closed and all tests of its duration agree, if every
entry was open or closed before. If all of them were whole and exact before, they are so after it. -/
theorem session_pairs (policy : Policy) (rs : List Request) (ids : IdSource) :
    (∀ m : Memory, m.entries.Holds (fun e => e.interval.IsOpen ∨ e.interval.IsClosed) →
      ((session policy rs).run ⟨m, ids⟩).2.store.entries.Holds Entry.IsSplit ∧
        (m.entries.Holds (fun e => e.interval.IsWhole ∧ e.interval.IsExact) →
          ((session policy rs).run ⟨m, ids⟩).2.store.entries.Holds
            fun e => e.interval.IsWhole ∧ e.interval.IsExact)) ∧
    ∀ d : Database, d.entries.Holds (fun r => r.IsOpen ∨ r.IsClosed) →
      ((session policy rs).run ⟨d, ids⟩).2.store.entries.Holds EntryRow.IsSplit ∧
        (d.entries.Holds (fun r => r.IsWhole ∧ r.IsExact) →
          ((session policy rs).run ⟨d, ids⟩).2.store.entries.Holds
            fun r => r.IsWhole ∧ r.IsExact) := by
  constructor
  · intro m hm
    constructor
    · have h := Memory.run_holds (session_keeps_pairing policy rs) (fun _ => trivial) ids hm
      exact fun e he => Entry.isSplit_of_or (h e he)
    · intro hexact
      have hm : m.entries.Holds exactPairing.entry := fun e he => ⟨hm e he, hexact e he⟩
      have h := Memory.run_holds (session_keeps_exactPairing policy rs) (fun _ => trivial) ids
        hm
      exact fun e he => (h e he).2
  · intro d hd
    constructor
    · have h := Database.run_holds (session_keeps_pairing policy rs) (fun _ => trivial)
        EntryRow.ofEntry_paired (fun _ _ => EntryRow.paired_of_denotes) ids hd
      exact fun r hr => EntryRow.isSplit_of_or (h r hr)
    · intro hexact
      have h := Database.run_holds (session_keeps_exactPairing policy rs) (fun _ => trivial)
        EntryRow.ofEntry_exact (fun _ _ => EntryRow.exact_of_denotes) ids hexact
      exact h

def timerFrom (start : Instant) : Entry where
  id := ⟨.ofNat 1⟩
  description := ""
  user := ⟨.ofNat 2⟩
  workspace := ⟨.ofNat 3⟩
  project := .absent
  task := .absent
  billable := false
  start := start
  stop := none
  duration := Entry.runningDuration
  createdWith := "test"
  tags := Shelf.empty
  durationOnly := false
  created := start.wholeSecond
  updated := start.wholeSecond

def halfSecond : Instant :=
  { Instant.epoch with nano := 500000000, nano_lt := by decide, leap_ends_minute := by decide }

def thirdSecond : Instant :=
  .ofSecond 3 (by decide)

def stopFirst : Request :=
  .stop "00000000-0000-0000-0000-000000000001" thirdSecond

theorem parse_first :
    Identifier.parse .entry "00000000-0000-0000-0000-000000000001" = .ok ⟨.ofNat 1⟩ := by
  decide +kernel

theorem session_pairs_of_timer :
    ((session {} [stopFirst]).run
      ⟨({ entries := Shelf.empty.put (timerFrom .epoch) } : Memory), .after 1⟩).2.store.entries.Holds
        (fun e => e.IsSplit ∧ e.interval.IsWhole ∧ e.interval.IsExact) ∧
    ((session {} [stopFirst]).run
      ⟨({ entries := Shelf.empty.put (.ofEntry (timerFrom .epoch)) } : Database),
        .after 1⟩).2.store.entries.Holds (fun r => r.IsSplit ∧ r.IsWhole ∧ r.IsExact) := by
  have hopen : (timerFrom .epoch).interval.IsOpen := ⟨rfl, rfl⟩
  have hexact : (timerFrom .epoch).interval.IsWhole ∧ (timerFrom .epoch).interval.IsExact := by decide
  have hrow := EntryRow.ofEntry_isOpen hopen
  obtain ⟨hm, hd⟩ := session_pairs {} [stopFirst] (.after 1)
  constructor
  · obtain ⟨hsplit, h⟩ := hm { entries := Shelf.empty.put (timerFrom .epoch) }
      (Shelf.holds_empty.put (.inl hopen))
    have hexact := h (Shelf.holds_empty.put hexact)
    exact fun e he => ⟨hsplit e he, hexact e he⟩
  · obtain ⟨hsplit, h⟩ := hd { entries := Shelf.empty.put (.ofEntry (timerFrom .epoch)) }
      (Shelf.holds_empty.put (.inl hrow))
    have hexact := h (Shelf.holds_empty.put ⟨EntryRow.ofEntry_isWhole _, .inl hrow⟩)
    exact fun r hr => ⟨hsplit r hr, hexact r hr⟩

/-- A fraction of a second that was stored makes the seconds to a later stop inexact. -/
theorem session_not_always_exact :
    ¬∀ (m : Memory) (policy : Policy) (rs : List Request) (ids : IdSource),
      m.entries.Holds (fun e => e.interval.IsOpen ∨ e.interval.IsClosed ∧ e.interval.IsExact) →
        ((session policy rs).run ⟨m, ids⟩).2.store.entries.Holds
          fun e => e.interval.IsOpen ∨ e.interval.IsClosed ∧ e.interval.IsExact := by
  intro h
  have hstored := h { entries := Shelf.empty.put (timerFrom halfSecond) } {} [stopFirst] (.after 1)
    (by decide +kernel)
  revert hstored
  decide +kernel

end Timesheet
