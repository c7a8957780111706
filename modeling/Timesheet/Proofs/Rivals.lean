import Mathlib.Data.Fintype.Card
import Timesheet.Proofs.Sharing

/-!
Timers that clients start beside each other. A client looks for a running entry with one call and
inserts a new one with another, so that two clients can both find none. Main statement: where a
second timer is refused, an owner has at most as many running entries as there are clients.
-/

namespace Timesheet

variable {σ κ ρ : Type} [KeyOrder κ] [DecidableEq κ] {key : ρ → κ}

/-- A table whose records tell whether they run. `Sound` holds of records from which a timer that
runs can be told, and `Copied` of the entries that are read from such records. -/
structure TimerTable (σ : Type) [Store σ] (key : ρ → κ) extends OwnedTable σ key where
  clock : Instant → Prop
  runs : ρ → Bool
  Sound : ρ → Prop
  Copied : Entry → Prop
  runs_write (e : Entry) : runs (write e) = e.isRunning
  runs_of_reads {r : ρ} {e : Entry} (h : Reads r e) : runs r = e.isRunning
  timed_of_copied {e : Entry} (h : Copied e) : e.IsTimed
  copied_of_reads {r : ρ} {e : Entry} (hr : Sound r) (h : Reads r e) : Copied e
  sound_of_new {e : Entry} (h : e.IsTimed) (hclock : e.isRunning = true → ∀ i ∈ e.instants, clock i) :
    Sound (write e)
  sound_of_follows {e e₀ : Entry} (h₀ : Copied e₀) (h : e.Follows e₀) (hclock : clock e.updated) :
    Sound (write e)
  idle_of_running {s : σ} {user : UserId} (hs : (entries s).Holds Sound)
    (h : Store.running s user Page.single = .ok []) :
    ∀ r ∈ (entries s).items, owner r = .ok user → ¬runs r = true

def Memory.timerTable : TimerTable Memory Entry.id where
  toOwnedTable := Memory.ownedTable
  clock _ := True
  runs := Entry.isRunning
  Sound := Entry.IsTimed
  Copied := Entry.IsTimed
  runs_write _ := rfl
  runs_of_reads h := congrArg Entry.isRunning h
  timed_of_copied h := h
  copied_of_reads hr h := Eq.subst h hr
  sound_of_new h _ := h
  sound_of_follows h₀ h _ := h.timed h₀
  idle_of_running _ h e he howner := idle_of_running h e he (Except.ok.inj howner)

def Database.timerTable : TimerTable Database EntryRow.key where
  toOwnedTable := Database.ownedTable
  clock := Instant.IsStorable
  runs := isRunningRow
  Sound := EntryRow.IsTimed
  Copied e := e.IsTimed ∧ (e.isRunning = true → e.IsLasting)
  runs_write := isRunningRow_ofEntry
  runs_of_reads h := Bool.eq_iff_iff.mpr (EntryRow.isRunningRow_iff (EntryRow.entry_eq_ok.mpr h))
  timed_of_copied h := h.1
  copied_of_reads hr h := by
    have he := EntryRow.entry_eq_ok.mpr h
    refine ⟨hr.timed _ he, fun hrun => ?_⟩
    obtain ⟨e, he', -, hlasting⟩ := hr.running ((EntryRow.isRunningRow_iff he).mpr hrun)
    obtain ⟨⟩ := he.symm.trans he'
    exact hlasting
  sound_of_new h hclock := by
    refine EntryRow.ofEntry_isTimed h fun hrun => ?_
    have hall := hclock hrun
    refine ⟨⟨hall _ ?_, hall _ ?_, fun stop hstop => hall _ ?_⟩, hall _ ?_⟩
    all_goals rw [Entry.mem_instants]
    · exact .inl rfl
    · exact .inr (.inl rfl)
    · exact .inr (.inr (.inr hstop))
    · exact .inr (.inr (.inl rfl))
  sound_of_follows h₀ h hclock :=
    EntryRow.ofEntry_isTimed (h.timed h₀.1) fun hrun =>
      ⟨h.lasting (h₀.2 (h.running h₀.1 hrun)), hclock⟩
  idle_of_running hs h := idle_of_running hs h

namespace TimerTable

variable {ι : Type} [Store σ] (T : TimerTable σ key)

def rules : Rules :=
  ⟨T.clock, true⟩

structure IsSound (s : σ) (w : ι → Hand) : Prop where
  stored : (T.entries s).Holds T.Sound
  copied {i : ι} {e : Entry} : (w i).finding = .copy e → T.Copied e

/-- A place for every running entry of an owner, and one for every client that may start another. -/
structure Covers (user : UserId) (F : Finset (κ ⊕ ι)) (s : σ) (w : ι → Hand) : Prop where
  stored {j : κ} {r : ρ} : (T.entries s).find? j = some r → T.owner r = .ok user →
    T.runs r = true → .inl j ∈ F
  copied {i : ι} {e : Entry} : (w i).finding = .copy e → e.user = user → e.isRunning = true →
    .inl (T.name e.id) ∈ F
  idle {i : ι} : (w i).finding = .idle user → .inr i ∈ F

variable {T} {user : UserId} {F : Finset (κ ⊕ ι)} {s t : σ} {w v : ι → Hand} {e : Event}

theorem Covers.length_le [DecidableEq ι] (h : T.Covers user F s w) :
    ((T.entries s).items.filter fun r => T.owner r = .ok user ∧ T.runs r = true).length ≤
      F.card := by
  let timers := (T.entries s).items.filter fun r => T.owner r = .ok user ∧ T.runs r = true
  have hnodup : (timers.map fun r => (.inl (key r) : κ ⊕ ι)).Nodup := by
    have hkeys : (timers.map key).Nodup :=
      (T.entries s).nodup_keys.sublist (List.filter_sublist.map key)
    have hmap := hkeys.map (f := fun j => (.inl j : κ ⊕ ι)) Sum.inl_injective
    rwa [List.map_map] at hmap
  have hsub : (timers.map fun r => (.inl (key r) : κ ⊕ ι)).toFinset ⊆ F := by
    intro x hx
    obtain ⟨r, hr, rfl⟩ := List.mem_map.mp (List.mem_toFinset.mp hx)
    obtain ⟨hmem, hboth⟩ := List.mem_filter.mp hr
    obtain ⟨howner, hruns⟩ := of_decide_eq_true hboth
    exact h.stored (Shelf.find?_eq_some.mpr ⟨hmem, rfl⟩) howner hruns
  calc timers.length
    _ = (timers.map fun r => (.inl (key r) : κ ⊕ ι)).length := (List.length_map _).symm
    _ = (timers.map fun r => (.inl (key r) : κ ⊕ ι)).toFinset.card :=
      (List.toFinset_card_of_nodup hnodup).symm
    _ ≤ F.card := Finset.card_le_card hsub

theorem exists_covers (T : TimerTable σ key) (user : UserId)
    (h : (T.entries s).OnePer T.owner fun r => T.runs r = true) :
    ∃ F : Finset (κ ⊕ ι), F.card ≤ 1 ∧ T.Covers user F s fun _ => {} := by
  by_cases hrun : ∃ r ∈ (T.entries s).items, T.owner r = .ok user ∧ T.runs r = true
  · obtain ⟨r₀, hmem₀, howner₀, hruns₀⟩ := hrun
    refine ⟨{.inl (key r₀)}, (Finset.card_singleton _).le, fun hr howner hruns => ?_,
      fun hcopy => ?_, fun hidle => ?_⟩
    · obtain ⟨hmem, rfl⟩ := Shelf.find?_eq_some.mp hr
      rw [h _ hmem _ hmem₀ hruns hruns₀ (howner.trans howner₀.symm)]
      exact Finset.mem_singleton_self _
    · cases hcopy
    · cases hidle
  · refine ⟨∅, Nat.zero_le 1, fun hr howner hruns => ?_, fun hcopy => ?_, fun hidle => ?_⟩
    · exact absurd ⟨_, (Shelf.find?_eq_some.mp hr).1, howner, hruns⟩ hrun
    · cases hcopy
    · cases hidle

theorem exists_covers_of_idle [Fintype ι] [DecidableEq ι] (T : TimerTable σ key) (w : ι → Hand)
    (h : ∀ r ∈ (T.entries s).items, T.owner r = .ok user → ¬T.runs r = true) :
    ∃ F : Finset (κ ⊕ ι), F.card ≤ Fintype.card ι ∧ T.Covers user F s w := by
  let place (i : ι) : κ ⊕ ι :=
    match (w i).finding with
    | .copy e => .inl (T.name e.id)
    | _ => .inr i
  have hplace {i : ι} {x : κ ⊕ ι} (hx : place i = x) : x ∈ Finset.univ.image place :=
    hx ▸ Finset.mem_image_of_mem place (Finset.mem_univ i)
  refine ⟨Finset.univ.image place, Finset.card_image_le, fun hr howner hruns => ?_,
    fun {i e} hcopy _ _ => hplace (i := i) ?_, fun {i} hidle => hplace (i := i) ?_⟩
  · exact absurd hruns (h _ (Shelf.find?_eq_some.mp hr).1 howner)
  · simp only [place, hcopy]
  · simp only [place, hidle]

theorem Covers.stored_called (hF : T.Covers user F s w) (hs : T.IsSound s w)
    {i : ι} {c : Call} (hc : (w i).Allows T.rules c) {j : κ} {r : ρ}
    (hr : (T.entries (c.perform s).2).find? j = some r) (howner : T.owner r = .ok user)
    (hruns : T.runs r = true) :
    .inl j ∈ F ∨ ∃ e, c = .insert e ∧ T.name e.id = j ∧ e.isRunning = true ∧ e.user = user := by
  rcases (T.changes s c).found hr with hr | ⟨e, hname, rfl, he⟩
  · exact .inl (hF.stored hr howner hruns)
  · rw [T.owner_write] at howner
    rw [T.runs_write] at hruns
    have huser := Except.ok.inj howner
    rcases he with rfl | ⟨rfl, -⟩
    · exact .inr ⟨e, rfl, hname, hruns, huser⟩
    · obtain ⟨e₀, hcopy, hid, hfollows, -⟩ := hc
      have hrun₀ := hfollows.running (T.timed_of_copied (hs.copied hcopy)) hruns
      rw [← hname, hid]
      exact .inl (hF.copied hcopy (hfollows.user.symm.trans huser) hrun₀)

variable [DecidableEq ι]

theorem IsSound.move (hs : T.IsSound s w) (h : Move T.rules s w e t v) : T.IsSound t v := by
  cases h with
  | passed => exact hs
  | drew i id =>
    refine ⟨hs.stored, fun {j e} hcopy => ?_⟩
    rw [Function.update_apply] at hcopy
    split at hcopy
    · exact hs.copied hcopy
    · exact hs.copied hcopy
  | called i c hc =>
    constructor
    · intro r hr
      rcases (T.changes s c).found (Shelf.find?_eq_some.mpr ⟨hr, rfl⟩) with
        hr | ⟨e, -, rfl, rfl | ⟨rfl, -⟩⟩
      · exact hs.stored.of_find? hr
      · exact T.sound_of_new hc.timed hc.clock
      · obtain ⟨e₀, hcopy, -, hfollows, hclock⟩ := hc
        exact T.sound_of_follows (hs.copied hcopy) hfollows hclock
    · intro j e hcopy
      rw [Function.update_apply] at hcopy
      split at hcopy
      · obtain ⟨id, hfetch⟩ := Call.fetch_of_finds hcopy
        obtain ⟨r, hr, hreads⟩ := T.reads_of_fetch hfetch
        exact T.copied_of_reads (hs.stored.of_find? hr) hreads
      · exact hs.copied hcopy

section Called

variable {i : ι} {c : Call}

theorem Covers.copied_called (hF : T.Covers user F s w) {j : ι} {e : Entry}
    (hcopy : (Function.update w i (T.rules.discipline.heard (w i) c (c.perform s).1) j).finding =
      .copy e) (huser : e.user = user) (hrun : e.isRunning = true) :
    .inl (T.name e.id) ∈ F := by
  rw [Function.update_apply] at hcopy
  split at hcopy
  · obtain ⟨id, hfetch⟩ := Call.fetch_of_finds hcopy
    obtain ⟨r, hr, hreads⟩ := T.reads_of_fetch hfetch
    rw [T.id_of_fetch hfetch]
    apply hF.stored hr
    · rw [T.owner_of_reads hreads, huser]
    · rw [T.runs_of_reads hreads, hrun]
  · exact hF.copied hcopy huser hrun

theorem Covers.idle_called (hF : T.Covers user F s w) {j : ι}
    (hidle : (Function.update w i (T.rules.discipline.heard (w i) c (c.perform s).1) j).finding =
      .idle user) :
    j ≠ i ∧ .inr j ∈ F ∨ c.finds (c.perform s).1 = .idle user := by
  rw [Function.update_apply] at hidle
  split at hidle
  · exact .inr hidle
  · exact .inl ⟨‹_›, hF.idle hidle⟩

end Called

theorem Covers.move [Fintype ι] (hF : T.Covers user F s w) (hcard : F.card ≤ Fintype.card ι)
    (hs : T.IsSound s w) (h : Move T.rules s w e t v) :
    ∃ F : Finset (κ ⊕ ι), F.card ≤ Fintype.card ι ∧ T.Covers user F t v := by
  -- A client that starts a timer gives up its place for it, so that there are never more places
  -- than clients.
  cases h with
  | passed => exact ⟨F, hcard, hF⟩
  | drew i id =>
    have hsame (j : ι) : (Function.update w i (T.rules.discipline.drew (w i) id) j).finding =
        (w j).finding := by
      rw [Function.update_apply]
      split
      · rw [‹j = i›]
        rfl
      · rfl
    exact ⟨F, hcard, hF.stored, fun hcopy => hF.copied ((hsame _).symm.trans hcopy),
      fun hidle => hF.idle ((hsame _).symm.trans hidle)⟩
  | called i c hc =>
    by_cases hfinds : c.finds (c.perform s).1 = .idle user
    -- The owner is idle, so that the places can be dealt out anew.
    · obtain ⟨hrunning, hsame⟩ := Call.running_of_finds hfinds
      rw [hsame]
      exact exists_covers_of_idle T _ (T.idle_of_running hs.stored hrunning)
    by_cases hstart : ∃ e, c = .insert e ∧ e.isRunning = true ∧ e.user = user
    -- The new timer takes the place of the client that found the owner idle.
    · obtain ⟨e, rfl, hrun, rfl⟩ := hstart
      have hi : .inr i ∈ F := hF.idle (hc.idle hrun rfl)
      have hkeep {x : κ ⊕ ι} (hx : x ∈ F) (hne : x ≠ .inr i) :
          x ∈ insert (.inl (T.name e.id)) (F.erase (.inr i)) :=
        Finset.mem_insert_of_mem (Finset.mem_erase_of_ne_of_mem hne hx)
      refine ⟨insert (.inl (T.name e.id)) (F.erase (.inr i)), ?_, fun hr howner hruns => ?_,
        fun hcopy huser hrun => ?_, fun hidle => ?_⟩
      · calc (insert (.inl (T.name e.id)) (F.erase (.inr i))).card
          _ ≤ (F.erase (.inr i)).card + 1 := Finset.card_insert_le _ _
          _ = F.card := Finset.card_erase_add_one hi
          _ ≤ Fintype.card ι := hcard
      · rcases hF.stored_called hs hc hr howner hruns with hj | ⟨e', he', rfl, -⟩
        · exact hkeep hj (by simp)
        · obtain ⟨⟩ := he'
          exact Finset.mem_insert_self _ _
      · exact hkeep (hF.copied_called hcopy huser hrun) (by simp)
      · rcases hF.idle_called hidle with ⟨hne, hj⟩ | hj
        · exact hkeep hj (by simp [hne])
        · exact absurd hj hfinds
    · refine ⟨F, hcard, fun hr howner hruns => ?_, hF.copied_called, fun hidle => ?_⟩
      · rcases hF.stored_called hs hc hr howner hruns with hj | ⟨e, rfl, -, hrun, huser⟩
        · exact hj
        · exact absurd ⟨e, rfl, hrun, huser⟩ hstart
      · rcases hF.idle_called hidle with ⟨-, hj⟩ | hj
        · exact hj
        · exact absurd hj hfinds

theorem length_le_after [Fintype ι] [Nonempty ι] (T : TimerTable σ key) {s : Clients ι σ}
    (hheld : s.Held T.rules fun _ => {}) (hsound : (T.entries s.store).Holds T.Sound)
    (hsingle : (T.entries s.store).OnePer T.owner fun r => T.runs r = true) (schedule : List ι)
    (user : UserId) :
    ((T.entries (s.after schedule).store).items.filter fun r =>
      T.owner r = .ok user ∧ T.runs r = true).length ≤ Fintype.card ι := by
  obtain ⟨v, hmoves, -⟩ := hheld.after schedule
  obtain ⟨F, hcard, hF⟩ := T.exists_covers (ι := ι) user hsingle
  obtain ⟨-, F', hcard', hF'⟩ := hmoves.keep
    (P := fun s w _ => T.IsSound s w ∧ ∃ F : Finset (κ ⊕ ι), F.card ≤ Fintype.card ι ∧
      T.Covers user F s w)
    (fun hmove ⟨hs, F, hcard, hF⟩ => ⟨hs.move hmove, hF.move hcard hs hmove⟩) []
    ⟨⟨hsound, fun hcopy => by cases hcopy⟩, F, hcard.trans Fintype.card_pos, hF⟩
  exact hF'.length_le.trans hcard'

end TimerTable

def Memory.timers (m : Memory) (user : UserId) : List Entry :=
  m.entries.items.filter fun e => e.user = user ∧ e.isRunning = true

def Database.timers (d : Database) (user : UserId) : List EntryRow :=
  d.entries.items.filter fun r => r.owner = .ok user ∧ isRunningRow r = true

/-- Where all clients refuse a second timer, an owner has at no time more running entries than there
are clients, if it had one at most to begin with. -/
theorem clients_time {ι : Type} [DecidableEq ι] [Fintype ι] [Nonempty ι] (policy : ι → Policy)
    (hpolicy : ∀ i, (policy i).singleRunningTimer = true) (requests : ι → List Request)
    (ids : ι → IdSource) (schedule : List ι) (user : UserId) :
    (∀ m : Memory, Memory.SingleTimers m.entries →
      (((Clients.of m policy requests ids).after schedule).store.timers user).length ≤
        Fintype.card ι) ∧
    ∀ d : Database, (∀ i, ∀ r ∈ requests i, ∀ now ∈ r.clock?, now.IsStorable) →
      Database.SingleTimers d.entries →
        (((Clients.of d policy requests ids).after schedule).store.timers user).length ≤
          Fintype.card ι := by
  constructor
  · intro m hm
    have hheld : (Clients.of m policy requests ids).Held Memory.timerTable.rules fun _ => {} :=
      Clients.held_of_sessions (fun i _ => hpolicy i) (fun _ _ _ _ _ => trivial) m
    have hsingle : m.entries.OnePer Memory.timerTable.owner fun e => e.isRunning = true :=
      fun a ha b hb hra hrb howner => hm.single a ha b hb hra hrb (Except.ok.inj howner)
    have h := Memory.timerTable.length_le_after hheld hm.timed hsingle schedule user
    refine le_of_eq_of_le (congrArg List.length (List.filter_congr fun e _ => ?_)) h
    exact decide_eq_decide.mpr (and_congr_left' (Except.ok.injEq _ _ ▸ Iff.rfl))
  · intro d hclock hd
    have hheld : (Clients.of d policy requests ids).Held Database.timerTable.rules fun _ => {} :=
      Clients.held_of_sessions (fun i _ => hpolicy i)
        (fun i r hr now hnow => Instant.wholeSecond_isStorable.mpr (hclock i r hr now hnow)) d
    exact Database.timerTable.length_le_after hheld hd.timed hd.single schedule user

def startSame : Bool → List Request :=
  fun _ => [startTimer "00000000-0000-0000-0000-000000000002"]

theorem clients_time_two :
    (let s : Clients Bool Memory := .of {} (fun _ => oneTimer) startSame drawApart
    ((s.after [false, true, false, false, true, true]).store.timers ⟨.ofNat 2⟩).length ≤
        Fintype.card Bool ∧
      ((s.after [false, true, false, false, true, true]).store.timers ⟨.ofNat 2⟩).length = 2) ∧
    let s : Clients Bool Database := .of {} (fun _ => oneTimer) startSame drawApart
    ((s.after [false, true, false, false, true, true]).store.timers ⟨.ofNat 2⟩).length ≤
        Fintype.card Bool ∧
      ((s.after [false, true, false, false, true, true]).store.timers ⟨.ofNat 2⟩).length = 2 := by
  obtain ⟨hm, hd⟩ := clients_time (fun _ => oneTimer) (fun _ => rfl) startSame drawApart
    [false, true, false, false, true, true] ⟨.ofNat 2⟩
  constructor
  · exact ⟨hm {} ⟨Shelf.holds_empty, fun e he => by cases he⟩, by decide +kernel⟩
  · exact ⟨hd {} (by decide +kernel) ⟨Shelf.holds_empty, fun r hr => by cases hr⟩,
      by decide +kernel⟩

end Timesheet
