import Timesheet.Proofs.Codec
import Timesheet.Proofs.Holding
import Timesheet.Proofs.Stamp

namespace Timesheet

def Entry.HasPlainInstants (e : Entry) : Prop :=
  ∀ i ∈ e.instants, i.IsPlain

namespace Entry.HasPlainInstants

variable {e : Entry}

theorem start (h : e.HasPlainInstants) : e.start.IsPlain :=
  h _ (Entry.mem_instants.mpr (.inl rfl))

theorem created (h : e.HasPlainInstants) : e.created.IsPlain :=
  h _ (Entry.mem_instants.mpr (.inr (.inl rfl)))

theorem updated (h : e.HasPlainInstants) : e.updated.IsPlain :=
  h _ (Entry.mem_instants.mpr (.inr (.inr (.inl rfl))))

theorem stop (h : e.HasPlainInstants) {i : Instant} (hi : e.stop = some i) : i.IsPlain :=
  h i (Entry.mem_instants.mpr (.inr (.inr (.inr hi))))

theorem wholeSeconds (h : e.HasPlainInstants) : e.wholeSeconds = e := by
  have hstop : e.stop.map Instant.wholeSecond = e.stop := by
    cases hs : e.stop with
    | none => rfl
    | some i => exact congrArg some (Instant.wholeSecond_of_isWhole (h.stop hs).1)
  unfold Entry.wholeSeconds
  rw [hstop, Instant.wholeSecond_of_isWhole h.start.1, Instant.wholeSecond_of_isWhole h.created.1,
    Instant.wholeSecond_of_isWhole h.updated.1]

theorem entry_ofEntry (h : e.HasPlainInstants) : (EntryRow.ofEntry e).entry = .ok e :=
  EntryRow.entry_eq_ok.mpr
    (EntryRow.ofEntry_denotes.mpr ⟨fun i hi => (h i hi).2, h.wholeSeconds⟩)

end Entry.HasPlainInstants

theorem Database.readRows_map_ofEntry {s : List Entry} (h : ∀ e ∈ s, e.HasPlainInstants) :
    readRows (s.map EntryRow.ofEntry) = .ok s := by
  rw [readRows_eq_ok, List.map_map]
  exact List.map_congr_left fun e he => (h e he).entry_ofEntry

section Pages

theorem drop_clampCount {α : Type} {s : List α} (h : s.length ≤ Word.largestCount) (n : Nat) :
    s.drop (Database.clampCount n) = s.drop n := by
  unfold Database.clampCount
  by_cases hn : n ≤ Word.largestCount
  · rw [Nat.min_eq_left hn]
  · rw [List.drop_eq_nil_of_le, List.drop_eq_nil_of_le]
    · omega
    · omega

theorem take_clampCount {α : Type} {s : List α} (h : s.length ≤ Word.largestCount) (n : Nat) :
    s.take (Database.clampCount n) = s.take n := by
  unfold Database.clampCount
  by_cases hn : n ≤ Word.largestCount
  · rw [Nat.min_eq_left hn]
  · rw [List.take_of_length_le, List.take_of_length_le]
    · omega
    · omega

variable {s : List Entry}

theorem readRows_take (hs : ∀ e ∈ s, e.HasPlainInstants) (hlength : s.length ≤ Word.largestCount)
    (n : Nat) :
    Database.readRows ((s.map EntryRow.ofEntry).take (Database.clampCount n)) = .ok (s.take n) := by
  rw [← List.map_take, take_clampCount hlength]
  exact Database.readRows_map_ofEntry fun e he => hs e (List.mem_of_mem_take he)

theorem readRows_selectPage (hs : ∀ e ∈ s, e.HasPlainInstants)
    (hlength : s.length ≤ Word.largestCount) (page : Page) :
    Database.readRows (Database.selectPage page (s.map EntryRow.ofEntry)) = .ok (page.select s) := by
  unfold Database.selectPage Page.select
  rw [← List.map_drop, drop_clampCount hlength]
  apply readRows_take
  · exact fun e he => hs e (List.mem_of_mem_drop he)
  · rw [List.length_drop]
    omega

end Pages

section Orders

theorem noLonger_ofEntry (a b : Entry) :
    Database.noLonger (.ofEntry a) (.ofEntry b) = Memory.noLonger a b := by
  unfold Database.noLonger Memory.noLonger
  simp [EntryRow.ofEntry, NumberCell.atMost, NumberCell.ratio]

theorem noEarlier_ofEntry {a b : Entry} (ha : a.HasPlainInstants) (hb : b.HasPlainInstants) :
    Database.noEarlier (.ofEntry a) (.ofEntry b) = Memory.noEarlier a b := by
  have h := (Instant.upTo_stamp hb.start.2.2 ha.start).1
  rwa [Instant.wholeSecond_of_isWhole hb.start.1] at h

end Orders

section Bounds

variable {first last i : Instant} {e : Entry}

theorem between_stamp (hfirst : first.second ≤ Instant.lastStorable)
    (hlast : last.second ≤ Instant.lastStorable) (hi : i.IsPlain) :
    (Text.upTo first.stamp i.stamp && Text.upTo i.stamp last.stamp) =
      decide (first.wholeSecond ≤ i ∧ i ≤ last) := by
  rw [(Instant.upTo_stamp hfirst hi).1, (Instant.upTo_stamp hlast hi).2, Bool.decide_and]

theorem stoppedIn_ofEntry (hfirst : first.second ≤ Instant.lastStorable)
    (hlast : last.second ≤ Instant.lastStorable) (he : e.HasPlainInstants) :
    Database.stoppedIn first last (.ofEntry e) = Memory.stoppedIn first.wholeSecond last e := by
  unfold Database.stoppedIn Memory.stoppedIn EntryRow.ofEntry
  cases hs : e.stop with
  | none => rfl
  | some stop =>
    rw [Option.map_some, Option.any_some, Option.any_some]
    exact between_stamp hfirst hlast (he.stop hs)

theorem not_stoppedIn_of_late (hlast : Instant.lastStorable < last.second)
    (he : e.HasPlainInstants) : Database.stoppedIn first last (.ofEntry e) = false := by
  unfold Database.stoppedIn EntryRow.ofEntry
  cases hs : e.stop with
  | none => rfl
  | some stop =>
    rw [Option.map_some, Option.any_some, Instant.not_upTo_stamp_of_late hlast (he.stop hs).2,
      Bool.and_false]

end Bounds

theorem Database.ofUser_of_isImage {d : Database} {m : Memory}
    (h : Shelf.IsImage EntryRow.ofEntry m.entries d.entries) (user : UserId) :
    d.ofUser user = (m.ofUser user).map EntryRow.ofEntry := by
  unfold Database.ofUser Memory.ofUser
  rw [h, List.filter_map]
  congr 2
  funext e
  exact decide_eq_decide.mpr Identifier.text_inj

/-- The entries of a database are the rows of those of a memory, which lose nothing as rows. -/
structure Database.Copies (d : Database) (m : Memory) : Prop where
  entries : Shelf.IsImage EntryRow.ofEntry m.entries d.entries
  plain : m.entries.Holds Entry.HasPlainInstants

namespace Database.Copies

variable {d : Database} {m : Memory} {first last : Instant}

theorem filter_ofUser (h : d.Copies m) (user : UserId) {p : EntryRow → Bool} {q : Entry → Bool}
    (hpq : ∀ e : Entry, e.HasPlainInstants → p (.ofEntry e) = q e) :
    (d.ofUser user).filter p = ((m.ofUser user).filter q).map EntryRow.ofEntry := by
  rw [ofUser_of_isImage h.entries, List.filter_map]
  congr 1
  apply List.filter_congr
  intro e he
  exact hpq e (h.plain e (List.mem_filter.mp he).1)

theorem plain_of_mem_filter (h : d.Copies m) {user : UserId} {q : Entry → Bool} :
    ∀ e ∈ (m.ofUser user).filter q, e.HasPlainInstants :=
  fun e he => h.plain e (List.mem_filter.mp (List.mem_filter.mp he).1).1

theorem length_filter_le (hlength : m.entries.items.length ≤ Word.largestCount) {user : UserId}
    {q : Entry → Bool} : ((m.ofUser user).filter q).length ≤ Word.largestCount :=
  ((List.length_filter_le _ _).trans (List.length_filter_le _ _)).trans hlength

theorem running (h : d.Copies m) (hlength : m.entries.items.length ≤ Word.largestCount)
    (user : UserId) (page : Page) : d.running user page = m.running user page := by
  unfold Database.running Memory.running
  rw [h.filter_ofUser user fun e _ => isRunningRow_ofEntry e]
  exact readRows_selectPage h.plain_of_mem_filter (length_filter_le hlength) page

theorem createdBetween (h : d.Copies m) (hlength : m.entries.items.length ≤ Word.largestCount)
    (user : UserId) (page : Page) (hfirst : first.second ≤ Instant.lastStorable)
    (hlast : last.second ≤ Instant.lastStorable) :
    d.createdBetween user page first last = m.createdBetween user page first.wholeSecond last := by
  have hfilter := h.filter_ofUser user
    (p := fun r => Text.upTo first.stamp r.created && Text.upTo r.created last.stamp)
    (q := fun e => first.wholeSecond ≤ e.created ∧ e.created ≤ last)
    fun e he => between_stamp hfirst hlast he.created
  unfold Database.createdBetween Memory.createdBetween
  rw [hfilter]
  exact readRows_selectPage h.plain_of_mem_filter (length_filter_le hlength) page

theorem readRows_sorted (h : d.Copies m) (hlength : m.entries.items.length ≤ Word.largestCount)
    (user : UserId) {q : Entry → Bool} {r : EntryRow → EntryRow → Bool} {r' : Entry → Entry → Bool}
    (hr : ∀ a b : Entry, a.HasPlainInstants → b.HasPlainInstants →
      r (.ofEntry a) (.ofEntry b) = r' a b)
    (limit : Nat) :
    readRows (((((m.ofUser user).filter q).map EntryRow.ofEntry).mergeSort r).take
      (clampCount limit)) = .ok ((((m.ofUser user).filter q).mergeSort r').take limit) := by
  have hplain : ∀ e ∈ (m.ofUser user).filter q, e.HasPlainInstants := h.plain_of_mem_filter
  rw [← List.map_mergeSort fun a ha b hb => (hr a b (hplain a ha) (hplain b hb)).symm]
  apply readRows_take
  · exact fun e he => hplain e (List.mem_mergeSort.mp he)
  · rw [List.length_mergeSort]
    exact length_filter_le hlength

theorem stoppedBetween (h : d.Copies m) (hlength : m.entries.items.length ≤ Word.largestCount)
    (user : UserId) (limit : Nat) (hfirst : first.second ≤ Instant.lastStorable)
    (hlast : last.second ≤ Instant.lastStorable) :
    d.stoppedBetween user first last limit =
      m.stoppedBetween user first.wholeSecond last limit := by
  unfold Database.stoppedBetween Memory.stoppedBetween
  rw [h.filter_ofUser user fun e he => stoppedIn_ofEntry hfirst hlast he]
  exact h.readRows_sorted hlength user (fun a b _ _ => noLonger_ofEntry a b) limit

theorem stoppedBetween_of_late (h : d.Copies m) (user : UserId) (limit : Nat)
    (hlast : Instant.lastStorable < last.second) :
    d.stoppedBetween user first last limit = .ok [] := by
  unfold Database.stoppedBetween
  rw [h.filter_ofUser user fun e he => not_stoppedIn_of_late hlast he, List.filter_false,
    List.map_nil, List.mergeSort_nil, List.take_nil]
  rfl

theorem recent (h : d.Copies m) (hlength : m.entries.items.length ≤ Word.largestCount)
    (user : UserId) (limit : Nat) : d.recent user limit = m.recent user limit := by
  have hall := h.filter_ofUser user (p := fun _ => true) (q := fun _ => true) fun _ _ => rfl
  have hsorted := h.readRows_sorted hlength user (q := fun _ => true)
    (fun a b => noEarlier_ofEntry) limit
  rw [← hall, List.filter_true, List.filter_true] at hsorted
  exact hsorted

end Database.Copies

end Timesheet
