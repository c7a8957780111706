import Timesheet.Proofs.Pairing

/-!
Entries created in a range, from a store that holds them as they are. Bounds outside the storable
years are moved to instants that an entry may have been created at. Main statement: the entries listed
are those created between the bounds, except at three instants at the ends of the storable years.
-/

namespace Timesheet

open Service

namespace Instant

def firstPlain : Instant :=
  ofSecond firstStorable (by decide)

def lastPlain : Instant :=
  ofSecond lastStorable (by decide)

def lastLeap : Instant :=
  ofLeap lastStorable (by decide) (by decide)

/-- An instant that moving the bounds brings into a range that lies before the storable years or after
them, or takes out of one that ends after them. -/
def Slips (first last i : Instant) : Prop :=
  (last.second < firstStorable ∧ i = firstPlain) ∨ (lastStorable < first.second ∧ i = lastPlain) ∨
    (first ≤ i ∧ lastStorable < last.second ∧ i = lastLeap)

variable {first last i : Instant}

theorem le_of_second_lt (h : first.second < last.second) : first ≤ last :=
  le_def.mpr (.inl h)

theorem not_le_of_second_lt (h : last.second < first.second) : ¬first ≤ last := by
  rw [le_def]
  omega

theorem firstPlain_le (hi : i.IsPlain) : firstPlain ≤ i := by
  have hlow : firstStorable ≤ i.second := hi.2.1
  simp only [le_def, firstPlain, ofSecond]
  omega

theorem le_firstPlain (hi : i.IsPlain) : i ≤ firstPlain ↔ i = firstPlain := by
  have hlow : firstStorable ≤ i.second := hi.2.1
  simp only [le_def, ext_iff, firstPlain, ofSecond]
  omega

theorem lastPlain_le (hi : i.IsPlain) : lastPlain ≤ i ↔ i = lastPlain ∨ i = lastLeap := by
  have hhigh : i.second ≤ lastStorable := hi.2.2
  have hwhole : i.nano = 0 ∨ i.nano = nanosPerSecond := hi.1
  simp only [le_def, ext_iff, lastPlain, lastLeap, ofSecond, ofLeap]
  omega

theorem le_lastPlain (hi : i.IsPlain) : i ≤ lastPlain ↔ i ≠ lastLeap := by
  have hhigh : i.second ≤ lastStorable := hi.2.2
  have hwhole : i.nano = 0 ∨ i.nano = nanosPerSecond := hi.1
  have hpos : 0 < nanosPerSecond := by decide
  simp only [le_def, ne_eq, ext_iff, lastPlain, lastLeap, ofSecond, ofLeap]
  omega

theorem clampStorable_of_early (h : i.second < firstStorable) : i.clampStorable = firstPlain :=
  if_pos h

theorem clampStorable_of_late (h : lastStorable < i.second) : i.clampStorable = lastPlain := by
  have hnot : ¬i.second < firstStorable := by
    have : firstStorable < lastStorable := by decide
    omega
  rw [clampStorable, if_neg hnot, if_pos h]
  rfl

theorem clampStorable_of_isStorable (h : i.IsStorable) : i.clampStorable = i := by
  rw [clampStorable, if_neg (Int.not_lt.mpr h.1), if_neg (Int.not_lt.mpr h.2)]

theorem clampStorable_le (hi : i.IsPlain) (hfirst : first.second ≤ lastStorable) :
    first.clampStorable ≤ i ↔ first ≤ i := by
  by_cases hearly : first.second < firstStorable
  · rw [clampStorable_of_early hearly]
    exact iff_of_true (firstPlain_le hi) (le_of_second_lt (lt_of_lt_of_le hearly hi.2.1))
  · rw [clampStorable_of_isStorable ⟨Int.not_lt.mp hearly, hfirst⟩]

theorem le_clampStorable (hi : i.IsPlain) (hlast : firstStorable ≤ last.second) :
    i ≤ last.clampStorable ↔ i ≤ last ∧ ¬(lastStorable < last.second ∧ i = lastLeap) := by
  by_cases hlate : lastStorable < last.second
  · have hle : i ≤ last := le_of_second_lt (lt_of_le_of_lt hi.2.2 hlate)
    rw [clampStorable_of_late hlate, le_lastPlain hi]
    simp [hle, hlate]
  · rw [clampStorable_of_isStorable ⟨hlast, Int.not_lt.mp hlate⟩]
    simp [hlate]

theorem clampStorable_between (hi : i.IsPlain) (hle : first ≤ last) :
    first.clampStorable ≤ i ∧ i ≤ last.clampStorable ↔
      Xor (first ≤ i ∧ i ≤ last) (Slips first last i) := by
  have horder : firstStorable < lastStorable := by decide
  have hsecond : first.second ≤ last.second := by
    rw [le_def] at hle
    omega
  by_cases hearly : last.second < firstStorable
  · -- Both bounds become the first instant, which is then all that is between them.
    have hnot : ¬i ≤ last := not_le_of_second_lt (lt_of_lt_of_le hearly hi.2.1)
    have hfirst : ¬lastStorable < first.second := by omega
    have hlast : ¬lastStorable < last.second := by omega
    rw [clampStorable_of_early hearly, clampStorable_of_early (lt_of_le_of_lt hsecond hearly)]
    simp [Xor, Slips, firstPlain_le hi, le_firstPlain hi, hnot, hearly, hfirst, hlast]
  · by_cases hlate : lastStorable < first.second
    · have hnot : ¬first ≤ i := not_le_of_second_lt (lt_of_le_of_lt hi.2.2 hlate)
      rw [clampStorable_of_late hlate, clampStorable_of_late (lt_of_lt_of_le hlate hsecond)]
      have hne : lastPlain ≠ lastLeap := by decide
      simp only [Xor, Slips, lastPlain_le hi, le_lastPlain hi, hnot, hearly, hlate]
      constructor
      · rintro ⟨rfl | rfl, hleap⟩ <;> simp_all
      · rintro (h | h) <;> simp_all
    · rw [clampStorable_le hi (by omega), le_clampStorable hi (by omega)]
      have hin : lastStorable < last.second → i ≤ last :=
        fun h => le_of_second_lt (lt_of_le_of_lt hi.2.2 h)
      simp only [Xor, Slips, hearly, hlate]
      tauto

end Instant

open Instant

theorem run_range {σ : Type} [Store σ] (policy : Policy) {owner : String} {user : UserId}
    (howner : Identifier.parse .user owner = .ok user) (page : Page) (first last : Instant)
    (d : Desk σ) :
    ((Request.range owner page first last).program policy).run d =
      (.entries (if last < first then .ok [] else
        (Store.createdBetween d.store user page first.clampStorable last.clampStorable).mapError
          (.store .listRange)), d) := by
  rw [Request.program, Program.run_map, Service.range, identified_of_ok howner, pure_bind]
  by_cases hlt : last < first
  · simp only [hlt, ↓reduceIte]
    rfl
  · simp only [hlt, ↓reduceIte]
    rfl

theorem range_run {policy : Policy} {owner : String} {user : UserId} (page : Page)
    (first last : Instant) (m : Memory) (ids : IdSource)
    (howner : Identifier.parse .user owner = .ok user) :
    ((Request.range owner page first last).program policy).run ⟨m, ids⟩ =
      (.entries (.ok (if last < first then [] else page.select ((m.ofUser user).filter fun e =>
        first.clampStorable ≤ e.created ∧ e.created ≤ last.clampStorable))), ⟨m, ids⟩) := by
  rw [run_range policy howner]
  split_ifs <;> rfl

/-- The entries listed are those of the owner that were created between the bounds, in the order of
their identifiers, but for the instants that slip. -/
theorem range_lists (policy : Policy) {owner : String} {user : UserId} (page : Page)
    (first last : Instant) (m : Memory) (ids : IdSource)
    (howner : Identifier.parse .user owner = .ok user)
    (hm : m.entries.Holds fun e => e.created.IsPlain) :
    ∃ listed : List Entry,
      ((Request.range owner page first last).program policy).run ⟨m, ids⟩ =
        (.entries (.ok (page.select listed)), ⟨m, ids⟩) ∧
      (listed.Pairwise fun a b => KeyOrder.before a.id b.id = true) ∧
      ∀ e, e ∈ listed ↔ e ∈ m.entries.items ∧ e.user = user ∧ first ≤ last ∧
        Xor (first ≤ e.created ∧ e.created ≤ last) (Slips first last e.created) := by
  rw [range_run page first last m ids howner]
  by_cases hlt : last < first
  · refine ⟨[], by simp [hlt, Page.select], .nil, fun e => ?_⟩
    have hnot : ¬first ≤ last := fun h => not_lt.mpr h hlt
    simp [hnot]
  · have hle := not_lt.mp hlt
    refine ⟨_, by rw [if_neg hlt], ?_, fun e => ?_⟩
    · exact (m.entries.ascending.filter _).filter _
    · simp only [Memory.ofUser, List.mem_filter, decide_eq_true_eq, and_assoc]
      refine and_congr_right fun he => and_congr_right fun _ => ?_
      rw [clampStorable_between (hm e he) hle]
      exact (and_iff_right hle).symm

def yearMinusTwo : Instant :=
  .ofSecond (-62230291200) (by decide)

def yearMinusOne : Instant :=
  .ofSecond (-62198755200) (by decide)

theorem range_lists_firstPlain :
    ∃ listed : List Entry,
      ((Request.range "00000000-0000-0000-0000-000000000002" .first yearMinusTwo
        yearMinusOne).program {}).run
          ⟨({ entries := Shelf.empty.put (timerFrom firstPlain) } : Memory), .after 1⟩ =
        (.entries (.ok (Page.first.select listed)),
          ⟨{ entries := Shelf.empty.put (timerFrom firstPlain) }, .after 1⟩) ∧
      timerFrom firstPlain ∈ listed ∧ ¬firstPlain ≤ yearMinusOne := by
  have hplain : (timerFrom firstPlain).created.IsPlain := by decide
  have howner : Identifier.parse .user "00000000-0000-0000-0000-000000000002" =
      .ok ⟨.ofNat 2⟩ := by decide +kernel
  obtain ⟨listed, hrun, -, hmem⟩ := range_lists {} .first yearMinusTwo yearMinusOne
    { entries := Shelf.empty.put (timerFrom firstPlain) } (.after 1) howner
    (Shelf.holds_empty.put hplain)
  refine ⟨listed, hrun, (hmem _).mpr ⟨Shelf.mem_put_self _ _, rfl, by decide, ?_⟩, by decide⟩
  exact .inr ⟨.inl ⟨by decide, rfl⟩, by decide⟩

end Timesheet
