import Mathlib.Tactic
import Timesheet.Instant

namespace Timesheet.Instant

theorem lt_def {a b : Instant} :
    a < b ↔ a.second < b.second ∨ (a.second = b.second ∧ a.nano < b.nano) := Iff.rfl

theorem le_def {a b : Instant} :
    a ≤ b ↔ a.second < b.second ∨ (a.second = b.second ∧ a.nano ≤ b.nano) := Iff.rfl

theorem not_lt {a b : Instant} : ¬a < b ↔ b ≤ a := by
  rw [lt_def, le_def]
  omega

protected theorem le_refl (i : Instant) : i ≤ i :=
  .inr ⟨rfl, Nat.le_refl _⟩

protected theorem le_trans {i j k : Instant} (hij : i ≤ j) (hjk : j ≤ k) : i ≤ k := by
  rw [le_def] at *
  omega

protected theorem le_total (i j : Instant) : i ≤ j ∨ j ≤ i := by
  rw [le_def, le_def]
  omega

theorem ext_iff {a b : Instant} : a = b ↔ a.second = b.second ∧ a.nano = b.nano := by
  cases a
  cases b
  simp

@[simp]
theorem wholeSecond_second (i : Instant) : i.wholeSecond.second = i.second := by
  unfold wholeSecond
  split <;> rfl

theorem wholeSecond_nano (i : Instant) :
    i.wholeSecond.nano = if nanosPerSecond ≤ i.nano then nanosPerSecond else 0 := by
  unfold wholeSecond
  split <;> rfl

theorem wholeSecond_isWhole (i : Instant) : i.wholeSecond.IsWhole := by
  unfold IsWhole
  rw [wholeSecond_nano]
  split
  · exact .inr rfl
  · exact .inl rfl

theorem wholeSecond_of_isWhole {i : Instant} (h : i.IsWhole) : i.wholeSecond = i := by
  rw [ext_iff, wholeSecond_second, wholeSecond_nano]
  refine ⟨rfl, ?_⟩
  rcases h with h | h <;> simp [h, nanosPerSecond]

@[simp]
theorem wholeSecond_isStorable {i : Instant} : i.wholeSecond.IsStorable ↔ i.IsStorable := by
  simp [IsStorable]

theorem wholeSecond_mono {a b : Instant} (h : a ≤ b) : a.wholeSecond ≤ b.wholeSecond := by
  rw [le_def] at h ⊢
  simp only [wholeSecond_second, wholeSecond_nano]
  split <;> split <;> omega

theorem le_wholeSecond {a b : Instant} (ha : a.IsWhole) : a ≤ b.wholeSecond ↔ a ≤ b := by
  have hb := b.nano_lt
  rw [le_def, le_def, wholeSecond_second, wholeSecond_nano]
  rcases ha with h | h
  · omega
  · split <;> omega

theorem wholeSecond_le (i : Instant) : i.wholeSecond ≤ i :=
  (le_wholeSecond i.wholeSecond_isWhole).mp (.inr ⟨rfl, le_rfl⟩)

theorem clampStorable_wholeSecond (i : Instant) :
    i.wholeSecond.clampStorable = i.clampStorable.wholeSecond := by
  unfold clampStorable
  rw [wholeSecond_second]
  split_ifs
  · rfl
  · rfl
  · rfl

theorem clampStorable_second_le (i : Instant) : i.clampStorable.second ≤ lastStorable := by
  have horder : firstStorable ≤ lastStorable := by decide
  unfold clampStorable
  split_ifs
  · exact horder
  · exact le_rfl
  · omega

theorem not_isLeap_iff {i : Instant} (h : i.IsWhole) : ¬i.isLeap ↔ i.nano = 0 := by
  unfold isLeap
  rcases h with h | h <;> simp [h, nanosPerSecond]

theorem of?_eq_some {second : Int} {nano : Nat} {i : Instant} :
    of? second nano = some i ↔ i.second = second ∧ i.nano = nano := by
  unfold of?
  split
  · rw [Option.some.injEq, ext_iff]
    exact ⟨fun h => ⟨h.1.symm, h.2.symm⟩, fun h => ⟨h.1.symm, h.2.symm⟩⟩
  · rename_i hn
    simp only [reduceCtorEq, false_iff]
    rintro ⟨rfl, rfl⟩
    exact hn ⟨i.first_le, i.le_last, i.nano_lt, i.leap_ends_minute⟩

theorem addSeconds?_eq_some {i j : Instant} {d : Int} (h : i.addSeconds? d = some j) :
    (d = 0 ∧ j = i) ∨
      (d ≠ 0 ∧ i.isLeap ∧ j.second = (if 0 < d then i.second + d else i.second + 1 + d) ∧
        j.nano = i.nano - nanosPerSecond) ∨
      (d ≠ 0 ∧ ¬i.isLeap ∧ j.second = i.second + d ∧ j.nano = i.nano) := by
  unfold addSeconds? at h
  split at h
  · exact .inl ⟨‹_›, by simpa using h.symm⟩
  · split at h
    · exact .inr (.inl ⟨‹_›, ‹_›, of?_eq_some.mp h⟩)
    · exact .inr (.inr ⟨‹_›, ‹_›, of?_eq_some.mp h⟩)

theorem le_of_addSeconds? {i j : Instant} {d : Int} (hd : 0 ≤ d) (h : i.addSeconds? d = some j) :
    i ≤ j := by
  rw [le_def]
  rcases addSeconds?_eq_some h with ⟨-, rfl⟩ | ⟨h0, -, hs, -⟩ | ⟨h0, -, hs, -⟩
  · omega
  · split at hs <;> omega
  · omega

theorem second_le_of_addSeconds? {i j : Instant} {d : Int} (hd : d ≤ 0)
    (h : i.addSeconds? d = some j) : j.second ≤ i.second := by
  rcases addSeconds?_eq_some h with ⟨-, rfl⟩ | ⟨h0, -, hs, -⟩ | ⟨h0, -, hs, -⟩
  · exact le_rfl
  · rw [if_neg (Int.not_lt.mpr hd)] at hs
    omega
  · omega

theorem isWhole_of_addSeconds? {i j : Instant} {d : Int} (hi : i.IsWhole)
    (h : i.addSeconds? d = some j) : j.IsWhole := by
  unfold IsWhole at hi ⊢
  rcases addSeconds?_eq_some h with ⟨-, rfl⟩ | ⟨-, -, -, hn⟩ | ⟨-, -, -, hn⟩ <;> omega

theorem dayNumber_mul (i : Instant) : i.dayNumber * secondsPerDay + i.secondOfDay = i.second := by
  unfold dayNumber secondOfDay secondsPerDay
  omega

theorem secondsUntil_eq (a b : Instant) : ∃ leap : Int,
    (leap = 0 ∨ (leap = 1 ∧ a.isLeap ∧ a.secondOfDay < b.secondOfDay) ∨
      (leap = -1 ∧ b.isLeap ∧ a.second ≠ b.second)) ∧
      (a.second = b.second → leap = 0) ∧
      a.secondsUntil b = Int.tdiv ((b.second - a.second + leap) * nanosPerSecond +
        ((b.nano : Int) - a.nano)) nanosPerSecond := by
  have ha := dayNumber_mul a
  have hb := dayNumber_mul b
  have hsum : (b.dayNumber - a.dayNumber) * secondsPerDay + (b.secondOfDay - a.secondOfDay) =
      b.second - a.second := by
    rw [Int.sub_mul]
    omega
  have hday (h : a.second = b.second) : a.secondOfDay = b.secondOfDay := by
    unfold secondOfDay
    rw [h]
  unfold secondsUntil
  simp only [hsum]
  split
  · rename_i h
    exact ⟨1, .inr (.inl ⟨rfl, h.2, h.1⟩), fun he => absurd (hday he) (by omega), rfl⟩
  · split
    · rename_i h
      exact ⟨-1, .inr (.inr ⟨rfl, h.2, fun he => absurd (hday he) (by omega)⟩),
        fun he => absurd (hday he) (by omega), rfl⟩
    · exact ⟨0, .inl rfl, fun _ => rfl, rfl⟩

theorem tdiv_nonneg_of_neg_lt {x : Int} {n : Nat} (h : -(n : Int) < x) : 0 ≤ x.tdiv n := by
  by_cases hx : 0 ≤ x
  · exact Int.tdiv_nonneg hx (Int.natCast_nonneg n)
  · have hz : (-x).tdiv n = 0 := Int.tdiv_eq_zero_of_lt (by omega) (by omega)
    rw [Int.neg_tdiv] at hz
    omega

theorem secondsUntil_nonneg {a b : Instant} (h : a ≤ b) : 0 ≤ a.secondsUntil b := by
  obtain ⟨leap, hleap, hsame, heq⟩ := secondsUntil_eq a b
  have hna := a.nano_lt
  have hnb := b.nano_lt
  rw [le_def] at h
  rw [heq]
  apply tdiv_nonneg_of_neg_lt
  unfold nanosPerSecond at *
  rcases hleap with rfl | ⟨rfl, hl⟩ | ⟨rfl, hl, hne⟩
  · omega
  · omega
  · have hl : 1000000000 ≤ b.nano := of_decide_eq_true hl
    omega

theorem tdiv_le_of_lt {x k n : Int} (hn : 0 < n) (hk : 0 ≤ k) (h : x < (k + 1) * n) :
    x.tdiv n ≤ k := by
  rcases lt_or_ge x 0 with hx | hx
  · exact (Int.tdiv_le_tdiv hn hx.le).trans ((Int.zero_tdiv n).trans_le hk)
  · rw [Int.tdiv_eq_ediv_of_nonneg hx]
    exact Int.le_of_lt_add_one (Int.ediv_lt_of_lt_mul hn h)

theorem secondsUntil_le {a b : Instant} (h : a ≤ b) :
    a.secondsUntil b ≤ b.second - a.second + 1 ∧ (a.isLeap → b.secondOfDay ≤ a.secondOfDay →
      a.secondsUntil b ≤ b.second - a.second) := by
  obtain ⟨leap, hleap, -, heq⟩ := secondsUntil_eq a b
  have hna := a.nano_lt
  have hnb := b.nano_lt
  rw [le_def] at h
  rw [heq]
  unfold nanosPerSecond at *
  constructor
  · apply tdiv_le_of_lt (by decide) (by omega)
    rcases hleap with rfl | ⟨rfl, hl, -⟩ | ⟨rfl, -⟩
    · omega
    · have hl : 1000000000 ≤ a.nano := of_decide_eq_true hl
      omega
    · omega
  · intro hl hday
    have hl : 1000000000 ≤ a.nano := of_decide_eq_true hl
    apply tdiv_le_of_lt (by decide) (by omega)
    rcases hleap with rfl | ⟨-, -, hlt⟩ | ⟨rfl, -⟩
    · omega
    · exact absurd hlt (not_lt_of_ge hday)
    · omega

theorem secondsUntil_of_nano_eq_zero {a b : Instant} (ha : a.nano = 0) (hb : b.nano = 0) :
    a.secondsUntil b = b.second - a.second := by
  have hla : a.isLeap = false := by simp [isLeap, ha, nanosPerSecond]
  have hlb : b.isLeap = false := by simp [isLeap, hb, nanosPerSecond]
  obtain ⟨leap, hleap, -, heq⟩ := secondsUntil_eq a b
  have hleap : leap = 0 := by simpa [hla, hlb] using hleap
  rw [heq, hleap, ha, hb, Int.add_zero, sub_self, Int.add_zero]
  exact Int.mul_tdiv_cancel _ (by decide)

theorem addSeconds?_secondsUntil {a b : Instant} (ha : a.nano = 0) (hb : b.nano = 0) :
    a.addSeconds? (a.secondsUntil b) = some b := by
  have hla : a.isLeap = false := by simp [isLeap, ha, nanosPerSecond]
  have hd := secondsUntil_of_nano_eq_zero ha hb
  unfold addSeconds?
  rw [hd]
  split
  · rw [Option.some.injEq, ext_iff]
    omega
  · rw [hla]
    exact of?_eq_some.mpr ⟨by omega, by omega⟩

def ofSecond (second : Int) (h : firstSecond ≤ second ∧ second ≤ lastSecond) : Instant where
  second := second
  nano := 0
  first_le := h.1
  le_last := h.2
  nano_lt := earliest.nano_lt
  leap_ends_minute hn := absurd hn (by decide)

theorem leapNano_lt : nanosPerSecond < 2 * nanosPerSecond := by
  decide

def ofLeap (second : Int) (h : firstSecond ≤ second ∧ second ≤ lastSecond)
    (hminute : second % 60 = 59) : Instant where
  second := second
  nano := nanosPerSecond
  first_le := h.1
  le_last := h.2
  nano_lt := leapNano_lt
  leap_ends_minute _ := hminute

def epoch : Instant :=
  ofSecond 0 (by decide)

theorem epoch_isStorable : epoch.IsStorable := by
  decide

end Timesheet.Instant
