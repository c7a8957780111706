import Mathlib.Tactic
import Timesheet.Calendar

/-!
The days of the calendar. Main statements: every number is that of one valid date, which is found by
counting eras, centuries, runs of four years, years and months; and dates are in the order of their
numbers.
-/

namespace Timesheet.Date

theorem exists_dayOfEra {d : Int} (h0 : 0 ≤ d) (h1 : d ≤ 146096) : ∃ g q s u : Int,
    (0 ≤ g ∧ g ≤ 3) ∧ (0 ≤ q ∧ q ≤ 24) ∧ (0 ≤ s ∧ s ≤ 3) ∧ 0 ≤ u ∧
      (u ≤ 364 ∨ u = 365 ∧ s = 3 ∧ (q ≤ 23 ∨ g = 3)) ∧ d = 36524 * g + 1461 * q + 365 * s + u := by
  -- A day of an era of 400 years is counted in centuries, runs of four years, years and days. The
  -- last year of a run has a day more, and so has the last year of a century only in the last one.
  obtain ⟨g, r, hg, hr, hd⟩ : ∃ g r : Int, (0 ≤ g ∧ g ≤ 3) ∧
      (0 ≤ r ∧ (r ≤ 36523 ∨ r = 36524 ∧ g = 3)) ∧ d = 36524 * g + r := by
    by_cases h : d ≤ 109571
    · exact ⟨d / 36524, d % 36524, by omega, by omega, by omega⟩
    · exact ⟨3, d - 109572, by omega, by omega, by omega⟩
  obtain ⟨q, t, hq, ht, hr'⟩ : ∃ q t : Int, (0 ≤ q ∧ q ≤ 24) ∧ (0 ≤ t ∧ t ≤ 1460) ∧
      r = 1461 * q + t := ⟨r / 1461, r % 1461, by omega, by omega, by omega⟩
  by_cases h : t ≤ 1094
  · exact ⟨g, q, t / 365, t % 365, hg, hq, by omega, by omega, by omega, by omega⟩
  · exact ⟨g, q, 3, t - 1095, hg, hq, by omega, by omega, by omega, by omega⟩

theorem yearOfEra_eq {g q s u : Int} (hg : 0 ≤ g ∧ g ≤ 3) (hq : 0 ≤ q ∧ q ≤ 24)
    (hs : 0 ≤ s ∧ s ≤ 3) (hu0 : 0 ≤ u)
    (hu : u ≤ 364 ∨ u = 365 ∧ s = 3 ∧ (q ≤ 23 ∨ g = 3)) {d : Int}
    (hd : d = 36524 * g + 1461 * q + 365 * s + u) :
    (d - d / 1460 + d / 36524 - d / 146096) / 365 = 100 * g + 4 * q + s := by
  have hcentury : d / 36524 - d / 146096 = g := by
    have hlast : d ≤ 146095 ∧ d ≤ 36524 * g + 36523 ∨ d = 146096 ∧ g = 3 := by omega
    rcases hlast with hlast | ⟨rfl, rfl⟩
    · have hg' : d / 36524 = g := by omega
      omega
    · rfl
  have hrun : d / 1460 = 25 * g + q ∧ 24 * g + q + 365 * s + u < 1460 ∨
      d / 1460 = 25 * g + q + 1 ∧ 1460 ≤ 24 * g + q + 365 * s + u := by
    clear hcentury
    omega
  omega

/-- The month that begins `m` months after March has `monthStart m` days of the year before it. -/
def monthStart (m : Int) : Int :=
  (153 * m + 2) / 5

/-- The days from the beginning of the year 0 to that of the year `y`, when years begin in March. -/
def yearStart (y : Int) : Int :=
  365 * y + y / 4 - y / 100 + y / 400

theorem yearStart_succ (y : Int) :
    yearStart (y + 1) = yearStart y + (if isLeapYear (y + 1) then 366 else 365) := by
  have hfour : (y + 1) / 4 = y / 4 + if (y + 1) % 4 = 0 then 1 else 0 := by split <;> omega
  have hcentury : (y + 1) / 100 = y / 100 + if (y + 1) % 100 = 0 then 1 else 0 := by
    split <;> omega
  have hera : (y + 1) / 400 = y / 400 + if (y + 1) % 400 = 0 then 1 else 0 := by split <;> omega
  simp only [yearStart, hfour, hcentury, hera, isLeapYear, Bool.and_eq_true, Bool.or_eq_true,
    beq_iff_eq, bne_iff_ne, ne_eq]
  clear hfour hcentury hera
  split_ifs <;> omega

theorem yearStart_mono {y y' : Int} (h : y ≤ y') : yearStart y ≤ yearStart y' := by
  have hfour : y / 4 ≤ y' / 4 := by omega
  have hcentury : y' / 100 - y / 100 ≤ y' - y := by omega
  have hera : y / 400 ≤ y' / 400 := by omega
  unfold yearStart
  omega

theorem ofDayNumber_eq (n : Int) : ∃ y u m : Int, (0 ≤ m ∧ m ≤ 11) ∧
    (monthStart m ≤ u ∧ u < monthStart (m + 1)) ∧ (u ≤ 364 ∨ u = 365 ∧ isLeapYear (y + 1) = true) ∧
      n + 719468 = yearStart y + u ∧
      ofDayNumber n = ⟨if m < 10 then y else y + 1, (if m < 10 then m + 3 else m - 9).toNat,
        (u - monthStart m + 1).toNat⟩ := by
  -- Every number is that of a day `u` of a year that begins in March; the day falls in month `m`
  -- from March. The last day of the year is there only if the calendar year that it ends in is a
  -- leap year.
  obtain ⟨g, q, s, u, hg, hq, hs, hu0, hu, hd⟩ :=
    exists_dayOfEra (d := (n + 719468) % 146097) (by omega) (by omega)
  have hy := yearOfEra_eq hg hq hs hu0 hu hd
  obtain ⟨era, hera⟩ : ∃ era, (n + 719468) / 146097 = era := ⟨_, rfl⟩
  have hn : n + 719468 = 146097 * era + (36524 * g + 1461 * q + 365 * s + u) := by omega
  have hfour : (100 * g + 4 * q + s) / 4 = 25 * g + q := by omega
  have hcentury : (100 * g + 4 * q + s) / 100 = g := by omega
  have hm : 0 ≤ (5 * u + 2) / 153 ∧ (5 * u + 2) / 153 ≤ 11 := by omega
  refine ⟨400 * era + (100 * g + 4 * q + s), u, (5 * u + 2) / 153, hm, ?_, ?_, ?_, ?_⟩
  · unfold monthStart
    omega
  · rcases hu with hu | ⟨hu, rfl, hlast⟩
    · exact .inl hu
    · refine .inr ⟨hu, ?_⟩
      simp only [isLeapYear, Bool.and_eq_true, Bool.or_eq_true, beq_iff_eq, bne_iff_ne, ne_eq]
      omega
  · have hfour' : (400 * era + (100 * g + 4 * q + s)) / 4 = 100 * era + (25 * g + q) := by omega
    have hcentury' : (400 * era + (100 * g + 4 * q + s)) / 100 = 4 * era + g := by omega
    have hera' : (400 * era + (100 * g + 4 * q + s)) / 400 = era := by omega
    unfold yearStart
    omega
  · have hdoy : (n + 719468) % 146097 - (365 * (100 * g + 4 * q + s) + (25 * g + q) - g) = u := by
      omega
    simp only [ofDayNumber, hy, hfour, hcentury, hdoy, hera, monthStart]
    congr 1
    split <;> split <;> omega

theorem dayNumber_eq (d : Date) : ∃ y m : Int, (d.month ≤ 2 ∧ y = d.year - 1 ∧ m = d.month + 9 ∨
    ¬d.month ≤ 2 ∧ y = d.year ∧ m = d.month - 3) ∧
      d.dayNumber + 719468 =
        yearStart y + (monthStart m + d.day - 1) := by
  have hcount (y : Int) : y / 400 * 146097 + (y % 400 * 365 + y % 400 / 4 - y % 400 / 100) =
      yearStart y := by
    unfold yearStart
    have hfour : y / 4 = 100 * (y / 400) + y % 400 / 4 := by omega
    have hcentury : y / 100 = 4 * (y / 400) + y % 400 / 100 := by omega
    omega
  unfold monthStart
  by_cases h : d.month ≤ 2
  · refine ⟨d.year - 1, d.month + 9, .inl ⟨h, rfl, rfl⟩, ?_⟩
    rw [← hcount]
    simp only [dayNumber, h, ↓reduceIte]
    omega
  · refine ⟨d.year, d.month - 3, .inr ⟨h, rfl, rfl⟩, ?_⟩
    rw [← hcount]
    simp only [dayNumber, h, ↓reduceIte]
    omega

theorem dayNumber_ofDayNumber (n : Int) : (ofDayNumber n).dayNumber = n := by
  obtain ⟨y, u, m, hm, hu, -, hn, he⟩ := ofDayNumber_eq n
  obtain ⟨y', m', h, hd⟩ := dayNumber_eq (ofDayNumber n)
  rw [he] at h hd ⊢
  have hsame : y' = y ∧ m' = m := by
    split at h <;> simp only at h <;> omega
  obtain ⟨rfl, rfl⟩ := hsame
  have hday : ((u - monthStart m' + 1).toNat : Int) = u - monthStart m' + 1 := by omega
  simp only [hday] at hd
  omega

theorem ofDayNumber_isValid (n : Int) : (ofDayNumber n).IsValid := by
  obtain ⟨y, u, m, hm, hu, hleap, -, he⟩ := ofDayNumber_eq n
  rw [he]
  have hmonths : m = 0 ∨ m = 1 ∨ m = 2 ∨ m = 3 ∨ m = 4 ∨ m = 5 ∨ m = 6 ∨ m = 7 ∨ m = 8 ∨ m = 9 ∨
      m = 10 ∨ m = 11 := by omega
  rcases hmonths with rfl | rfl | rfl | rfl | rfl | rfl | rfl | rfl | rfl | rfl | rfl | rfl
  case inr.inr.inr.inr.inr.inr.inr.inr.inr.inr.inr =>
    rcases hleap with hle | ⟨rfl, hleap⟩
    · simp [IsValid, daysInMonth, monthStart] at hu ⊢
      split <;> omega
    · simp [IsValid, daysInMonth, monthStart, hleap]
  all_goals
    simp [IsValid, daysInMonth, monthStart] at hu ⊢
    omega

theorem IsValid.exists_march {d : Date} (h : d.IsValid) : ∃ y u m : Int, (0 ≤ m ∧ m ≤ 11) ∧
    (d.month ≤ 2 ∧ y = d.year - 1 ∧ m = d.month + 9 ∨
      ¬d.month ≤ 2 ∧ y = d.year ∧ m = d.month - 3) ∧
      u = monthStart m + d.day - 1 ∧ monthStart m ≤ u ∧
      (m ≤ 10 → u < monthStart (m + 1)) ∧ (u ≤ 364 ∨ u = 365 ∧ isLeapYear (y + 1) = true) ∧
      d.dayNumber + 719468 = yearStart y + u := by
  obtain ⟨y, m, hym, hn⟩ := dayNumber_eq d
  obtain ⟨hm1, hm12, hd1, hd⟩ := h
  refine ⟨y, monthStart m + d.day - 1, m, by omega, hym, rfl, by omega, ?_, ?_, hn⟩
  · intro hm
    have hlen : (daysInMonth d.year d.month : Int) ≤ monthStart (m + 1) - monthStart m := by
      have hmonths : m = 0 ∨ m = 1 ∨ m = 2 ∨ m = 3 ∨ m = 4 ∨ m = 5 ∨ m = 6 ∨ m = 7 ∨ m = 8 ∨ m = 9 ∨
          m = 10 := by omega
      unfold daysInMonth
      rcases hmonths with rfl | rfl | rfl | rfl | rfl | rfl | rfl | rfl | rfl | rfl | rfl <;>
        simp only [monthStart] <;> split_ifs <;> omega
    omega
  · unfold monthStart
    by_cases hfeb : d.month = 2
    · have hy : d.year = y + 1 := by omega
      simp only [daysInMonth, hfeb, ↓reduceIte, hy] at hd
      cases hleap : isLeapYear (y + 1) with
      | false =>
        simp only [hleap, Bool.false_eq_true, ↓reduceIte] at hd
        omega
      | true =>
        simp only [hleap, ↓reduceIte] at hd
        by_cases hday : d.day ≤ 28
        · exact .inl (by omega)
        · exact .inr ⟨by omega, rfl⟩
    · have hd31 : daysInMonth d.year d.month ≤ 31 := by
        unfold daysInMonth
        split_ifs <;> omega
      omega

def Before (a b : Date) : Prop :=
  a.year < b.year ∨ a.year = b.year ∧
    (a.month < b.month ∨ a.month = b.month ∧ a.day < b.day)

theorem dayNumber_lt {a b : Date} (ha : a.IsValid) (hb : b.IsValid) (h : a.Before b) :
    a.dayNumber < b.dayNumber := by
  obtain ⟨y, u, m, hm, hym, hu, hmu, hlast, hleap, hn⟩ := ha.exists_march
  obtain ⟨y', u', m', hm', hym', hu', hmu', -, -, hn'⟩ := hb.exists_march
  have hlex : y < y' ∨ y = y' ∧ (m < m' ∨ m = m' ∧ u < u') := by
    unfold Before at h
    have hma := ha.1
    have hmb := hb.1
    have hmax := ha.2.1
    clear hn hn' hleap
    rcases h with h | ⟨h, h' | ⟨h', h''⟩⟩
    · omega
    · omega
    · have hmm : m = m' := by omega
      subst hmm
      omega
  rcases hlex with h | ⟨rfl, h | ⟨rfl, h⟩⟩
  · have hstep := yearStart_succ y
    have hmono := yearStart_mono (show y + 1 ≤ y' from h)
    have hfirst : 0 ≤ u' := by
      unfold monthStart at hmu'
      omega
    rcases hleap with hu364 | ⟨rfl, hl⟩
    · split at hstep <;> omega
    · simp only [hl, ↓reduceIte] at hstep
      omega
  · have hstart : monthStart (m + 1) ≤ monthStart m' := by
      unfold monthStart
      omega
    have := hlast (by omega)
    omega
  · omega

theorem ext_iff {a b : Date} : a = b ↔ a.year = b.year ∧ a.month = b.month ∧ a.day = b.day := by
  cases a
  cases b
  simp

theorem ofDayNumber_inj {n m : Int} : ofDayNumber n = ofDayNumber m ↔ n = m := by
  constructor
  · intro h
    rw [← dayNumber_ofDayNumber n, h, dayNumber_ofDayNumber]
  · rintro rfl
    rfl

theorem ofDayNumber_before {n m : Int} : (ofDayNumber n).Before (ofDayNumber m) ↔ n < m := by
  have hforth {n m : Int} (h : (ofDayNumber n).Before (ofDayNumber m)) : n < m := by
    have := dayNumber_lt (ofDayNumber_isValid n) (ofDayNumber_isValid m) h
    rwa [dayNumber_ofDayNumber, dayNumber_ofDayNumber] at this
  refine ⟨hforth, fun h => ?_⟩
  by_contra hnot
  have hback : ofDayNumber n = ofDayNumber m ∨ (ofDayNumber m).Before (ofDayNumber n) := by
    rw [ext_iff]
    unfold Before at hnot ⊢
    omega
  rcases hback with he | hlt
  · have := ofDayNumber_inj.mp he
    omega
  · have := hforth hlt
    omega

theorem ofDayNumber_year_mono {n m : Int} (h : n ≤ m) :
    (ofDayNumber n).year ≤ (ofDayNumber m).year := by
  rcases h.eq_or_lt with rfl | h
  · exact le_refl _
  · have hb := ofDayNumber_before.mpr h
    unfold Before at hb
    omega

end Timesheet.Date
