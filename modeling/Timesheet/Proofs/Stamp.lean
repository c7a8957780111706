import Timesheet.Proofs.Calendar
import Timesheet.Proofs.Digits
import Timesheet.Proofs.Instant
import Timesheet.Instant.Reader
import Timesheet.Instant.Text

namespace Timesheet.Instant

open Text

variable {α β : Type} {s t : List Char}

theorem bind_eq_of_eq_some {r : Reader α} {f : α → Reader β} {a : α} (h : r s = some (a, t)) :
    (r >>= f) s = f a t := by
  simp [bind, StateT.bind, h]

theorem bind_eq_none {r : Reader α} {f : α → Reader β} (h : r s = none) : (r >>= f) s = none := by
  simp [bind, StateT.bind, h]

theorem char_cons (c : Char) (s : List Char) : char c (c :: s) = some ((), s) := by
  simp [char]

theorem separator_T (s : List Char) : dateTimeSeparator ('T' :: s) = some ((), s) := rfl

theorem number_fixedDigits (w n : Nat) (s : List Char) :
    number w w (fixedDigits w n ++ s) = some (n % 10 ^ w, s) := by
  have htake : ((fixedDigits w n ++ s).takeWhile Char.isDigit).take w = fixedDigits w n := by
    rw [List.takeWhile_append_of_pos fun _ h => isDigit_of_mem_fixedDigits h]
    exact List.take_left' (fixedDigits_length w n)
  unfold number
  simp only [htake, fixedDigits_length, lt_irrefl, ↓reduceIte, numberOf_fixedDigits]
  rw [List.drop_left' (fixedDigits_length w n)]

theorem year_neg {i : Instant} (h : i.second < firstStorable) : i.date.year < 0 := by
  have hbefore : (Date.ofDayNumber (-719529)).year = -1 := by decide
  have hday : i.dayNumber ≤ -719529 := by
    unfold firstStorable at h
    unfold dayNumber secondsPerDay
    omega
  have hyear := Date.ofDayNumber_year_mono hday
  unfold date
  omega

theorem storable_iff_year {i : Instant} :
    i.IsStorable ↔ 0 ≤ i.date.year ∧ i.date.year ≤ 9999 := by
  have hfirst : (Date.ofDayNumber (-719528)).year = 0 := by decide
  have hlast : (Date.ofDayNumber 2932896).year = 9999 := by decide
  have hafter : (Date.ofDayNumber 2932897).year = 10000 := by decide
  constructor
  · rintro ⟨h, h'⟩
    unfold firstStorable lastStorable at *
    have hlow := Date.ofDayNumber_year_mono (show -719528 ≤ i.second / 86400 by omega)
    have hhigh := Date.ofDayNumber_year_mono (show i.second / 86400 ≤ 2932896 by omega)
    unfold date dayNumber secondsPerDay
    omega
  · rintro ⟨h, h'⟩
    constructor
    · by_contra hlt
      have hneg := year_neg (Int.not_le.mp hlt)
      omega
    · by_contra hlt
      unfold lastStorable at hlt
      unfold date dayNumber secondsPerDay at h'
      have hhigh := Date.ofDayNumber_year_mono (show 2932897 ≤ i.second / 86400 by omega)
      omega

theorem year_lt {i : Instant} (h : i.IsStorable) : i.date.year.toNat < 10 ^ 4 := by
  have := storable_iff_year.mp h
  omega

theorem hour_lt (i : Instant) : i.hour < 24 := by
  unfold hour secondOfDay secondsPerDay
  omega

theorem minute_lt (i : Instant) : i.minute < 60 := by
  unfold minute
  omega

theorem clockSecond_le (i : Instant) : i.clockSecond ≤ 60 := by
  have h := i.nano_lt
  have hle : i.nano / nanosPerSecond < 2 := Nat.div_lt_of_lt_mul (by omega)
  unfold clockSecond
  omega

theorem month_lt (i : Instant) : i.date.month < 10 ^ 2 := by
  have h := Date.ofDayNumber_isValid i.dayNumber
  exact lt_of_le_of_lt h.2.1 (by decide)

theorem day_lt (i : Instant) : i.date.day < 10 ^ 2 := by
  have h := (Date.ofDayNumber_isValid i.dayNumber).2.2.2
  have hlen (y : Int) (m : Nat) : Date.daysInMonth y m ≤ 31 := by
    unfold Date.daysInMonth
    split_ifs <;> decide
  exact lt_of_le_of_lt (h.trans (hlen _ _)) (by decide)

theorem strict_stampChars {i : Instant} (h : i.IsStorable) :
    strict i.stampChars = some (⟨i.date, i.hour, i.minute, i.clockSecond, 0, 0⟩, []) := by
  have hy := storable_iff_year.mp h
  have hyear : (i.date.year.toNat : Int) = i.date.year := by omega
  have hh : i.hour < 10 ^ 2 := lt_trans i.hour_lt (by decide)
  have hm : i.minute < 10 ^ 2 := lt_trans i.minute_lt (by decide)
  have hs : i.clockSecond < 10 ^ 2 := lt_of_le_of_lt i.clockSecond_le (by decide)
  simp only [stampChars, dateChars, yearChars, hy, and_self, ↓reduceIte, clockChars,
    List.append_assoc, List.cons_append]
  unfold strict
  rw [bind_eq_of_eq_some (number_fixedDigits 4 _ _), bind_eq_of_eq_some (char_cons '-' _),
    bind_eq_of_eq_some (number_fixedDigits 2 _ _), bind_eq_of_eq_some (char_cons '-' _),
    bind_eq_of_eq_some (number_fixedDigits 2 _ _), bind_eq_of_eq_some (separator_T _),
    bind_eq_of_eq_some (number_fixedDigits 2 _ _), bind_eq_of_eq_some (char_cons ':' _),
    bind_eq_of_eq_some (number_fixedDigits 2 _ _), bind_eq_of_eq_some (char_cons ':' _),
    bind_eq_of_eq_some (number_fixedDigits 2 _ _)]
  simp only [Nat.mod_eq_of_lt, year_lt h, month_lt, day_lt, hh, hm, hs, hyear]
  rfl

theorem strict_stampChars_eq_none {i : Instant} (h : ¬i.IsStorable) : strict i.stampChars = none := by
  rw [storable_iff_year] at h
  have hsign (c : Char) (s : List Char) (hc : c.isDigit = false) : number 4 4 (c :: s) = none := by
    simp [number, List.takeWhile, hc]
  simp only [stampChars, dateChars, yearChars, h, ↓reduceIte, List.cons_append]
  apply bind_eq_none
  apply hsign
  split <;> rfl

theorem second_eq (i : Instant) :
    i.second = i.dayNumber * secondsPerDay + i.hour * 3600 + i.minute * 60 + (i.second % 60) := by
  -- The seconds of an instant are those of its day, its hours and minutes, and of a clock, which
  -- shows a leap second as the sixtieth.
  unfold dayNumber hour minute secondOfDay secondsPerDay
  omega

theorem clockSecond_eq (i : Instant) :
    i.clockSecond = if nanosPerSecond ≤ i.nano then 60 else (i.second % 60).toNat := by
  have h := i.nano_lt
  have hleap := i.leap_ends_minute
  have hday : i.secondOfDay % 60 = i.second % 60 := by
    unfold secondOfDay secondsPerDay
    omega
  unfold clockSecond
  rw [hday]
  unfold nanosPerSecond at *
  split <;> omega

theorem year_bounds (i : Instant) : -262143 ≤ i.date.year ∧ i.date.year ≤ 262142 := by
  have hfirst : (Date.ofDayNumber (-96465292)).year = -262143 := by decide
  have hlast : (Date.ofDayNumber 95026236).year = 262142 := by decide
  have h := i.first_le
  have h' := i.le_last
  unfold firstSecond lastSecond at *
  have hlow := Date.ofDayNumber_year_mono (show -96465292 ≤ i.second / 86400 by omega)
  have hhigh := Date.ofDayNumber_year_mono (show i.second / 86400 ≤ 95026236 by omega)
  unfold date dayNumber secondsPerDay
  omega

theorem instant?_shown {i j : Instant} {n : Nat} (hsecond : j.second = i.second)
    (hnano : j.nano = if nanosPerSecond ≤ i.nano then nanosPerSecond + n else n) :
    Written.instant? ⟨i.date, i.hour, i.minute, i.clockSecond, n, 0⟩ = some j := by
  have hn : i.date.dayNumber = i.dayNumber := Date.dayNumber_ofDayNumber _
  have hsec := second_eq i
  have hclock := clockSecond_eq i
  have hleap := i.leap_ends_minute
  have hin : i.date.IsValid ∧ -262143 ≤ i.date.year ∧ i.date.year ≤ 262142 ∧ i.hour ≤ 23 ∧
      i.minute ≤ 59 ∧ i.clockSecond ≤ 60 ∧ (0 : Int).natAbs < 86400 :=
    ⟨Date.ofDayNumber_isValid _, i.year_bounds.1, i.year_bounds.2, Nat.le_of_lt_succ i.hour_lt,
      Nat.le_of_lt_succ i.minute_lt, i.clockSecond_le, by decide⟩
  rw [Written.instant?]
  simp only [hin, and_self, ↓reduceIte, hn]
  by_cases hl : nanosPerSecond ≤ i.nano
  · rw [if_pos hl] at hclock hnano
    rw [if_pos hclock, of?_eq_some]
    exact ⟨by omega, by omega⟩
  · rw [if_neg hl] at hclock hnano
    rw [if_neg (by omega), of?_eq_some]
    exact ⟨by omega, by omega⟩

theorem ofStamp?_stamp (i : Instant) :
    ofStamp? i.stamp = if i.IsStorable then some i.wholeSecond else none := by
  have hrun : strict.run' i.stampChars = Prod.fst <$> strict i.stampChars := rfl
  unfold ofStamp? stamp
  rw [String.toList_ofList, hrun]
  split
  · rw [strict_stampChars ‹_›, Option.map_eq_map, Option.map_some, Option.bind_some]
    exact instant?_shown (wholeSecond_second i) (wholeSecond_nano i)
  · rw [strict_stampChars_eq_none ‹_›]
    rfl

@[simp]
theorem stamp_wholeSecond (i : Instant) : i.wholeSecond.stamp = i.stamp := by
  have hday : i.wholeSecond.dayNumber = i.dayNumber := by simp [dayNumber]
  have hsecond : i.wholeSecond.secondOfDay = i.secondOfDay := by simp [secondOfDay]
  have hclock : i.wholeSecond.clockSecond = i.clockSecond := by
    rw [clockSecond_eq, clockSecond_eq, wholeSecond_nano, wholeSecond_second]
    have hzero : ¬nanosPerSecond ≤ 0 := by decide
    by_cases hl : nanosPerSecond ≤ i.nano <;> simp only [hl, hzero, ↓reduceIte, le_refl]
  unfold stamp stampChars clockChars date hour minute
  rw [hday, hsecond, hclock]

theorem ofStamp?_stamp_eq_some {i j : Instant} :
    ofStamp? i.stamp = some j ↔ i.IsStorable ∧ i.wholeSecond = j := by
  rw [ofStamp?_stamp]
  split <;> simp [*]

theorem charsBefore_cons (c : Char) (s t : List Char) :
    charsBefore (c :: s) (c :: t) = charsBefore s t := by
  simp [charsBefore]

theorem before_stamp_eq {i j : Instant} (hi : i.IsStorable) (hj : j.IsStorable) :
    before i.stamp j.stamp = true ↔ i.date.Before j.date ∨ i.date = j.date ∧
      (i.hour < j.hour ∨ i.hour = j.hour ∧ (i.minute < j.minute ∨ i.minute = j.minute ∧
        i.clockSecond < j.clockSecond)) := by
  have hyi := storable_iff_year.mp hi
  have hyj := storable_iff_year.mp hj
  have hh (i : Instant) : i.hour < 10 ^ 2 := lt_trans i.hour_lt (by decide)
  have hm (i : Instant) : i.minute < 10 ^ 2 := lt_trans i.minute_lt (by decide)
  have hs (i : Instant) : i.clockSecond < 10 ^ 2 := lt_of_le_of_lt i.clockSecond_le (by decide)
  have hdate : i.date = j.date ↔ i.date.year.toNat = j.date.year.toNat ∧
      i.date.month = j.date.month ∧ i.date.day = j.date.day := by
    rw [Date.ext_iff]
    omega
  rw [hdate]
  unfold before stamp Date.Before
  simp only [String.toList_ofList, stampChars, dateChars, yearChars, hyi, hyj, and_self,
    ↓reduceIte, clockChars, List.append_assoc, List.cons_append]
  rw [charsBefore_fixedDigits (year_lt hi) (year_lt hj), charsBefore_cons,
    charsBefore_fixedDigits i.month_lt j.month_lt, charsBefore_cons,
    charsBefore_fixedDigits i.day_lt j.day_lt, charsBefore_cons,
    charsBefore_fixedDigits (hh i) (hh j), charsBefore_cons,
    charsBefore_fixedDigits (hm i) (hm j), charsBefore_cons,
    charsBefore_fixedDigits (hs i) (hs j), charsBefore_irrefl]
  split_ifs <;> simp only [decide_eq_true_eq, false_iff] <;> omega

theorem before_stamp {i j : Instant} (hi : i.IsStorable) (hj : j.IsStorable) :
    before i.stamp j.stamp = true ↔ i.wholeSecond < j.wholeSecond := by
  rw [before_stamp_eq hi hj, lt_def]
  simp only [wholeSecond_second, wholeSecond_nano, date, Date.ofDayNumber_before,
    Date.ofDayNumber_inj]
  have hsi := second_eq i
  have hsj := second_eq j
  have hci := clockSecond_eq i
  have hcj := clockSecond_eq j
  have hhi := i.hour_lt
  have hhj := j.hour_lt
  have hmi := i.minute_lt
  have hmj := j.minute_lt
  have hli := i.leap_ends_minute
  have hlj := j.leap_ends_minute
  unfold secondsPerDay at hsi hsj
  unfold nanosPerSecond at *
  split_ifs at * <;> omega

theorem before_stamp_of_not_isStorable {i j : Instant} (hi : ¬i.IsStorable) (hj : j.IsStorable) :
    before i.stamp j.stamp = true := by
  -- A year outside 0 to 9999 has a sign, and both signs come before every digit.
  have hyi := storable_iff_year.not.mp hi
  have hyj := storable_iff_year.mp hj
  have hsign (c : Char) (hc : c.toNat < 48) (n : Nat) (s t : List Char) :
      charsBefore (c :: s) (digitChar n :: t) = true := by
    have hlt : c.toNat < (digitChar n).toNat := by
      rw [digitChar_toNat]
      exact lt_of_lt_of_le hc (Nat.le_add_right 48 _)
    have hne : c ≠ digitChar n := fun e => by
      rw [← e] at hlt
      exact lt_irrefl _ hlt
    rw [charsBefore, if_neg hne]
    exact decide_eq_true hlt
  unfold before stamp
  simp only [String.toList_ofList, stampChars, dateChars, yearChars, hyi, hyj, and_self,
    ↓reduceIte, List.cons_append]
  apply hsign
  split <;> decide

/-- A whole second of a year with four digits: what the stamp of an instant is read back as. -/
def IsPlain (i : Instant) : Prop :=
  i.IsWhole ∧ i.IsStorable

instance (i : Instant) : Decidable i.IsPlain :=
  inferInstanceAs (Decidable (_ ∧ _))

theorem ofStamp?_stamp_iff {i : Instant} : ofStamp? i.stamp = some i ↔ i.IsPlain := by
  rw [ofStamp?_stamp_eq_some]
  constructor
  · rintro ⟨hstorable, hwhole⟩
    exact ⟨hwhole ▸ wholeSecond_isWhole i, hstorable⟩
  · rintro ⟨hwhole, hstorable⟩
    exact ⟨hstorable, wholeSecond_of_isWhole hwhole⟩

theorem upTo_stamp {i j : Instant} (hlast : i.second ≤ lastStorable) (hj : j.IsPlain) :
    upTo i.stamp j.stamp = decide (i.wholeSecond ≤ j) ∧ upTo j.stamp i.stamp = decide (j ≤ i) := by
  by_cases hfirst : firstStorable ≤ i.second
  · have hi : i.IsStorable := ⟨hfirst, hlast⟩
    have hcompare {a b : Instant} (ha : a.IsStorable) (hb : b.IsStorable) :
        upTo a.stamp b.stamp = decide (a.wholeSecond ≤ b.wholeSecond) := by
      rw [upTo, Bool.eq_iff_iff, Bool.not_eq_true', decide_eq_true_iff, ← not_lt,
        ← before_stamp hb ha, Bool.not_eq_true]
    rw [hcompare hi hj.2, hcompare hj.2 hi, wholeSecond_of_isWhole hj.1]
    exact ⟨rfl, decide_eq_decide.mpr (le_wholeSecond hj.1)⟩
  · have hbefore := before_stamp_of_not_isStorable (fun h => hfirst h.1) hj.2
    have hlt : i.second < j.second := lt_of_lt_of_le (Int.not_le.mp hfirst) hj.2.1
    have hle : i.wholeSecond ≤ j := .inl ((wholeSecond_second i).symm ▸ hlt)
    have hnot : ¬j ≤ i := by
      rw [le_def]
      omega
    unfold upTo
    rw [before_asymm hbefore, hbefore]
    simp [hle, hnot]

theorem not_upTo_stamp_of_late {i j : Instant} (hi : lastStorable < i.second) (hj : j.IsStorable) :
    upTo j.stamp i.stamp = false := by
  -- Nothing stored comes up to the text of a bound after the storable years.
  have hnot : ¬i.IsStorable := fun h => Int.not_lt.mpr h.2 hi
  rw [upTo, before_stamp_of_not_isStorable hnot hj]
  rfl

end Timesheet.Instant
