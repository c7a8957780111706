import Timesheet.Proofs.Stamp

namespace Timesheet.Instant

open Text

variable {s : List Char} {c : Char}

theorem number_append {least most : Nat} {ds : List Char} (hds : ∀ d ∈ ds, d.isDigit = true)
    (hleast : least ≤ ds.length) (hmost : ds.length ≤ most) (hc : c.isDigit = false) :
    number least most (ds ++ c :: s) = some (numberOf ds, c :: s) := by
  have htake : ((ds ++ c :: s).takeWhile Char.isDigit).take most = ds := by
    rw [List.takeWhile_append_of_pos hds, List.takeWhile_cons_of_neg (by simp [hc]),
      List.append_nil]
    exact List.take_of_length_le hmost
  unfold number
  simp only [htake, Nat.not_lt.mpr hleast, ↓reduceIte, List.drop_left]

theorem skipBlanks_cons (hc : isBlank c = false) : skipBlanks (c :: s) = some ((), c :: s) := by
  simp [skipBlanks, skipWhile, List.dropWhile, hc]

theorem digitChar_not_blank (n : Nat) : isBlank (digitChar n) = false := by
  have h : n % 10 < 10 := Nat.mod_lt _ (by decide)
  unfold digitChar
  generalize n % 10 = d at h
  interval_cases d <;> rfl

theorem shortNumber_fixedDigits {n : Nat} (hn : n < 10 ^ 2) (hc : c.isDigit = false) :
    shortNumber (fixedDigits 2 n ++ c :: s) = some (n, c :: s) := by
  have hread : number 1 2 (fixedDigits 2 n ++ c :: s) = some (n, c :: s) := by
    rw [number_append (fun _ h => isDigit_of_mem_fixedDigits h) (by simp) (by simp) hc,
      numberOf_fixedDigits, Nat.mod_eq_of_lt hn]
  unfold shortNumber
  rw [fixedDigits, List.cons_append] at hread ⊢
  rw [bind_eq_of_eq_some (skipBlanks_cons (digitChar_not_blank _))]
  exact hread

theorem charAfterBlanks_cons (hc : isBlank c = false) : charAfterBlanks c (c :: s) = some ((), s) := by
  unfold charAfterBlanks
  rw [bind_eq_of_eq_some (skipBlanks_cons hc), char_cons]

section Years

variable {y : Int}

theorem map_eq_of_eq_some {α β : Type} {r : Reader α} {f : α → β} {a : α} {t : List Char}
    (h : r s = some (a, t)) : (f <$> r).run s = some (f a, t) := by
  simp [Functor.map, StateT.map, StateT.run, h]

theorem year_of_signed (h : ¬(0 ≤ y ∧ y ≤ 9999)) (hc : c.isDigit = false) :
    year (yearChars y ++ c :: s) = some (y, c :: s) := by
  have hlength : 1 ≤ (padStart 4 '0' (digits y.natAbs)).length := by
    simp only [padStart, List.length_append, List.length_replicate]
    omega
  have hread : number 1 (padStart 4 '0' (digits y.natAbs) ++ c :: s).length
      (padStart 4 '0' (digits y.natAbs) ++ c :: s) = some (y.natAbs, c :: s) := by
    rw [number_append (fun _ h => isDigit_of_mem_padStart h) hlength (by simp) hc,
      numberOf_padStart]
  unfold yearChars
  rw [if_neg h]
  by_cases hneg : y < 0
  · rw [if_pos hneg, List.cons_append]
    have habs : -(y.natAbs : Int) = y := by omega
    exact (map_eq_of_eq_some hread).trans (by rw [habs])
  · rw [if_neg hneg, List.cons_append]
    have habs : Int.ofNat y.natAbs = y := Int.natAbs_of_nonneg (Int.not_lt.mp hneg)
    exact (map_eq_of_eq_some hread).trans (by rw [habs])

theorem year_cons_of_isDigit (hc : c.isDigit = true) :
    year (c :: s) = (Int.ofNat <$> number 1 4).run (c :: s) := by
  unfold year
  split
  · rename_i heq
    rw [(List.cons.inj heq).1] at hc
    exact absurd hc (by decide)
  · rename_i heq
    rw [(List.cons.inj heq).1] at hc
    exact absurd hc (by decide)
  · rfl

theorem year_of_unsigned (h : 0 ≤ y ∧ y ≤ 9999) (hc : c.isDigit = false) :
    year (yearChars y ++ c :: s) = some (y, c :: s) := by
  have hread : number 1 4 (fixedDigits 4 y.toNat ++ c :: s) = some (y.toNat, c :: s) := by
    rw [number_append (fun _ h => isDigit_of_mem_fixedDigits h) (by simp) (by simp) hc,
      numberOf_fixedDigits, Nat.mod_eq_of_lt (by omega)]
  have habs : Int.ofNat y.toNat = y := Int.toNat_of_nonneg h.1
  unfold yearChars
  rw [if_pos h]
  rw [fixedDigits, List.cons_append] at hread ⊢
  rw [year_cons_of_isDigit (digitChar_isDigit _), map_eq_of_eq_some hread, habs]

theorem year_yearChars (y : Int) (hc : c.isDigit = false) :
    year (yearChars y ++ c :: s) = some (y, c :: s) := by
  by_cases h : 0 ≤ y ∧ y ≤ 9999
  · exact year_of_unsigned h hc
  · exact year_of_signed h hc

theorem skipBlanks_yearChars (y : Int) : skipBlanks (yearChars y ++ s) = some ((), yearChars y ++ s) := by
  unfold yearChars
  split_ifs
  · exact skipBlanks_cons (digitChar_not_blank _)
  · exact skipBlanks_cons rfl
  · exact skipBlanks_cons rfl

end Years

section Fractions

theorem fraction_fixedDigits {w n : Nat} (hw : 0 < w) (hmost : w ≤ 9) (hn : n < 10 ^ w)
    (hc : c.isDigit = false) :
    fraction ('.' :: fixedDigits w n ++ c :: s) = some (n * 10 ^ (9 - w), c :: s) := by
  have hdigits : ∀ d ∈ fixedDigits w n, d.isDigit = true := fun _ => isDigit_of_mem_fixedDigits
  have htake : ((fixedDigits w n ++ c :: s).takeWhile Char.isDigit).take 9 = fixedDigits w n := by
    rw [List.takeWhile_append_of_pos hdigits, List.takeWhile_cons_of_neg (by simp [hc]),
      List.append_nil]
    exact List.take_of_length_le (by simpa using hmost)
  have hdrop : (fixedDigits w n ++ c :: s).dropWhile Char.isDigit = c :: s := by
    rw [List.dropWhile_append_of_pos hdigits, List.dropWhile_cons_of_neg (by simp [hc])]
  have hne : fixedDigits w n ≠ [] := fun h => by
    have hlength := fixedDigits_length w n
    rw [h] at hlength
    exact absurd hlength (Nat.ne_of_lt hw)
  rw [List.cons_append, fraction]
  simp only [htake, hdrop, hne, ↓reduceIte, numberOf_fixedDigits, Nat.mod_eq_of_lt hn,
    fixedDigits_length, Nat.pow_eq]

theorem nanoOfSecond_lt (i : Instant) : i.nanoOfSecond < nanosPerSecond :=
  Nat.mod_lt _ (by decide)

theorem fraction_fractionChars (i : Instant) :
    fraction (i.fractionChars ++ 'Z' :: s) = some (i.nanoOfSecond, 'Z' :: s) := by
  have hlt := i.nanoOfSecond_lt
  unfold nanosPerSecond at hlt
  unfold fractionChars
  dsimp only
  generalize i.nanoOfSecond = n at hlt
  split_ifs with hzero hmilli hmicro
  · rw [hzero]
    rfl
  · rw [fraction_fixedDigits (by decide) (by decide) (by omega) rfl]
    congr 2
    omega
  · rw [fraction_fixedDigits (by decide) (by decide) (by omega) rfl]
    congr 2
    omega
  · rw [fraction_fixedDigits (by decide) (by decide) hlt rfl]
    congr 2
    omega

theorem fractionChars_append (i : Instant) :
    ∃ c t, i.fractionChars ++ 'Z' :: s = c :: t ∧ c.isDigit = false := by
  unfold fractionChars
  dsimp only
  split_ifs
  · exact ⟨_, _, rfl, rfl⟩
  · exact ⟨_, _, rfl, rfl⟩
  · exact ⟨_, _, rfl, rfl⟩
  · exact ⟨_, _, rfl, rfl⟩

end Fractions

theorem lenient_text (i : Instant) : lenient i.text.toList =
    some (⟨i.date, i.hour, i.minute, i.clockSecond, i.nanoOfSecond, 0⟩, []) := by
  have hh : i.hour < 10 ^ 2 := lt_trans i.hour_lt (by decide)
  have hm : i.minute < 10 ^ 2 := lt_trans i.minute_lt (by decide)
  have hs : i.clockSecond < 10 ^ 2 := lt_of_le_of_lt i.clockSecond_le (by decide)
  have hseconds : shortNumber (fixedDigits 2 i.clockSecond ++ (i.fractionChars ++ ['Z'])) =
      some (i.clockSecond, i.fractionChars ++ ['Z']) := by
    obtain ⟨c, t, ht, hc⟩ := i.fractionChars_append (s := [])
    rw [ht, shortNumber_fixedDigits hs hc]
  have hzone : lenientOffset ['Z'] = some (0, []) := rfl
  rw [text, String.toList_ofList]
  simp only [dateChars, clockChars, List.append_assoc, List.cons_append]
  unfold lenient
  rw [bind_eq_of_eq_some (skipBlanks_yearChars _), bind_eq_of_eq_some (year_yearChars _ rfl),
    bind_eq_of_eq_some (charAfterBlanks_cons rfl),
    bind_eq_of_eq_some (shortNumber_fixedDigits i.month_lt rfl),
    bind_eq_of_eq_some (charAfterBlanks_cons rfl),
    bind_eq_of_eq_some (shortNumber_fixedDigits i.day_lt rfl),
    bind_eq_of_eq_some (separator_T _), bind_eq_of_eq_some (shortNumber_fixedDigits hh rfl),
    bind_eq_of_eq_some (charAfterBlanks_cons rfl),
    bind_eq_of_eq_some (shortNumber_fixedDigits hm rfl),
    bind_eq_of_eq_some (charAfterBlanks_cons rfl), bind_eq_of_eq_some hseconds,
    bind_eq_of_eq_some (fraction_fractionChars i), bind_eq_of_eq_some (skipBlanks_cons rfl),
    bind_eq_of_eq_some hzone]
  rfl

theorem ofText?_text (i : Instant) : ofText? i.text = some i := by
  have hrun : lenient.run' i.text.toList = Prod.fst <$> lenient i.text.toList := rfl
  have hnano := i.nano_lt
  unfold ofText?
  rw [hrun, lenient_text, Option.map_eq_map, Option.map_some, Option.bind_some]
  apply instant?_shown rfl
  unfold nanoOfSecond
  unfold nanosPerSecond at *
  split <;> omega

end Timesheet.Instant
