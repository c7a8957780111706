import Timesheet.Moment
import Timesheet.Proofs.Spelling

/-!
Moments as people write them. Main statement: a text is read as a moment exactly if it is `now`, a strict
instant, or a count of units before now that comes to no more than a thousand years, in this order; and
what lies so long before a year of four digits is an instant.
-/

namespace Timesheet

open Text

theorem Text.toLower_eq_iff {c small capital : Char} (hsmall : small.val = capital.val + 32)
    (hcapital : capital.val ≥ 'A'.val ∧ capital.val ≤ 'Z'.val)
    (hnot : ¬(small.val ≥ 'A'.val ∧ small.val ≤ 'Z'.val)) :
    c.toLower = small ↔ c = small ∨ c = capital := by
  constructor
  · intro h
    unfold Char.toLower at h
    split at h
    · have hval : c.val + 32 = capital.val + 32 := (congrArg Char.val h).trans hsmall
      exact .inr (Char.ext ((UInt32.add_left_inj 32).mp hval))
    · exact .inl h
  · rintro (rfl | rfl)
    · unfold Char.toLower
      rw [dif_neg hnot]
    · unfold Char.toLower
      rw [dif_pos hcapital]
      exact Char.ext hsmall.symm

theorem Text.isAnyDigit_of_isBlank {c : Char} (h : isBlank c = true) : isAnyDigit c = false := by
  unfold isBlank at h
  unfold isAnyDigit
  generalize c.toNat = n at h
  have hlist : n ∈ [9, 10, 11, 12, 13, 0x20, 0x85, 0xa0, 0x1680, 0x2000, 0x2001, 0x2002, 0x2003, 0x2004,
      0x2005, 0x2006, 0x2007, 0x2008, 0x2009, 0x200a, 0x2028, 0x2029, 0x202f, 0x205f, 0x3000] := by
    simp only [Bool.or_eq_true, Bool.and_eq_true, decide_eq_true_eq, beq_iff_eq] at h
    simp only [List.mem_cons, List.not_mem_nil, or_false]
    omega
  clear h
  revert n
  decide

namespace Moment

variable {s t : List Char}

def SpellsNow (s : List Char) : Prop :=
  ∃ n o w, s = [n, o, w] ∧ (n = 'n' ∨ n = 'N') ∧ (o = 'o' ∨ o = 'O') ∧ (w = 'w' ∨ w = 'W')

structure IsGap (s : List Char) : Prop where
  ne_nil : s ≠ []
  blank : ∀ c ∈ s, isBlank c = true

theorem IsGap.head {c : Char} (hs : IsGap s) (hc : c ∈ (s ++ t).head?) : isBlank c = true := by
  cases s with
  | nil => exact absurd rfl hs.ne_nil
  | cons d s =>
    obtain ⟨⟩ := hc
    exact hs.blank c List.mem_cons_self

inductive SpellsAgo : List Char → List Char → TimeUnit → Prop
  | mk {count gap plural gap' : List Char} {unit : TimeUnit} (hne : count ≠ [])
      (hcount : ∀ c ∈ count, isAnyDigit c = true) (hgap : IsGap gap)
      (hplural : plural = [] ∨ plural = ['s']) (hgap' : IsGap gap') :
      SpellsAgo (count ++ (gap ++ (unit.text.toList ++ (plural ++ (gap' ++ ['a', 'g', 'o']))))) count unit

theorem spellsNow_iff : s.map Char.toLower = ['n', 'o', 'w'] ↔ SpellsNow s := by
  have hn (c : Char) : c.toLower = 'n' ↔ c = 'n' ∨ c = 'N' :=
    toLower_eq_iff (by decide) (by decide) (by decide)
  have ho (c : Char) : c.toLower = 'o' ↔ c = 'o' ∨ c = 'O' :=
    toLower_eq_iff (by decide) (by decide) (by decide)
  have hw (c : Char) : c.toLower = 'w' ↔ c = 'w' ∨ c = 'W' :=
    toLower_eq_iff (by decide) (by decide) (by decide)
  simp only [List.map_eq_cons_iff, List.map_eq_nil_iff, hn, ho, hw]
  constructor
  · rintro ⟨n, _, rfl, h, o, _, rfl, h', w, _, rfl, h'', rfl⟩
    exact ⟨n, o, w, rfl, h, h', h''⟩
  · rintro ⟨n, o, w, rfl, h, h', h''⟩
    exact ⟨n, _, rfl, h, o, _, rfl, h', w, _, rfl, h'', rfl⟩

theorem skipGap?_eq_some : skipGap? s = some t ↔
    (∀ c ∈ t.head?, isBlank c = false) ∧ ∃ gap, IsGap gap ∧ s = gap ++ t := by
  unfold skipGap?
  dsimp only
  constructor
  · intro h
    split at h
    · obtain ⟨⟩ := h
      obtain ⟨hhead, gap, hgap, hs⟩ := trimStart_eq_iff.mp (Eq.refl (trimStart s))
      refine ⟨hhead, gap, ⟨?_, hgap⟩, hs⟩
      rintro rfl
      have hlength := congrArg List.length hs
      rw [List.nil_append] at hlength
      omega
    · cases h
  · rintro ⟨hhead, gap, ⟨hne, hgap⟩, rfl⟩
    have hlength := List.length_pos_iff.mpr hne
    rw [trimStart_eq_iff.mpr ⟨hhead, gap, hgap, rfl⟩, if_pos]
    rw [List.length_append]
    omega

theorem stripWord?_eq_some {word : List Char} : stripWord? word s = some t ↔ s = word ++ t := by
  unfold stripWord?
  constructor
  · intro h
    split at h
    · obtain ⟨⟩ := h
      exact (List.prefix_iff_eq_append.mp (List.prefix_iff_eq_take.mpr (Eq.symm ‹_›))).symm
    · cases h
  · rintro rfl
    rw [List.take_left, if_pos rfl, List.drop_left]

theorem unit?_eq_some {u : TimeUnit} : unit? s = some (u, t) ↔ s = u.text.toList ++ t := by
  -- No two units begin with the same letter.
  unfold unit?
  constructor
  · intro h
    obtain ⟨v, -, hv⟩ := List.exists_of_findSome?_eq_some h
    obtain ⟨rest, hrest, ⟨⟩⟩ := Option.map_eq_some_iff.mp hv
    exact stripWord?_eq_some.mp hrest
  · rintro rfl
    cases u <;> rfl

theorem skipPlural_append {plural gap : List Char} (hplural : plural = [] ∨ plural = ['s'])
    (hgap : IsGap gap) : skipPlural (plural ++ (gap ++ t)) = gap ++ t := by
  rcases hplural with rfl | rfl
  · cases gap with
    | nil => exact absurd rfl hgap.ne_nil
    | cons c gap =>
      have hc : c ≠ 's' := by
        rintro rfl
        exact absurd (hgap.blank 's' List.mem_cons_self) (by decide)
      rw [List.nil_append, List.cons_append]
      unfold skipPlural
      split
      · rename_i heq
        exact absurd (List.cons.inj heq).1 hc
      · rfl
  · rfl

theorem exists_plural (s : List Char) :
    ∃ plural, (plural = [] ∨ plural = ['s']) ∧ s = plural ++ skipPlural s := by
  unfold skipPlural
  split
  · exact ⟨['s'], .inr rfl, rfl⟩
  · exact ⟨[], .inl rfl, rfl⟩

theorem ago?_eq_some {count : List Char} {unit : TimeUnit} :
    ago? s = some ⟨count, unit⟩ ↔ SpellsAgo s count unit := by
  have hdrop : s.drop (s.takeWhile isAnyDigit).length = s.dropWhile isAnyDigit := by
    have h : (s.takeWhile isAnyDigit ++ s.dropWhile isAnyDigit).drop (s.takeWhile isAnyDigit).length =
        s.dropWhile isAnyDigit := List.drop_left
    rwa [List.takeWhile_append_dropWhile] at h
  have hread : ago? s = some ⟨count, unit⟩ ↔ s.takeWhile isAnyDigit = count ∧ count ≠ [] ∧
      ∃ rest, skipGap? (s.dropWhile isAnyDigit) = some rest ∧
        ∃ rest', unit? rest = some (unit, rest') ∧
          skipGap? (skipPlural rest') = some ['a', 'g', 'o'] := by
    unfold ago?
    dsimp only
    rw [hdrop]
    by_cases hnil : s.takeWhile isAnyDigit = []
    · rw [if_pos hnil]
      constructor
      · exact nofun
      · rintro ⟨rfl, hne, -⟩
        exact absurd hnil hne
    · rw [if_neg hnil]
      simp only [Option.bind_eq_bind, Option.bind_eq_some_iff]
      constructor
      · rintro ⟨rest, hrest, ⟨u, rest'⟩, hunit, last, hlast, h⟩
        split at h
        · rename_i hago
          obtain ⟨⟩ := h
          exact ⟨rfl, hnil, rest, hrest, rest', hunit, hago ▸ hlast⟩
        · cases h
      · rintro ⟨rfl, -, rest, hrest, rest', hunit, hago⟩
        exact ⟨rest, hrest, (unit, rest'), hunit, _, hago, if_pos rfl⟩
  rw [hread]
  constructor
  · rintro ⟨hcount, hne, rest, hrest, rest', hunit, hago⟩
    obtain ⟨hdigits, -, hs⟩ := span_iff.mp ⟨hcount, rfl⟩
    obtain ⟨-, gap, hgap, hrest⟩ := skipGap?_eq_some.mp hrest
    obtain ⟨plural, hplural, hrest'⟩ := exists_plural rest'
    obtain ⟨-, gap', hgap', hago⟩ := skipGap?_eq_some.mp hago
    rw [hs, hrest, unit?_eq_some.mp hunit, hrest', hago]
    exact .mk hne hdigits hgap hplural hgap'
  · rintro @⟨_, gap, plural, gap', _, hne, hdigits, hgap, hplural, hgap'⟩
    have hend : ∀ c ∈ (gap ++ (unit.text.toList ++ (plural ++ (gap' ++ ['a', 'g', 'o'])))).head?,
        isAnyDigit c = false := fun c hc => isAnyDigit_of_isBlank (hgap.head hc)
    have hletter : ∀ c ∈ (unit.text.toList ++ (plural ++ (gap' ++ ['a', 'g', 'o']))).head?,
        isBlank c = false := by
      cases unit <;> rintro c ⟨⟩ <;> rfl
    obtain ⟨hcount, hrest⟩ := span_iff.mpr ⟨hdigits, hend, rfl⟩
    refine ⟨hcount, hne, _, hrest ▸ skipGap?_eq_some.mpr ⟨hletter, gap, hgap, rfl⟩, _,
      unit?_eq_some.mpr rfl, ?_⟩
    rw [skipPlural_append hplural hgap']
    exact skipGap?_eq_some.mpr ⟨by rintro c ⟨⟩; rfl, gap', hgap', rfl⟩

theorem le_foldl (s : List Char) (k : Nat) : k ≤ s.foldl (fun n c => 10 * n + digitValue c) k := by
  induction s generalizing k with
  | nil => exact Nat.le_refl k
  | cons c s ih => exact Nat.le_trans (by omega) (ih (10 * k + digitValue c))

theorem readCount_eq_ok {k n : Nat} (hk : k ≤ Word.largestCount) : readCount k s = .ok n ↔
    (∀ c ∈ s, c.isDigit = true) ∧ s.foldl (fun n c => 10 * n + digitValue c) k = n ∧
      n ≤ Word.largestCount := by
  induction s generalizing k with
  | nil =>
    rw [readCount, Except.ok.injEq]
    constructor
    · rintro rfl
      exact ⟨by simp, rfl, hk⟩
    · exact fun h => h.2.1
  | cons c s ih =>
    rw [readCount, List.foldl_cons, List.forall_mem_cons]
    by_cases hc : c.isDigit = true
    · rw [if_pos hc]
      by_cases hlarge : Word.largestCount < 10 * k + digitValue c
      · rw [if_pos hlarge]
        constructor
        · exact nofun
        · rintro ⟨-, rfl, hle⟩
          have hgrows := le_foldl s (10 * k + digitValue c)
          omega
      · rw [if_neg hlarge, ih (Nat.le_of_not_lt hlarge)]
        simp only [hc, true_and]
    · rw [if_neg hc]
      constructor
      · exact nofun
      · exact fun h => absurd h.1.1 hc

theorem seconds_pos (u : TimeUnit) : 0 < u.seconds := by
  cases u <;> decide

variable {now i : Instant} {a : Ago} {n : Nat}

theorem guard_iff {u : TimeUnit} : ¬largestSpan / u.seconds < n ↔ n * u.seconds ≤ largestSpan := by
  -- The bound by division is the bound of the product.
  rw [Int.not_lt, Int.le_ediv_iff_mul_le (seconds_pos u)]

theorem exists_earlier (hnow : now.IsStorable) {k : Int} (hk : 0 ≤ k) (hle : k ≤ largestSpan) :
    ∃ i, now.addSeconds? (-k) = some i := by
  obtain ⟨hfirst, hlast⟩ := hnow
  have hnano := now.nano_lt
  unfold Instant.firstStorable at hfirst
  unfold Instant.lastStorable at hlast
  unfold largestSpan at hle
  unfold Instant.addSeconds? Instant.isLeap
  by_cases hzero : -k = 0
  · exact ⟨now, if_pos hzero⟩
  · rw [if_neg hzero]
    have hplace {second : Int} {nano : Nat} (hsecond : now.second - k ≤ second)
        (hle : second ≤ now.second) (hlt : nano < nanosPerSecond) :
        ∃ i, Instant.of? second nano = some i := by
      refine ⟨_, dif_pos ⟨?_, ?_, by omega, fun h => by omega⟩⟩
      · unfold Instant.firstSecond
        omega
      · unfold Instant.lastSecond
        omega
    by_cases hleap : nanosPerSecond ≤ now.nano
    · rw [if_pos (decide_eq_true hleap), if_neg (by omega)]
      exact hplace (by omega) (by omega) (by omega)
    · rw [if_neg (by simpa using hleap)]
      exact hplace (by omega) (by omega) (by omega)

theorem before_of_guard (hnow : now.IsStorable) (hread : readCount 0 a.count = .ok n)
    (hguard : ¬largestSpan / a.unit.seconds < n) : Word.fits n = true ∧
      Word.fits (n * a.unit.seconds) = true ∧
      ∃ i, now.addSeconds? (-(n * a.unit.seconds)) = some i ∧ before a now = .ok i := by
  have hle := guard_iff.mp hguard
  have hpos : 0 ≤ n * a.unit.seconds :=
    Int.mul_nonneg (Int.natCast_nonneg n) (Int.le_of_lt (seconds_pos a.unit))
  have hn : n ≤ Word.largestCount := ((readCount_eq_ok (Nat.zero_le _)).mp hread).2.2
  obtain ⟨i, hi⟩ := exists_earlier hnow hpos hle
  have hsmallest : Word.smallest ≤ 0 := by decide
  refine ⟨Word.fits_of_bounds (Int.le_trans hsmallest (Int.natCast_nonneg n)) (Int.ofNat_le.mpr hn),
    Word.fits_of_bounds (Int.le_trans hsmallest hpos) (Int.le_trans hle (by decide)), i, hi, ?_⟩
  unfold before
  rw [hread]
  dsimp only
  rw [if_neg hguard, hi]
  rfl

theorem before_eq_ok (hnow : now.IsStorable) : before a now = .ok i ↔
    (∀ c ∈ a.count, c.isDigit = true) ∧ numberOf a.count * a.unit.seconds ≤ largestSpan ∧
      now.addSeconds? (-(numberOf a.count * a.unit.seconds)) = some i := by
  have hcount {n : Nat} : readCount 0 a.count = .ok n ↔
      (∀ c ∈ a.count, c.isDigit = true) ∧ numberOf a.count = n ∧ n ≤ Word.largestCount :=
    readCount_eq_ok (Nat.zero_le _)
  constructor
  · intro h
    cases hread : readCount 0 a.count with
    | error g =>
      unfold before at h
      rw [hread] at h
      cases h
    | ok n =>
      obtain ⟨hdigits, rfl, -⟩ := hcount.mp hread
      by_cases hguard : largestSpan / a.unit.seconds < (numberOf a.count : Nat)
      · unfold before at h
        rw [hread] at h
        dsimp only at h
        rw [if_pos hguard] at h
        cases h
      · obtain ⟨-, -, j, hj, hbefore⟩ := before_of_guard hnow hread hguard
        obtain ⟨⟩ := hbefore.symm.trans h
        exact ⟨hdigits, guard_iff.mp hguard, hj⟩
  · rintro ⟨hdigits, hle, hi⟩
    have hfits : numberOf a.count ≤ Word.largestCount := by
      have hmul : (numberOf a.count : Int) * 1 ≤ numberOf a.count * a.unit.seconds :=
        Int.mul_le_mul_of_nonneg_left (seconds_pos a.unit) (Int.natCast_nonneg _)
      unfold largestSpan at hle
      unfold Word.largestCount
      omega
    obtain ⟨-, -, j, hj, hbefore⟩ := before_of_guard hnow (hcount.mpr ⟨hdigits, rfl, hfits⟩)
      (guard_iff.mpr hle)
    obtain ⟨⟩ := hj.symm.trans hi
    exact hbefore

/-- What a text says at the time `now`: the word, else a strict instant, else a count of units before
now that are a thousand years of 365 days at most. -/
inductive Says (now : Instant) : List Char → Instant → Prop
  | now {s : List Char} (h : SpellsNow s) : Says now s now
  | instant {s : List Char} {w : Instant.Written} {i : Instant} (hnow : ¬SpellsNow s)
      (h : Instant.SpellsInstant s w) (hw : w.IsValid) (hi : w.Names i) : Says now s i
  | ago {s count : List Char} {unit : TimeUnit} {i : Instant} (hnow : ¬SpellsNow s)
      (hinstant : ∀ w, Instant.SpellsInstant s w → ¬w.IsValid) (h : SpellsAgo s count unit)
      (hdigits : ∀ c ∈ count, c.isDigit = true)
      (hle : numberOf count * unit.seconds ≤ 31536000000)
      (hi : now.addSeconds? (-(numberOf count * unit.seconds)) = some i) : Says now s i

theorem ofStamp?_eq_none {text : String} : Instant.ofStamp? text = none ↔
    ∀ w, Instant.SpellsInstant text.toList w → ¬w.IsValid := by
  constructor
  · intro h w hspells hw
    obtain ⟨i, hi⟩ := hspells.exists_names hw
    cases h.symm.trans (Instant.ofStamp?_eq_some.mpr ⟨w, hspells, hw, hi⟩)
  · intro h
    cases hread : Instant.ofStamp? text with
    | none => rfl
    | some i =>
      obtain ⟨w, hspells, hw, -⟩ := Instant.ofStamp?_eq_some.mp hread
      exact absurd hw (h w hspells)

theorem parse_eq_ok (hnow : now.IsStorable) {text : String} :
    parse text now = .ok i ↔ Says now (trim text).toList i := by
  unfold parse
  dsimp only
  by_cases hword : SpellsNow (trim text).toList
  · rw [if_pos (spellsNow_iff.mpr hword), Except.ok.injEq]
    constructor
    · rintro rfl
      exact .now hword
    · rintro (_ | ⟨hnot, -⟩ | ⟨hnot, -⟩)
      · rfl
      · exact absurd hword hnot
      · exact absurd hword hnot
  · rw [if_neg (spellsNow_iff.not.mpr hword)]
    cases hstamp : Instant.ofStamp? (trim text) with
    | some j =>
      obtain ⟨w, hspells, hw, hj⟩ := Instant.ofStamp?_eq_some.mp hstamp
      dsimp only
      rw [Except.ok.injEq]
      constructor
      · rintro rfl
        exact .instant hword hspells hw hj
      · rintro (h | ⟨-, h, hw', hi⟩ | ⟨-, hnot, -⟩)
        · exact absurd h hword
        · exact Option.some.inj (hstamp.symm.trans (Instant.ofStamp?_eq_some.mpr ⟨_, h, hw', hi⟩))
        · exact absurd hw (hnot w hspells)
    | none =>
      have hinstant := ofStamp?_eq_none.mp hstamp
      dsimp only
      cases hago : ago? (trim text).toList with
      | some a =>
        have hspells := ago?_eq_some.mp hago
        dsimp only
        rw [before_eq_ok hnow]
        constructor
        · rintro ⟨hdigits, hle, hi⟩
          exact .ago hword hinstant hspells hdigits hle hi
        · rintro (h | ⟨-, h, hw, -⟩ | ⟨-, -, h, hdigits, hle, hi⟩)
          · exact absurd h hword
          · exact absurd hw (hinstant _ h)
          · obtain ⟨⟩ := hago.symm.trans (ago?_eq_some.mpr h)
            exact ⟨hdigits, hle, hi⟩
      | none =>
        constructor
        · exact nofun
        · rintro (h | ⟨-, h, hw, -⟩ | ⟨-, -, h, -⟩)
          · exact absurd h hword
          · exact absurd hw (hinstant _ h)
          · cases hago.symm.trans (ago?_eq_some.mpr h)

/-- A moment is read off a text exactly if the trimmed text says one. What is spelled as an instant with a
date and time that there are is one, and what passes the checks of a count never leaves a word or the
calendar. -/
theorem moments_parse (now : Instant) (hnow : 0 ≤ now.date.year ∧ now.date.year ≤ 9999) :
    (∀ text i, parse text now = .ok i ↔ Says now (trim text).toList i) ∧
    (∀ s w, Instant.SpellsInstant s w → w.IsValid → ∃ i, w.Names i) ∧
    ∀ (a : Ago) (n : Nat), readCount 0 a.count = .ok n → ¬largestSpan / a.unit.seconds < n →
      Word.fits n = true ∧ Word.fits (n * a.unit.seconds) = true ∧
        ∃ i, now.addSeconds? (-(n * a.unit.seconds)) = some i ∧ before a now = .ok i := by
  have hstorable := Instant.storable_iff_year.mpr hnow
  exact ⟨fun _ _ => parse_eq_ok hstorable, fun _ _ => Instant.SpellsInstant.exists_names,
    fun _ _ => before_of_guard hstorable⟩

def noon : Instant :=
  .ofSecond 1633089600 (by decide)

def tenOClock : Instant :=
  .ofSecond 1633082400 (by decide)

theorem moments_parse_ten :
    (0 ≤ noon.date.year ∧ noon.date.year ≤ 9999) ∧
    (parse " 2\u2003hours ago" noon = .ok tenOClock ∧
      Says noon (trim " 2\u2003hours ago").toList tenOClock) ∧
    (∀ i, ¬Says noon (trim "\u0662 hours ago").toList i) ∧
    Word.fits (2 * TimeUnit.hour.seconds) = true := by
  have hnoon : 0 ≤ noon.date.year ∧ noon.date.year ≤ 9999 := by decide
  obtain ⟨hparse, -, hguard⟩ := moments_parse noon hnoon
  have hten : parse " 2\u2003hours ago" noon = .ok tenOClock := by
    have hread : (parse " 2\u2003hours ago" noon).toOption = some tenOClock := by decide +kernel
    cases h : parse " 2\u2003hours ago" noon with
    | error g =>
      rw [h] at hread
      cases hread
    | ok i =>
      rw [h] at hread
      exact congrArg Except.ok (Option.some.inj hread)
  refine ⟨hnoon, ⟨hten, (hparse _ _).mp hten⟩, fun i h => ?_, ?_⟩
  · have hread : (parse "\u0662 hours ago" noon).toOption = none := by decide +kernel
    rw [(hparse _ _).mpr h] at hread
    cases hread
  · exact (hguard ⟨['2'], .hour⟩ 2 rfl (by decide)).2.1

end Moment

end Timesheet
