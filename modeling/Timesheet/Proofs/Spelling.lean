import Timesheet.Proofs.Stamp
import Timesheet.Proofs.Trimming

namespace Timesheet

namespace Text

variable {s : List Char}

theorem foldl_lt (hs : ∀ c ∈ s, c.isDigit = true) (k : Nat) :
    s.foldl (fun n c => 10 * n + digitValue c) k < (k + 1) * 10 ^ s.length := by
  induction s generalizing k with
  | nil => simp
  | cons c s ih =>
    have hc : digitValue c ≤ 9 := by
      have hdigit := hs c List.mem_cons_self
      have hle : c.toNat ≤ '9'.toNat := by
        simp only [Char.isDigit, Bool.and_eq_true, decide_eq_true_eq] at hdigit
        exact hdigit.2
      exact Nat.sub_le_of_le_add hle
    have hrest := ih (fun c hc => hs c (List.mem_cons_of_mem _ hc)) (10 * k + digitValue c)
    calc s.foldl (fun n c => 10 * n + digitValue c) (10 * k + digitValue c)
        < (10 * k + digitValue c + 1) * 10 ^ s.length := hrest
      _ ≤ (10 * (k + 1)) * 10 ^ s.length := Nat.mul_le_mul_right _ (by omega)
      _ = (k + 1) * 10 ^ (s.length + 1) := by ring

theorem numberOf_lt (hs : ∀ c ∈ s, c.isDigit = true) : numberOf s < 10 ^ s.length := by
  have h := foldl_lt hs 0
  rwa [Nat.zero_add, Nat.one_mul] at h

end Text

theorem Date.IsValid.dayNumber_bounds {d : Date} (h : d.IsValid)
    (hyear : 0 ≤ d.year ∧ d.year ≤ 9999) : -719528 ≤ d.dayNumber ∧ d.dayNumber ≤ 2932896 := by
  have hfirst : Date.dayNumber ⟨-1, 12, 31⟩ < d.dayNumber :=
    Date.dayNumber_lt (by decide) h (.inl (by dsimp only; omega))
  have hlast : d.dayNumber < Date.dayNumber ⟨10000, 1, 1⟩ :=
    Date.dayNumber_lt h (by decide) (.inl (by dsimp only; omega))
  have hbefore : Date.dayNumber ⟨-1, 12, 31⟩ = -719529 := by decide
  have hafter : Date.dayNumber ⟨10000, 1, 1⟩ = 2932897 := by decide
  omega

namespace Instant

open Text

variable {α β : Type} {s t : List Char}

structure SpellsNumber (width : Nat) (s : List Char) (n : Nat) : Prop where
  length : s.length = width
  digits : ∀ c ∈ s, c.isDigit = true
  value : numberOf s = n

inductive SpellsFraction : List Char → Nat → Prop
  | none : SpellsFraction [] 0
  | some {ds : List Char} (hne : ds ≠ []) (hdigits : ∀ c ∈ ds, c.isDigit = true) :
      SpellsFraction ('.' :: ds) (numberOf (ds.take 9) * 10 ^ (9 - ds.length))

inductive SpellsSign : Char → Int → Prop
  | plus : SpellsSign '+' 1
  | hyphen : SpellsSign '-' (-1)
  | minus : SpellsSign '\u2212' (-1)

inductive SpellsOffset : List Char → Int → Prop
  | upper : SpellsOffset ['Z'] 0
  | lower : SpellsOffset ['z'] 0
  | signed {sign : Char} {direction : Int} {hours minutes : List Char} {h m : Nat}
      (hsign : SpellsSign sign direction) (hhours : SpellsNumber 2 hours h)
      (hminutes : SpellsNumber 2 minutes m) (hle : m ≤ 59) :
      SpellsOffset (sign :: (hours ++ ':' :: minutes)) (direction * (h * 3600 + m * 60))

/-- The parts of an instant in the strict form. A space may stand for the letter between date and time. -/
inductive SpellsInstant : List Char → Written → Prop
  | mk {year month day hour minute second fraction zone : List Char} {separator : Char}
      {y mo d h mi s nano : Nat} {offset : Int} (hyear : SpellsNumber 4 year y)
      (hmonth : SpellsNumber 2 month mo) (hday : SpellsNumber 2 day d)
      (hseparator : separator = 'T' ∨ separator = 't' ∨ separator = ' ')
      (hhour : SpellsNumber 2 hour h) (hminute : SpellsNumber 2 minute mi)
      (hsecond : SpellsNumber 2 second s) (hfraction : SpellsFraction fraction nano)
      (hzone : SpellsOffset zone offset) :
      SpellsInstant (year ++ '-' :: (month ++ '-' :: (day ++ separator :: (hour ++ ':' ::
        (minute ++ ':' :: (second ++ (fraction ++ zone)))))))
        ⟨⟨y, mo, d⟩, h, mi, s, nano, offset⟩

theorem SpellsNumber.lt {w n : Nat} (h : SpellsNumber w s n) : n < 10 ^ w := by
  obtain ⟨rfl, hdigits, rfl⟩ := h
  exact numberOf_lt hdigits

theorem SpellsFraction.lt {n : Nat} (h : SpellsFraction s n) : n < nanosPerSecond := by
  cases h with
  | none => decide
  | @some ds hne hdigits =>
    have htake : ∀ c ∈ ds.take 9, c.isDigit = true := fun c hc => hdigits c (List.mem_of_mem_take hc)
    have hlength : (ds.take 9).length + (9 - ds.length) = 9 := by
      rw [List.length_take]
      omega
    calc numberOf (ds.take 9) * 10 ^ (9 - ds.length)
        < 10 ^ (ds.take 9).length * 10 ^ (9 - ds.length) :=
          Nat.mul_lt_mul_of_pos_right (numberOf_lt htake) (Nat.pow_pos (by decide))
      _ = 10 ^ 9 := by rw [← Nat.pow_add, hlength]

theorem SpellsOffset.minutes {k : Int} (h : SpellsOffset s k) : k % 60 = 0 := by
  cases h with
  | upper => rfl
  | lower => rfl
  | signed hsign => cases hsign <;> omega

theorem bind_eq_some {r : Reader α} {f : α → Reader β} {x : β × List Char} :
    (r >>= f) s = some x ↔ ∃ a t, r s = some (a, t) ∧ f a t = some x := by
  simp [bind, StateT.bind, Option.bind_eq_some_iff]

theorem number_eq_some {w n : Nat} :
    number w w s = some (n, t) ↔ ∃ ds, SpellsNumber w ds n ∧ s = ds ++ t := by
  unfold number
  constructor
  · intro h
    dsimp only at h
    split at h
    · cases h
    · rename_i hlen
      obtain ⟨⟩ := h
      refine ⟨(s.takeWhile Char.isDigit).take w, ⟨?_, fun c hc => ?_, rfl⟩, ?_⟩
      · have hle := List.length_take_le w (s.takeWhile Char.isDigit)
        omega
      · exact List.all_eq_true.mp List.all_takeWhile c (List.mem_of_mem_take hc)
      · have hprefix : (s.takeWhile Char.isDigit).take w <+: s :=
          (List.take_prefix _ _).trans (List.takeWhile_prefix _)
        exact (List.prefix_iff_eq_append.mp hprefix).symm
  · rintro ⟨ds, ⟨rfl, hdigits, rfl⟩, rfl⟩
    have htake : ((ds ++ t).takeWhile Char.isDigit).take ds.length = ds := by
      rw [List.takeWhile_append_of_pos hdigits]
      exact List.take_left
    simp only [htake, lt_irrefl, ↓reduceIte, List.drop_left]

theorem char_eq_some {c : Char} {u : Unit} : char c s = some (u, t) ↔ s = c :: t := by
  cases s with
  | nil => simp [char]
  | cons d s =>
    rw [char, List.cons.injEq]
    by_cases h : c = d
    · simp [h]
    · simp [h, Ne.symm h]

theorem separator_eq_some {u : Unit} : dateTimeSeparator s = some (u, t) ↔
    ∃ c, (c = 'T' ∨ c = 't' ∨ c = ' ') ∧ s = c :: t := by
  cases s with
  | nil => simp [dateTimeSeparator]
  | cons c s =>
    have hread : (c == 'T' || c == 't' || c == ' ') = true ↔ c = 'T' ∨ c = 't' ∨ c = ' ' := by
      simp only [Bool.or_eq_true, beq_iff_eq, or_assoc]
    rw [dateTimeSeparator]
    by_cases h : c = 'T' ∨ c = 't' ∨ c = ' '
    · rw [if_pos (hread.mpr h)]
      constructor
      · rintro ⟨⟩
        exact ⟨c, h, rfl⟩
      · rintro ⟨d, -, heq⟩
        rw [(List.cons.inj heq).2]
    · rw [if_neg (hread.not.mpr h)]
      constructor
      · exact nofun
      · rintro ⟨d, hd, heq⟩
        exact absurd ((List.cons.inj heq).1 ▸ hd) h

theorem finish_eq_some {u : Unit} : finish s = some (u, t) ↔ s = [] ∧ t = [] := by
  cases s <;> simp [finish, eq_comm]

theorem fraction_eq_some {n : Nat} : fraction s = some (n, t) ↔
    ∃ ds, SpellsFraction ds n ∧ s = ds ++ t ∧
      (ds = [] → t.head? ≠ some '.') ∧ (ds ≠ [] → ∀ c ∈ t.head?, c.isDigit = false) := by
  unfold fraction
  split
  · rename_i s
    have hlength : 9 - ((s.takeWhile Char.isDigit).take 9).length =
        9 - (s.takeWhile Char.isDigit).length := by
      rw [List.length_take]
      omega
    have hempty : (s.takeWhile Char.isDigit).take 9 = [] ↔ s.takeWhile Char.isDigit = [] := by
      simp
    simp only [hlength, hempty, Nat.pow_eq]
    constructor
    · intro h
      split at h
      · cases h
      · obtain ⟨⟩ := h
        obtain ⟨hdigits, hend, hs⟩ := span_iff.mp ⟨rfl, Eq.refl (s.dropWhile Char.isDigit)⟩
        exact ⟨_, .some ‹_› hdigits, congrArg ('.' :: ·) hs, nofun, fun _ => hend⟩
    · rintro ⟨_, ⟨⟩ | @⟨ds, hne, hdigits⟩, hs, hpoint, hend⟩
      · exact absurd (congrArg List.head? hs.symm) (hpoint rfl)
      · obtain ⟨htake, hdrop⟩ := span_iff.mpr ⟨hdigits, hend nofun, (List.cons.inj hs).2⟩
        rw [htake, hdrop, if_neg hne]
  · rename_i hpoint
    constructor
    · rintro ⟨⟩
      refine ⟨[], .none, rfl, fun _ hhead => ?_, fun h => absurd rfl h⟩
      obtain ⟨s, rfl⟩ := List.head?_eq_some_iff.mp hhead
      exact hpoint s rfl
    · rintro ⟨_, ⟨⟩ | ⟨hne, hdigits⟩, rfl, -⟩
      · rfl
      · exact absurd rfl (hpoint _)

theorem sign_eq_some {k : Int} : sign s = some (k, t) ↔ ∃ c, SpellsSign c k ∧ s = c :: t := by
  constructor
  · intro h
    unfold sign at h
    split at h <;> cases h
    · exact ⟨_, .plus, rfl⟩
    · exact ⟨_, .hyphen, rfl⟩
    · exact ⟨_, .minus, rfl⟩
  · rintro ⟨c, hc, rfl⟩
    cases hc <;> rfl

theorem signedOffset_eq_some {k : Int} : signedOffset (char ':') s = some (k, t) ↔
    ∃ sign direction hours minutes h m, SpellsSign sign direction ∧ SpellsNumber 2 hours h ∧
      SpellsNumber 2 minutes m ∧ m ≤ 59 ∧ direction * (h * 3600 + m * 60) = k ∧
      s = sign :: (hours ++ ':' :: (minutes ++ t)) := by
  unfold signedOffset
  simp only [bind_eq_some, sign_eq_some, number_eq_some, char_eq_some]
  constructor
  · rintro ⟨direction, _, ⟨sign, hsign, rfl⟩, h, _, ⟨hours, hhours, rfl⟩, _, _, rfl, m, rest,
      ⟨minutes, hminutes, rfl⟩, hread⟩
    split at hread
    · obtain ⟨⟩ := hread
      exact ⟨sign, direction, hours, minutes, h, m, hsign, hhours, hminutes, ‹_›, rfl, rfl⟩
    · cases hread
  · rintro ⟨sign, direction, hours, minutes, h, m, hsign, hhours, hminutes, hle, rfl, rfl⟩
    refine ⟨direction, _, ⟨sign, hsign, rfl⟩, h, _, ⟨hours, hhours, rfl⟩, (), _, rfl, m, t,
      ⟨minutes, hminutes, rfl⟩, ?_⟩
    rw [if_pos hle]
    rfl

theorem offset_eq_some {k : Int} : offset (char ':') s = some (k, t) ↔
    ∃ zone, SpellsOffset zone k ∧ s = zone ++ t := by
  constructor
  · intro h
    unfold offset at h
    split at h
    · obtain ⟨⟩ := h
      exact ⟨_, .upper, rfl⟩
    · obtain ⟨⟩ := h
      exact ⟨_, .lower, rfl⟩
    · obtain ⟨sign, direction, hours, minutes, h, m, hsign, hhours, hminutes, hle, rfl, rfl⟩ :=
        signedOffset_eq_some.mp h
      exact ⟨_, .signed hsign hhours hminutes hle, by simp⟩
  · rintro ⟨_, ⟨⟩ | ⟨⟩ | @⟨sign, direction, hours, minutes, h, m, hsign, hhours, hminutes, hle⟩, rfl⟩
    · rfl
    · rfl
    · have hread := signedOffset_eq_some.mpr
        ⟨sign, direction, hours, minutes, h, m, hsign, hhours, hminutes, hle, rfl, Eq.refl
          (sign :: (hours ++ ':' :: (minutes ++ t)))⟩
      rw [List.cons_append, List.append_assoc, List.cons_append]
      cases hsign <;> exact hread

theorem SpellsOffset.head {zone : List Char} {k : Int} (h : SpellsOffset zone k) :
    ∃ c s, zone = c :: s ∧ c.isDigit = false ∧ c ≠ '.' := by
  cases h with
  | upper => exact ⟨_, _, rfl, rfl, by decide⟩
  | lower => exact ⟨_, _, rfl, rfl, by decide⟩
  | signed hsign hhours hminutes hle => cases hsign <;> exact ⟨_, _, rfl, rfl, by decide⟩

theorem strict_eq_some {w : Written} : strict s = some (w, t) ↔ SpellsInstant s w ∧ t = [] := by
  unfold strict
  simp only [bind_eq_some, number_eq_some, char_eq_some, separator_eq_some, fraction_eq_some,
    offset_eq_some, finish_eq_some]
  constructor
  · rintro ⟨y, _, ⟨year, hyear, rfl⟩, _, _, rfl, mo, _, ⟨month, hmonth, rfl⟩, _, _, rfl, d, _,
      ⟨day, hday, rfl⟩, _, _, ⟨separator, hseparator, rfl⟩, h, _, ⟨hour, hhour, rfl⟩, _, _, rfl, mi, _,
      ⟨minute, hminute, rfl⟩, _, _, rfl, s, _, ⟨second, hsecond, rfl⟩, nano, _,
      ⟨fraction, hfraction, rfl, -⟩, k, _, ⟨zone, hzone, rfl⟩, _, _, ⟨rfl, rfl⟩, ⟨⟩⟩
    rw [List.append_nil]
    exact ⟨.mk hyear hmonth hday hseparator hhour hminute hsecond hfraction hzone, rfl⟩
  · rintro ⟨@⟨year, month, day, hour, minute, second, fraction, zone, separator, y, mo, d, h, mi, s, nano,
      k, hyear, hmonth, hday, hseparator, hhour, hminute, hsecond, hfraction, hzone⟩, rfl⟩
    obtain ⟨c, rest, hzonehead, hdigit, hpoint⟩ := hzone.head
    have hends : (fraction = [] → zone.head? ≠ some '.') ∧
        (fraction ≠ [] → ∀ c ∈ zone.head?, c.isDigit = false) := by
      subst hzonehead
      refine ⟨fun _ heq => hpoint (Option.some.inj heq), fun _ c hc => ?_⟩
      obtain ⟨⟩ := hc
      exact hdigit
    exact ⟨y, _, ⟨year, hyear, rfl⟩, (), _, rfl, mo, _, ⟨month, hmonth, rfl⟩, (), _, rfl, d, _,
      ⟨day, hday, rfl⟩, (), _, ⟨separator, hseparator, rfl⟩, h, _, ⟨hour, hhour, rfl⟩, (), _, rfl, mi, _,
      ⟨minute, hminute, rfl⟩, (), _, rfl, s, _, ⟨second, hsecond, rfl⟩, nano, _,
      ⟨fraction, hfraction, rfl, hends⟩, k, _, ⟨zone, hzone, (List.append_nil zone).symm⟩, (), _,
      ⟨rfl, rfl⟩, rfl⟩

namespace Written

/-- There is such a date, and such a time of day on a clock that may show a leap second in any minute. -/
structure IsValid (w : Written) : Prop where
  date : w.date.IsValid
  hour : w.hour ≤ 23
  minute : w.minute ≤ 59
  second : w.second ≤ 60
  offset : w.offset.natAbs < 86400

/-- What is written down names an instant. A leap second is the last second of its minute, with a
nanosecond field of one second or more. -/
structure Names (w : Written) (i : Instant) : Prop where
  second : i.second = w.date.dayNumber * secondsPerDay + w.hour * 3600 + w.minute * 60 +
    min w.second 59 - w.offset
  nano : i.nano = w.nano + if w.second = 60 then nanosPerSecond else 0

theorem instant?_eq_some {w : Written} {i : Instant} (hyear : 0 ≤ w.date.year ∧ w.date.year ≤ 9999) :
    w.instant? = some i ↔ w.IsValid ∧ w.Names i := by
  have hnames : w.Names i ↔ i.second = w.date.dayNumber * secondsPerDay + w.hour * 3600 +
      w.minute * 60 + min w.second 59 - w.offset ∧
        i.nano = w.nano + if w.second = 60 then nanosPerSecond else 0 :=
    ⟨fun h => ⟨h.second, h.nano⟩, fun h => ⟨h.1, h.2⟩⟩
  unfold instant?
  constructor
  · intro h
    split at h
    · rename_i hw
      obtain ⟨hdate, -, -, hhour, hminute, hsecond, hoffset⟩ := hw
      refine ⟨⟨hdate, hhour, hminute, hsecond, hoffset⟩, hnames.mpr ?_⟩
      dsimp only at h
      split_ifs at h with hleap <;> rw [of?_eq_some] at h
      · rw [if_pos hleap]
        omega
      · rw [if_neg hleap]
        omega
    · cases h
  · rintro ⟨hw, h⟩
    obtain ⟨hsecond, hnano⟩ := hnames.mp h
    have hle := hw.second
    rw [if_pos ⟨hw.date, by omega, by omega, hw.hour, hw.minute, hw.second, hw.offset⟩]
    dsimp only
    split_ifs at hnano ⊢ with hleap <;> rw [of?_eq_some] <;> omega

end Written

namespace SpellsInstant

variable {w : Written}

theorem year (h : SpellsInstant s w) : 0 ≤ w.date.year ∧ w.date.year ≤ 9999 := by
  cases h with
  | mk hyear =>
    have hlt := hyear.lt
    dsimp only
    omega

theorem nano_lt (h : SpellsInstant s w) : w.nano < nanosPerSecond := by
  cases h with
  | mk _ _ _ _ _ _ _ hfraction => exact hfraction.lt

theorem offset_minutes (h : SpellsInstant s w) : w.offset % 60 = 0 := by
  cases h with
  | mk _ _ _ _ _ _ _ _ hzone => exact hzone.minutes

theorem exists_names (h : SpellsInstant s w) (hw : w.IsValid) : ∃ i, w.Names i := by
  obtain ⟨hfirst, hlast⟩ := hw.date.dayNumber_bounds h.year
  have hnano := h.nano_lt
  have hoffset := hw.offset
  have hwhole := h.offset_minutes
  have hhour := hw.hour
  have hminute := hw.minute
  refine ⟨⟨_, _, ?_, ?_, ?_, ?_⟩, rfl, rfl⟩
  · unfold firstSecond secondsPerDay
    omega
  · unfold lastSecond secondsPerDay
    omega
  · split_ifs <;> omega
  · unfold secondsPerDay
    split_ifs <;> omega

end SpellsInstant

theorem ofStamp?_eq_some {text : String} {i : Instant} : ofStamp? text = some i ↔
    ∃ w, SpellsInstant text.toList w ∧ w.IsValid ∧ w.Names i := by
  have hrun : strict.run' text.toList = Prod.fst <$> strict text.toList := rfl
  unfold ofStamp?
  rw [hrun, Option.bind_eq_some_iff]
  constructor
  · rintro ⟨w, hw, hi⟩
    obtain ⟨⟨w, t⟩, hread, rfl⟩ := Option.map_eq_some_iff.mp hw
    obtain ⟨hspells, rfl⟩ := strict_eq_some.mp hread
    exact ⟨w, hspells, (Written.instant?_eq_some hspells.year).mp hi⟩
  · rintro ⟨w, hspells, hi⟩
    refine ⟨w, Option.map_eq_some_iff.mpr ⟨(w, []), strict_eq_some.mpr ⟨hspells, rfl⟩, rfl⟩, ?_⟩
    exact (Written.instant?_eq_some hspells.year).mpr hi

end Instant

end Timesheet
