/-!
The order of texts: at the first place where two texts differ the smaller code point comes first,
and a text comes before every longer one that begins with it. Texts in UTF-8 are in the same order
byte by byte.
-/

namespace Timesheet.Text

def charsBefore : List Char → List Char → Bool
  | _, [] => false
  | [], _ :: _ => true
  | a :: s, b :: t => if a = b then charsBefore s t else decide (a.toNat < b.toNat)

theorem charsBefore_irrefl (s : List Char) : charsBefore s s = false := by
  induction s with
  | nil => rfl
  | cons a s ih => simp [charsBefore, ih]

theorem charsBefore_trans {s t u : List Char} (hst : charsBefore s t = true)
    (htu : charsBefore t u = true) : charsBefore s u = true := by
  induction s generalizing t u with
  | nil =>
    cases u with
    | nil => cases t <;> simp [charsBefore] at htu
    | cons c u => rfl
  | cons a s ih =>
    cases t with
    | nil => simp [charsBefore] at hst
    | cons b t =>
      cases u with
      | nil => simp [charsBefore] at htu
      | cons c u =>
        unfold charsBefore at hst htu ⊢
        by_cases hab : a = b
        · subst hab
          rw [if_pos rfl] at hst
          by_cases hac : a = c
          · rw [if_pos hac] at htu ⊢
            exact ih hst htu
          · rwa [if_neg hac] at htu ⊢
        · rw [if_neg hab] at hst
          by_cases hbc : b = c
          · subst hbc
            rwa [if_neg hab]
          · rw [if_neg hbc] at htu
            have hlt : a.toNat < c.toNat :=
              Nat.lt_trans (of_decide_eq_true hst) (of_decide_eq_true htu)
            have hac : a ≠ c := by
              rintro rfl
              exact Nat.lt_irrefl _ hlt
            rw [if_neg hac]
            exact decide_eq_true hlt

theorem eq_of_not_charsBefore {s t : List Char} (hst : charsBefore s t = false)
    (hts : charsBefore t s = false) : s = t := by
  induction s generalizing t with
  | nil =>
    cases t with
    | nil => rfl
    | cons b t => simp [charsBefore] at hst
  | cons a s ih =>
    cases t with
    | nil => simp [charsBefore] at hts
    | cons b t =>
      unfold charsBefore at hst hts
      by_cases hab : a = b
      · subst hab
        rw [if_pos rfl] at hst hts
        rw [ih hst hts]
      · rw [if_neg hab] at hst
        rw [if_neg fun h => hab h.symm] at hts
        have heq : a.toNat = b.toNat :=
          Nat.le_antisymm (Nat.le_of_not_lt (of_decide_eq_false hts))
            (Nat.le_of_not_lt (of_decide_eq_false hst))
        exact absurd (Char.toNat_inj.mp heq) hab

def before (s t : String) : Bool :=
  charsBefore s.toList t.toList

def upTo (s t : String) : Bool :=
  !before t s

theorem before_irrefl (s : String) : before s s = false :=
  charsBefore_irrefl s.toList

theorem before_trans {s t u : String} (hst : before s t = true) (htu : before t u = true) :
    before s u = true :=
  charsBefore_trans hst htu

theorem before_asymm {s t : String} (h : before s t = true) : before t s = false := by
  cases hts : before t s with
  | false => rfl
  | true => exact absurd (before_trans h hts) (by simp [before_irrefl])

theorem eq_of_not_before {s t : String} (hst : before s t = false) (hts : before t s = false) :
    s = t :=
  String.toList_inj.mp (eq_of_not_charsBefore hst hts)

end Timesheet.Text
