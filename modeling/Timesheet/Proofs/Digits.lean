import Mathlib.Tactic
import Timesheet.Text.Digit
import Timesheet.Text.Order

namespace Timesheet.Text

theorem charsBefore_append {s t x y : List Char} (h : s.length = t.length) :
    charsBefore (s ++ x) (t ++ y) = if s = t then charsBefore x y else charsBefore s t := by
  induction s generalizing t with
  | nil =>
    rw [List.eq_nil_of_length_eq_zero h.symm]
    simp
  | cons a s ih =>
    cases t with
    | nil => simp at h
    | cons b t =>
      simp only [List.cons_append, charsBefore, List.cons.injEq]
      by_cases hab : a = b
      · simp only [hab, ↓reduceIte, true_and]
        exact ih (by simpa using h)
      · simp [hab]

theorem charsBefore_positional (b : Nat) (digit : Nat → Char) (fixed : Nat → Nat → List Char)
    (hdigit : ∀ i < b, ∀ j < b, (digit i).toNat < (digit j).toNat ↔ i < j) (hb : 0 < b)
    (hzero : ∀ n, fixed 0 n = [])
    (hsucc : ∀ w n, fixed (w + 1) n = digit (n / b ^ w % b) :: fixed w n)
    (w m n : Nat) (s t : List Char) :
    charsBefore (fixed w m ++ s) (fixed w n ++ t) =
      if m % b ^ w = n % b ^ w then charsBefore s t else decide (m % b ^ w < n % b ^ w) := by
  induction w with
  | zero => simp [hzero, Nat.mod_one]
  | succ w ih =>
    have hm := Nat.mod_lt (m / b ^ w) hb
    have hn := Nat.mod_lt (n / b ^ w) hb
    have hmw := Nat.mod_lt m (pow_pos hb w)
    have hnw := Nat.mod_lt n (pow_pos hb w)
    have hlt := hdigit _ hm _ hn
    have hgt := hdigit _ hn _ hm
    rw [hsucc, hsucc, Nat.mod_pow_succ, Nat.mod_pow_succ, List.cons_append, List.cons_append,
      charsBefore, ih]
    generalize m / b ^ w % b = i at *
    generalize n / b ^ w % b = j at *
    generalize m % b ^ w = k at *
    generalize n % b ^ w = l at *
    rcases lt_trichotomy i j with hij | rfl | hij
    · have hne : digit i ≠ digit j := fun e => by
        rw [e] at hlt
        omega
      have hstep : b ^ w * (i + 1) ≤ b ^ w * j := Nat.mul_le_mul_left _ hij
      rw [Nat.mul_add] at hstep
      rw [if_neg hne, if_neg (by omega)]
      exact decide_eq_decide.mpr ⟨fun _ => by omega, fun _ => hlt.mpr hij⟩
    · simp
    · have hne : digit i ≠ digit j := fun e => by
        rw [e] at hgt
        omega
      have hstep : b ^ w * (j + 1) ≤ b ^ w * i := Nat.mul_le_mul_left _ hij
      rw [Nat.mul_add] at hstep
      rw [if_neg hne, if_neg (by omega)]
      exact decide_eq_decide.mpr ⟨fun _ => by omega, fun _ => by omega⟩

theorem digitChar_toNat (n : Nat) : (digitChar n).toNat = 48 + n % 10 := by
  have h : n % 10 < 10 := Nat.mod_lt _ (by decide)
  unfold digitChar
  generalize n % 10 = d at h
  interval_cases d <;> rfl

@[simp]
theorem digitValue_digitChar (n : Nat) : digitValue (digitChar n) = n % 10 := by
  unfold digitValue
  rw [digitChar_toNat]
  exact Nat.add_sub_cancel_left 48 (n % 10)

@[simp]
theorem digitChar_isDigit (n : Nat) : (digitChar n).isDigit = true := by
  have h : n % 10 < 10 := Nat.mod_lt _ (by decide)
  unfold digitChar
  generalize n % 10 = d at h
  interval_cases d <;> rfl

@[simp]
theorem fixedDigits_length (w n : Nat) : (fixedDigits w n).length = w := by
  induction w with
  | zero => rfl
  | succ w ih => simp [fixedDigits, ih]

theorem isDigit_of_mem_fixedDigits {w n : Nat} {c : Char} (h : c ∈ fixedDigits w n) :
    c.isDigit = true := by
  induction w with
  | zero => simp [fixedDigits] at h
  | succ w ih =>
    rcases List.mem_cons.mp h with rfl | h
    · exact digitChar_isDigit _
    · exact ih h

theorem foldl_fixedDigits (w n k : Nat) :
    (fixedDigits w n).foldl (fun n c => 10 * n + digitValue c) k = k * 10 ^ w + n % 10 ^ w := by
  induction w generalizing k with
  | zero => simp [fixedDigits, Nat.mod_one]
  | succ w ih =>
    rw [fixedDigits, List.foldl_cons, ih, digitValue_digitChar, Nat.pow_eq, Nat.mod_pow_succ]
    ring

theorem numberOf_fixedDigits (w n : Nat) : numberOf (fixedDigits w n) = n % 10 ^ w := by
  unfold numberOf
  rw [foldl_fixedDigits]
  simp

theorem isDigit_of_mem_digits {n : Nat} {c : Char} (h : c ∈ digits n) : c.isDigit = true :=
  Nat.isDigit_of_mem_toDigits (by decide) (by decide) h

theorem numberOf_digits (n : Nat) : numberOf (digits n) = n :=
  Nat.ofDigitChars_ten_toDigits

theorem numberOf_padStart (w n : Nat) : numberOf (padStart w '0' (digits n)) = n := by
  change Nat.ofDigitChars 10 (padStart w '0' (digits n)) 0 = n
  rw [padStart, Nat.ofDigitChars_append, Nat.ofDigitChars_replicate_zero, Nat.mul_zero]
  exact numberOf_digits n

theorem isDigit_of_mem_padStart {w n : Nat} {c : Char} (h : c ∈ padStart w '0' (digits n)) :
    c.isDigit = true := by
  rcases List.mem_append.mp h with h | h
  · rw [List.eq_of_mem_replicate h]
    rfl
  · exact isDigit_of_mem_digits h

theorem head?_digits_of_pos {n : Nat} (h : 0 < n) : (digits n).head? ≠ some '0' := by
  induction n using Nat.strongRecOn with
  | _ n ih =>
    unfold digits
    rw [Nat.toDigits_eq_if (by decide)]
    split
    · interval_cases n <;> decide
    · rw [List.head?_append_of_ne_nil _ Nat.toDigits_ne_nil]
      exact ih (n / 10) (by omega) (by omega)

theorem eq_nil_of_digits_eq_cons {n : Nat} {s : List Char} (h : digits n = '0' :: s) : s = [] := by
  rcases Nat.eq_zero_or_pos n with rfl | hn
  · exact (List.cons.inj h).2.symm
  · exact absurd (congrArg List.head? h) (head?_digits_of_pos hn)

theorem charsBefore_fixedDigits {w m n : Nat} (hm : m < 10 ^ w) (hn : n < 10 ^ w)
    (s t : List Char) : charsBefore (fixedDigits w m ++ s) (fixedDigits w n ++ t) =
      if m = n then charsBefore s t else decide (m < n) := by
  have h := charsBefore_positional 10 digitChar fixedDigits
    (fun i hi j hj => by rw [digitChar_toNat, digitChar_toNat]; omega) (by decide) (fun _ => rfl)
    (fun w n => by simp [fixedDigits, digitChar]) w m n s t
  rwa [Nat.mod_eq_of_lt hm, Nat.mod_eq_of_lt hn] at h

theorem hexValue?_hexDigit {n : Nat} (h : n < 16) : hexValue? (hexDigit n) = some n := by
  interval_cases n <;> rfl

@[simp]
theorem fixedHex_length (w n : Nat) : (fixedHex w n).length = w := by
  induction w with
  | zero => rfl
  | succ w ih => simp [fixedHex, ih]

theorem readHex?_fixedHex (w n k : Nat) :
    readHex? k (fixedHex w n) = some (k * 16 ^ w + n % 16 ^ w) := by
  induction w generalizing k with
  | zero => simp [fixedHex, readHex?, Nat.mod_one]
  | succ w ih =>
    rw [fixedHex, readHex?, hexValue?_hexDigit (Nat.mod_lt _ (by decide)), Option.bind_some, ih,
      Nat.pow_eq, Nat.mod_pow_succ]
    congr 1
    ring

theorem hexDigit_toNat_lt {i j : Nat} (hi : i < 16) (hj : j < 16) :
    (hexDigit i).toNat < (hexDigit j).toNat ↔ i < j := by
  interval_cases i <;> interval_cases j <;> decide

theorem charsBefore_fixedHex {w m n : Nat} (hm : m < 16 ^ w) (hn : n < 16 ^ w) :
    charsBefore (fixedHex w m) (fixedHex w n) = decide (m < n) := by
  have h := charsBefore_positional 16 hexDigit fixedHex
    (fun i hi j hj => hexDigit_toNat_lt hi hj) (by decide) (fun _ => rfl) (fun _ _ => rfl)
    w m n [] []
  rw [Nat.mod_eq_of_lt hm, Nat.mod_eq_of_lt hn, List.append_nil, List.append_nil] at h
  rw [h]
  split
  · simp [charsBefore, *]
  · rfl

end Timesheet.Text
