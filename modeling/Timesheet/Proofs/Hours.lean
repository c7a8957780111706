import Mathlib.Tactic
import Timesheet.Record

namespace Timesheet

namespace Binary64

/-- The number without the sign of a zero, which a column of floats does not keep. -/
def unsigned (x : Binary64) : Binary64 :=
  if x.significand = 0 then zero else x

theorem magnitude_le (num den : Nat) : magnitude num den ≤ 2047 * hidden := by
  unfold magnitude
  split
  · exact Nat.zero_le _
  · exact Nat.min_le_right _ _

theorem round_toNat (q : SignedRatio) : (round q).bits.toNat =
    magnitude q.num q.den + if q.negative then 0x8000000000000000 else 0 := by
  have h := magnitude_le q.num q.den
  unfold round hidden at *
  rw [UInt64.toNat_ofNat']
  apply Nat.mod_eq_of_lt
  split <;> omega

theorem round_isNaN (q : SignedRatio) : (round q).isNaN = false := by
  have h := magnitude_le q.num q.den
  unfold isNaN isFinite exponentField fractionField
  rw [round_toNat]
  unfold hidden at *
  generalize magnitude q.num q.den = m at *
  by_cases hm : m = 2047 * 0x10000000000000
  · subst hm
    cases q.negative <;> decide
  · have hfield : (m + if q.negative then 0x8000000000000000 else 0) / 0x10000000000000 % 2048 ≠
        2047 := by
      split <;> omega
    simp [hfield]

theorem round_isNegative (q : SignedRatio) : (round q).isNegative = q.negative := by
  have h := magnitude_le q.num q.den
  unfold isNegative
  rw [round_toNat]
  unfold hidden at h
  cases q.negative
  · rw [beq_eq_false_iff_ne]
    simp only [Bool.false_eq_true, ↓reduceIte]
    omega
  · rw [beq_iff_eq]
    simp only [↓reduceIte]
    omega

theorem scaled_negative (negative : Bool) (n : Nat) (e : Int) :
    (scaled negative n e).negative = negative := by
  unfold scaled
  split <;> rfl

theorem unsigned_of_not_isNegative {x : Binary64} (h : x.isNegative = false) : x.unsigned = x := by
  unfold unsigned
  split
  · rename_i hzero
    have hlt := x.bits.toNat_lt
    unfold isNegative at h
    rw [beq_eq_false_iff_ne] at h
    unfold significand at hzero
    have hbits : x.bits.toNat = 0 := by
      split at hzero
      · unfold exponentField fractionField hidden at *
        omega
      · unfold hidden at hzero
        omega
    obtain ⟨bits⟩ := x
    exact congrArg Binary64.mk (UInt64.toNat_inj.mp hbits).symm
  · rfl

end Binary64

theorem hoursOfSeconds_isNaN (n : Int) : (hoursOfSeconds n).isNaN = false :=
  Binary64.round_isNaN _

theorem hoursOfSeconds_unsigned {n : Int} (h : 0 ≤ n) :
    (hoursOfSeconds n).unsigned = hoursOfSeconds n := by
  apply Binary64.unsigned_of_not_isNegative
  have hn : (Binary64.ofInt n).isNegative = false := by
    rw [Binary64.ofInt, Binary64.round_isNegative]
    simpa using h
  have hd : (Binary64.ofNat 3600).isNegative = false := Binary64.round_isNegative _
  unfold hoursOfSeconds Binary64.div
  rw [Binary64.round_isNegative]
  simp only [Binary64.quotient, Binary64.scaled_negative, hn, hd, bne_self_eq_false]

end Timesheet
