namespace Timesheet.Word

def smallest : Int := -0x8000000000000000

def largest : Int := 0x7fffffffffffffff

def count : Nat := 0x10000000000000000

def largestCount : Nat := 0x7fffffffffffffff

def fits (n : Int) : Bool :=
  smallest ≤ n && n ≤ largest

theorem fits_of_bounds {n : Int} (h : smallest ≤ n) (h' : n ≤ largest) : fits n := by
  rw [fits, Bool.and_eq_true]
  exact ⟨decide_eq_true h, decide_eq_true h'⟩

def wrap (n : Int) : Int :=
  Int.bmod n count

end Timesheet.Word
