import Timesheet.Validation

namespace Timesheet

structure Page where
  number : Nat
  size : Nat
  one_le_number : 1 ≤ number
  one_le_size : 1 ≤ size
  deriving DecidableEq

namespace Page

/-- A zero page number is reported before a zero size. -/
def of (number size : Nat) : Except Invalid Page :=
  if hn : 1 ≤ number then
    if hs : 1 ≤ size then .ok ⟨number, size, hn, hs⟩ else .error (.belowOne .pageSize)
  else .error (.belowOne .page)

def first : Page := ⟨1, 50, by decide, by decide⟩

def single : Page := ⟨1, 1, by decide, by decide⟩

def offset (p : Page) : Nat :=
  (p.number - 1) * p.size

def select {α : Type} (p : Page) (s : List α) : List α :=
  (s.drop p.offset).take p.size

end Page
end Timesheet
