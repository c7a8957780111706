import Timesheet.Shelf
import Timesheet.Text.Blank
import Timesheet.Text.Order

/-!
Tags of an entry: a set of texts in ascending order. Tags that a caller supplies are trimmed first,
and blank ones are dropped.
-/

namespace Timesheet

instance : KeyOrder String where
  before := Text.before
  before_irrefl := Text.before_irrefl
  before_trans := Text.before_trans
  eq_of_not_before := Text.eq_of_not_before

instance {κ α : Type} [KeyOrder κ] [DecidableEq α] {key : α → κ} : DecidableEq (Shelf key) :=
  fun s t => decidable_of_iff (s.items = t.items) (by cases s; cases t; simp)

abbrev TagSet := Shelf (id : String → String)

namespace TagSet

def ofList (tags : List String) : TagSet :=
  tags.foldl Shelf.put Shelf.empty

def normalize (tags : List String) : TagSet :=
  ofList ((tags.map Text.trim).filter fun t => t ≠ "")

def union (s t : TagSet) : TagSet :=
  t.items.foldl Shelf.put s

def diff (s t : TagSet) : TagSet :=
  ⟨s.items.filter fun x => !t.contains x, s.ascending.filter _⟩

end TagSet

inductive TagMode where
  | add
  | remove
  deriving DecidableEq

namespace TagMode

def text : TagMode → String
  | add => "add"
  | remove => "remove"

def parse? (s : String) : Option TagMode :=
  if s = "add" then some add else if s = "remove" then some remove else none

def apply (mode : TagMode) (s supplied : TagSet) : TagSet :=
  match mode with
  | add => s.union supplied
  | remove => s.diff supplied

end TagMode
end Timesheet
