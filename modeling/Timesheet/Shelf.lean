/-!
Shelves: records in ascending order of their keys, one record for a key. The order is part of the
type, so listing a shelf needs no sorting, and two shelves with the same records are equal.
-/

namespace Timesheet

/-- A decidable strict total order of keys. -/
class KeyOrder (κ : Type) where
  before : κ → κ → Bool
  before_irrefl (a : κ) : before a a = false
  before_trans {a b c : κ} : before a b = true → before b c = true → before a c = true
  eq_of_not_before {a b : κ} : before a b = false → before b a = false → a = b

structure Shelf {κ α : Type} [KeyOrder κ] (key : α → κ) where
  items : List α
  ascending : items.Pairwise fun a b => KeyOrder.before (key a) (key b) = true

namespace Shelf

open KeyOrder

variable {κ α : Type} [KeyOrder κ] {key : α → κ}

def place (key : α → κ) (a : α) : List α → List α
  | [] => [a]
  | b :: s =>
    if before (key a) (key b) then a :: b :: s
    else if before (key b) (key a) then b :: place key a s
    else a :: s

theorem mem_place {a c : α} {s : List α} (h : c ∈ place key a s) : c = a ∨ c ∈ s := by
  induction s with
  | nil => simpa [place] using h
  | cons b s ih =>
    unfold place at h
    split at h
    · simpa using h
    · split at h
      · rcases List.mem_cons.mp h with rfl | h
        · simp
        · rcases ih h with rfl | h
          · simp
          · simp [h]
      · rcases List.mem_cons.mp h with rfl | h
        · simp
        · simp [h]

theorem key_eq_of_not_before {a b : α} (hab : ¬before (key a) (key b) = true)
    (hba : ¬before (key b) (key a) = true) : key a = key b :=
  eq_of_not_before (by simpa using hab) (by simpa using hba)

theorem pairwise_place (a : α) {s : List α}
    (h : s.Pairwise fun a b => before (key a) (key b) = true) :
    (place key a s).Pairwise fun a b => before (key a) (key b) = true := by
  induction s with
  | nil => simp [place]
  | cons b s ih =>
    have hb : ∀ c ∈ s, before (key b) (key c) = true := fun _ => List.rel_of_pairwise_cons h
    unfold place
    split
    · rename_i hab
      refine .cons ?_ h
      intro c hc
      rcases List.mem_cons.mp hc with rfl | hc
      · exact hab
      · exact before_trans hab (hb c hc)
    · split
      · rename_i hba
        refine .cons ?_ (ih h.of_cons)
        intro c hc
        rcases mem_place hc with rfl | hc
        · exact hba
        · exact hb c hc
      · rename_i hab hba
        refine .cons ?_ h.of_cons
        intro c hc
        rw [key_eq_of_not_before hab hba]
        exact hb c hc

def empty : Shelf key := ⟨[], .nil⟩

def put (s : Shelf key) (a : α) : Shelf key :=
  ⟨place key a s.items, pairwise_place a s.ascending⟩

variable [DecidableEq κ]

def find? (s : Shelf key) (k : κ) : Option α :=
  s.items.find? fun a => key a = k

def erase (s : Shelf key) (k : κ) : Shelf key :=
  ⟨s.items.filter fun a => key a ≠ k, s.ascending.filter _⟩

def contains (s : Shelf key) (k : κ) : Bool :=
  (s.find? k).isSome

theorem find?_place_self (a : α) (s : List α) :
    (place key a s).find? (fun b => key b = key a) = some a := by
  induction s with
  | nil => simp [place]
  | cons b s ih =>
    unfold place
    split
    · simp
    · split
      · rename_i hba
        have hne : key b ≠ key a := fun e => by
          rw [e, before_irrefl] at hba
          exact absurd hba (by decide)
        simp [hne, ih]
      · simp

theorem find?_place_of_ne {a : α} {k : κ} (h : key a ≠ k) (s : List α) :
    (place key a s).find? (fun b => key b = k) = s.find? fun b => key b = k := by
  induction s with
  | nil => simp [place, h]
  | cons b s ih =>
    unfold place
    split
    · simp [h]
    · split
      · by_cases hb : key b = k <;> simp [hb, ih]
      · rename_i hab hba
        have hb : key b ≠ k := by rwa [← key_eq_of_not_before hab hba]
        simp [h, hb]

@[simp]
theorem find?_put_self (s : Shelf key) (a : α) : (s.put a).find? (key a) = some a :=
  find?_place_self a s.items

theorem find?_put_of_ne (s : Shelf key) {a : α} {k : κ} (h : key a ≠ k) :
    (s.put a).find? k = s.find? k :=
  find?_place_of_ne h s.items

@[simp]
theorem find?_erase_self (s : Shelf key) (k : κ) : (s.erase k).find? k = none := by
  simp [find?, erase]

theorem find?_erase_of_ne (s : Shelf key) {j k : κ} (h : j ≠ k) :
    (s.erase j).find? k = s.find? k := by
  simp only [find?, erase, List.find?_filter]
  congr 1
  funext a
  by_cases ha : key a = k
  · simp [ha, h.symm]
  · simp [ha]

end Shelf
end Timesheet
