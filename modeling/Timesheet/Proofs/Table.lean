import Timesheet.Proofs.View

namespace Timesheet

variable {σ κ ρ : Type} [KeyOrder κ] [DecidableEq κ] {key : ρ → κ}

structure EntryTable (σ : Type) [Store σ] (key : ρ → κ) extends EntryView σ (Shelf key) where
  name : EntryId → κ
  write : Entry → ρ
  Reads : ρ → Entry → Prop
  name_inj {id id' : EntryId} : name id = name id' ↔ id = id'
  key_write (e : Entry) : key (write e) = name e.id
  put_eq (e : Entry) (t : Shelf key) : put e t = t.put (write e)
  erase_eq (id : EntryId) (t : Shelf key) : erase id t = t.erase (name id)
  lacks_iff {t : Shelf key} {id : EntryId} : Lacks t id ↔ t.find? (name id) = none
  reads_of_fetch {s : σ} {id : EntryId} {e : Entry} (h : Store.fetch s id = .ok e) :
    ∃ r, (entries s).find? (name id) = some r ∧ Reads r e

def Memory.table : EntryTable Memory Entry.id where
  toEntryView := Memory.view
  name id := id
  write e := e
  Reads r e := r = e
  name_inj := Iff.rfl
  key_write _ := rfl
  put_eq _ _ := rfl
  erase_eq _ _ := rfl
  lacks_iff := Iff.rfl
  reads_of_fetch h := ⟨_, found_eq_ok.mp h, rfl⟩

def Database.table : EntryTable Database EntryRow.key where
  toEntryView := Database.view
  name id := .named id.text
  write := EntryRow.ofEntry
  Reads := EntryRow.Denotes
  name_inj := by
    intro id id'
    rw [RowKey.named.injEq, Identifier.text_inj]
  key_write _ := rfl
  put_eq _ _ := rfl
  erase_eq _ _ := rfl
  lacks_iff := Iff.rfl
  reads_of_fetch h := fetch_eq_ok.mp h

namespace EntryTable

variable [Store σ] (T : EntryTable σ key) {t : Shelf key} {e : Entry} {id k : EntryId}

theorem find?_put_self (t : Shelf key) (e : Entry) :
    (T.put e t).find? (T.name e.id) = some (T.write e) := by
  rw [T.put_eq, ← T.key_write]
  exact t.find?_put_self _

theorem find?_put_of_ne (t : Shelf key) {k : κ} (h : T.name e.id ≠ k) :
    (T.put e t).find? k = t.find? k := by
  rw [T.put_eq]
  exact t.find?_put_of_ne (T.key_write e ▸ h)

theorem find?_erase_self (t : Shelf key) (id : EntryId) :
    (T.erase id t).find? (T.name id) = none := by
  rw [T.erase_eq]
  exact t.find?_erase_self _

theorem find?_erase_of_ne (t : Shelf key) {k : κ} (h : T.name id ≠ k) :
    (T.erase id t).find? k = t.find? k := by
  rw [T.erase_eq]
  exact t.find?_erase_of_ne h

end EntryTable

end Timesheet
