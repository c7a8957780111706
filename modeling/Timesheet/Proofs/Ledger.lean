import Timesheet.Proofs.Recount
import Timesheet.Proofs.Table

namespace Timesheet

structure Entry.SameOrigin (a b : Entry) : Prop where
  id : b.id = a.id
  user : b.user = a.user
  createdWith : b.createdWith = a.createdWith
  created : b.created = a.created

/-- What no edit of an entry changes of its row. A time of creation that is not written as a stamp
becomes the stamp of the instant that it is read as. -/
structure EntryRow.SameOrigin (a b : EntryRow) : Prop where
  key : b.key = a.key
  user : Identifier.parse .user b.user = Identifier.parse .user a.user
  createdWith : b.createdWith = a.createdWith
  created : b.created = a.created ∨ ∃ i, Instant.ofStamp? a.created = some i ∧ b.created = i.stamp
  stamped : ∀ i : Instant, a.created = i.stamp → b.created = a.created

section Origins

theorem Entry.SameOrigin.refl (e : Entry) : e.SameOrigin e :=
  ⟨rfl, rfl, rfl, rfl⟩

theorem EntryRow.SameOrigin.refl (r : EntryRow) : r.SameOrigin r :=
  ⟨rfl, rfl, rfl, .inl rfl, fun _ _ => rfl⟩

theorem EntryRow.sameOrigin_ofEntry {r : EntryRow} {e e' : Entry} (h : r.Denotes e)
    (hkey : r.key = .named e.id.text) (he : e.SameOrigin e') : r.SameOrigin (ofEntry e') where
  key := by
    rw [hkey, ← he.id]
    rfl
  user := by
    rw [h.user, ← he.user]
    exact Identifier.parse_text _
  createdWith := he.createdWith.trans h.createdWith.symm
  created := .inr ⟨e.created, h.created, congrArg Instant.stamp he.created⟩
  stamped i hi := by
    -- A stamp is read as its whole second, which has the same stamp.
    have hread := h.created
    rw [hi] at hread
    obtain ⟨-, hwhole⟩ := Instant.ofStamp?_stamp_eq_some.mp hread
    rw [hi, ← Instant.stamp_wholeSecond, hwhole]
    exact congrArg Instant.stamp he.created

theorem Request.sameOrigin_of_edit? {r : Request} {text : String}
    {f : Entry → Except Refusal Entry} {e e' : Entry} (hr : r.edit? = some (text, f))
    (h : f e = .ok e') : e.SameOrigin e' := by
  cases r <;> cases hr
  · obtain ⟨-, -, rfl⟩ := Entry.stopAt_eq_ok.mp (mapError_eq_ok.mp h)
    exact ⟨rfl, rfl, rfl, rfl⟩
  · obtain ⟨-, hid, huser, hwith, hcreated, -⟩ := Entry.applyPatch_eq_ok h
    exact ⟨hid, huser, hwith, hcreated⟩
  · obtain ⟨⟩ := h
    exact ⟨rfl, rfl, rfl, rfl⟩

end Origins

/-- A table of entries with what is kept beside it. -/
structure Ledger (σ : Type) {κ ρ : Type} [Store σ] [KeyOrder κ] [DecidableEq κ] (key : ρ → κ)
    extends EntryTable σ key where
  ForTask : ρ → TaskId → Prop
  ForProject : ρ → ProjectId → Prop
  SameOrigin : ρ → ρ → Prop
  RecountsOnly : (TaskId → Prop) → (ProjectId → Prop) → σ → σ → Prop
  forTask_write (e : Entry) : ForTask (write e) e.task
  forTask_of_reads {r : ρ} {e : Entry} (h : Reads r e) : ForTask r e.task
  forProject_write (e : Entry) : ForProject (write e) e.project
  forProject_of_reads {r : ρ} {e : Entry} (h : Reads r e) : ForProject r e.project
  sameOrigin_refl (r : ρ) : SameOrigin r r
  sameOrigin_write {r : ρ} {e e' : Entry} (h : Reads r e) (hkey : key r = name e.id)
    (he : e.SameOrigin e') : SameOrigin r (write e')
  recounts_refl {T : TaskId → Prop} {P : ProjectId → Prop} (s : σ) : RecountsOnly T P s s
  recounts_trans {T : TaskId → Prop} {P : ProjectId → Prop} {s s' s'' : σ}
    (h : RecountsOnly T P s s') (h' : RecountsOnly T P s' s'') : RecountsOnly T P s s''
  recounts_insert {T : TaskId → Prop} {P : ProjectId → Prop} {s s' : σ} {e : Entry}
    (h : Store.insert s e = .ok s') : RecountsOnly T P s s'
  recounts_replace {T : TaskId → Prop} {P : ProjectId → Prop} {s s' : σ} {e : Entry}
    (h : Store.replace s e = .ok s') : RecountsOnly T P s s'
  recounts_erase {T : TaskId → Prop} {P : ProjectId → Prop} {s s' : σ} {id : EntryId}
    (h : Store.erase s id = .ok s') : RecountsOnly T P s s'
  recounts_tracked {T : TaskId → Prop} {P : ProjectId → Prop} {s s' : σ} {id : TaskId} {n : Int}
    {now : Instant} (hT : T id) (h : Store.writeTracked s id n now = .ok s') : RecountsOnly T P s s'
  recounts_estimate {T : TaskId → Prop} {P : ProjectId → Prop} {s s' : σ} {id : ProjectId}
    {hours : Binary64} {now : Instant} {b : Bool} (hP : P id)
    (h : Store.writeEstimate s id hours now = .ok (b, s')) : RecountsOnly T P s s'

def Memory.ledger : Ledger Memory Entry.id where
  toEntryTable := Memory.table
  ForTask e id := e.task = id
  ForProject e id := e.project = id
  SameOrigin := Entry.SameOrigin
  RecountsOnly := Memory.RecountsOnly
  forTask_write _ := rfl
  forTask_of_reads := by
    rintro e _ rfl
    rfl
  forProject_write _ := rfl
  forProject_of_reads := by
    rintro e _ rfl
    rfl
  sameOrigin_refl := Entry.SameOrigin.refl
  sameOrigin_write := by
    rintro e _ e' rfl - he
    exact he
  recounts_refl _ := recountsOnly_of_eq rfl rfl
  recounts_trans := RecountsOnly.trans
  recounts_insert h := by
    obtain ⟨⟩ := h
    exact recountsOnly_of_eq rfl rfl
  recounts_replace h := by
    obtain ⟨-, rfl⟩ := replace_eq_ok.mp h
    exact recountsOnly_of_eq rfl rfl
  recounts_erase h := by
    obtain ⟨-, rfl⟩ := erase_eq_ok.mp h
    exact recountsOnly_of_eq rfl rfl
  recounts_tracked := recountsOnly_of_writeTracked
  recounts_estimate := recountsOnly_of_writeEstimate

def Database.ledger : Ledger Database EntryRow.key where
  toEntryTable := Database.table
  ForTask r id := Identifier.parse .task r.task = .ok id
  ForProject r id := Identifier.parse .project r.project = .ok id
  SameOrigin := EntryRow.SameOrigin
  RecountsOnly := Database.RecountsOnly
  forTask_write e := Identifier.parse_text e.task
  forTask_of_reads h := h.task
  forProject_write e := Identifier.parse_text e.project
  forProject_of_reads h := h.project
  sameOrigin_refl := EntryRow.SameOrigin.refl
  sameOrigin_write := EntryRow.sameOrigin_ofEntry
  recounts_refl _ := recountsOnly_of_eq rfl rfl
  recounts_trans := RecountsOnly.trans
  recounts_insert h := by
    obtain ⟨-, rfl⟩ := insert_eq_ok.mp h
    exact recountsOnly_of_eq rfl rfl
  recounts_replace h := by
    obtain ⟨-, rfl⟩ := replace_eq_ok.mp h
    exact recountsOnly_of_eq rfl rfl
  recounts_erase h := by
    obtain ⟨-, rfl⟩ := erase_eq_ok.mp h
    exact recountsOnly_of_eq rfl rfl
  recounts_tracked := recountsOnly_of_writeTracked
  recounts_estimate := recountsOnly_of_writeEstimate

namespace Ledger

variable {σ κ ρ : Type} [Store σ] [KeyOrder κ] [DecidableEq κ] {key : ρ → κ} (L : Ledger σ key)
  {T : TaskId → Prop} {P : ProjectId → Prop} {now : Instant} {s s' : σ}

theorem recounts_of_edited {d : Desk σ} {old new : Option Entry} {t : List (σ × Call)}
    (h : Edited now d old new s t) : L.RecountsOnly T P d.store s := by
  cases h with
  | insert hid hwritten h => exact L.recounts_insert h
  | replace hfetch hid hwritten h => exact L.recounts_replace h
  | erase hfetch h => exact L.recounts_erase h

theorem recounts_of_synced {ts : List TaskId} {ps : List ProjectId} {t : List (σ × Call)}
    (h : Synced now s ts ps s' t) (hts : ∀ id ∈ ts, T id) (hps : ∀ id ∈ ps, P id) :
    L.RecountsOnly T P s s' := by
  induction h with
  | done s => exact L.recounts_refl s
  | task hsum hwrite h ih =>
    rw [List.forall_mem_cons] at hts
    exact L.recounts_trans (L.recounts_tracked hts.1 hwrite) (ih hts.2 hps)
  | project hsum hwrite h ih =>
    rw [List.forall_mem_cons] at hps
    exact L.recounts_trans (L.recounts_estimate hps.1 hwrite) (ih hts hps.2)
  | quiet hstore hnone h ih => exact ih hts hps

end Ledger

end Timesheet
