import Timesheet.Proofs.Atomic
import Timesheet.Proofs.Frame

/-!
Entries that are added where one is stored already. The database refuses the second one and keeps the
first; the other store puts the second one over the first.
-/

namespace Timesheet

open Service

namespace Request

variable {σ : Type} [Store σ] {policy : Policy} {now : Instant} {d : Desk σ} {r : Request} {e : Entry}

theorem insert_of_fails {f : ServiceFault} (hmade : r.Makes policy d none (some e))
    (h : r.Fails policy d f) :
    ∃ g, Store.insert d.store e = .error g ∧ f = .store .insertEntry g := by
  cases hmade with
  | create howner hentry =>
    cases h with
    | unowned hr howner' =>
      obtain ⟨⟩ := hr
      cases howner.symm.trans howner'
    | uncreated howner' h =>
      obtain ⟨⟩ := howner.symm.trans howner'
      cases hentry.symm.trans h
    | uninserted hmade' h =>
      obtain ⟨-, ⟨⟩⟩ := hmade'.unique (.create howner hentry)
      exact ⟨_, h, rfl⟩
    | unsaved hmade' h => cases (hmade'.unique (.create howner hentry)).1
    | unedited hr => cases hr
    | unnamed hr => cases hr
    | unloaded hr => cases hr
  | start howner hfields hfree =>
    cases h with
    | unowned hr howner' =>
      obtain ⟨⟩ := hr
      cases howner.symm.trans howner'
    | unstarted howner' h => cases hfields.symm.trans h
    | unlisted hpolicy howner' hfields' h =>
      obtain ⟨⟩ := howner.symm.trans howner'
      cases (hfree hpolicy).symm.trans h
    | busy hpolicy howner' hfields' h =>
      obtain ⟨⟩ := howner.symm.trans howner'
      cases (hfree hpolicy).symm.trans h
    | uninserted hmade' h =>
      obtain ⟨-, ⟨⟩⟩ := hmade'.unique (.start howner hfields hfree)
      exact ⟨_, h, rfl⟩
    | unsaved hmade' h => cases (hmade'.unique (.start howner hfields hfree)).1
    | unedited hr => cases hr
    | unnamed hr => cases hr
    | unloaded hr => cases hr

theorem operation?_of_owner? (policy : Policy) (hr : r.owner?.isSome = true) :
    ∃ op, r.operation? policy = some op := by
  cases r <;> first | exact ⟨_, rfl⟩ | cases hr

theorem add_refused {g : StoreFault} (hmade : r.Makes policy d none (some e))
    (hinsert : Store.insert d.store e = .error g) :
    ((r.program policy).run d).1 = .entry (.error (.store .insertEntry g)) ∧
      ((r.program policy).run d).2.store = d.store := by
  obtain ⟨now, hnow, -⟩ := r.exists_clock
  obtain ⟨op, hop⟩ := operation?_of_owner? policy hmade.inserted.1
  have hnot {new : Option Entry} {s : σ} {t : List (σ × Call)} {old : Option Entry}
      (h : r.Makes policy d old new) (hs : Edited now d old new s t) : False := by
    obtain ⟨rfl, rfl⟩ := h.unique hmade
    cases hs with
    | insert hid hwritten h => cases hinsert.symm.trans h
  rw [program_of_operation? hop, Program.run_map]
  cases performed (d := d) hop hnow with
  | failed hfails hran hstore hquiet =>
    obtain ⟨g', hg, rfl⟩ := insert_of_fails hmade hfails
    obtain ⟨⟩ := hinsert.symm.trans hg
    rw [hran.run]
    exact ⟨rfl, hstore⟩
  | kept hmade' he h hsame hquiet hran => exact (hnot hmade' h).elim
  | synced hmade' he h htasks hprojects hsync ha hran => exact (hnot hmade' h).elim

theorem add_failed (hr : r.owner?.isSome = true) (h : ∀ e, ¬r.Makes policy d none (some e)) :
    (∃ f, ((r.program policy).run d).1 = .entry (.error f) ∧ ¬f.IsStale) ∧
      ((r.program policy).run d).2.store = d.store := by
  obtain ⟨now, hnow, -⟩ := r.exists_clock
  obtain ⟨op, hop⟩ := operation?_of_owner? policy hr
  have hnot {old new : Option Entry} (hmade : r.Makes policy d old new) : False := by
    obtain ⟨rfl, e, rfl⟩ := hmade.of_owner? hr
    exact h e hmade
  rw [program_of_operation? hop, Program.run_map]
  cases performed (d := d) hop hnow with
  | failed hfails hran hstore hquiet =>
    rw [hran.run]
    exact ⟨⟨_, rfl, hfails.not_isStale⟩, hstore⟩
  | kept hmade he h hsame hquiet hran => exact (hnot hmade).elim
  | synced hmade he h htasks hprojects hsync ha hran => exact (hnot hmade).elim

end Request

theorem EntryView.add_answered {σ τ : Type} [Store σ] (V : EntryView σ τ) {policy : Policy}
    {d : Desk σ} {r : Request} {e : Entry} {s : σ} (hmade : r.Makes policy d none (some e))
    (hinsert : Store.insert d.store e = .ok s) :
    (((r.program policy).run d).1 = .entry (.ok e) ∨
      ∃ cause, ((r.program policy).run d).1 = .entry (.error (.stale e.id cause))) ∧
      V.entries ((r.program policy).run d).2.store = V.put e (V.entries d.store) := by
  obtain ⟨now, hnow, -⟩ := r.exists_clock
  obtain ⟨op, hop⟩ := Request.operation?_of_owner? policy hmade.inserted.1
  rw [Request.program_of_operation? hop, Program.run_map]
  cases Request.performed (d := d) hop hnow with
  | failed hfails hran hstore hquiet =>
    obtain ⟨g, hg, -⟩ := Request.insert_of_fails hmade hfails
    cases hinsert.symm.trans hg
  | kept hmade' he h hsame hquiet hran =>
    obtain ⟨rfl, rfl⟩ := hmade'.unique hmade
    obtain ⟨⟩ := he
    rw [hran.run]
    exact ⟨.inl rfl, V.entries_of_edited h⟩
  | synced hmade' he h htasks hprojects hsync ha hran =>
    obtain ⟨rfl, rfl⟩ := hmade'.unique hmade
    obtain ⟨⟩ := he
    rw [hran.run]
    refine ⟨?_, (V.entries_of_synced hsync).trans (V.entries_of_edited h)⟩
    rcases ha with ⟨rfl, -⟩ | ⟨cause, rfl⟩
    · exact .inl rfl
    · exact .inr ⟨cause, rfl⟩

namespace Shelf

variable {κ α : Type} [KeyOrder κ] [DecidableEq κ] {key : α → κ} {s t : Shelf key}

def Keeps (s t : Shelf key) : Prop :=
  ∀ k a, s.find? k = some a → t.find? k = some a

theorem keeps_of_eq (h : t = s) : s.Keeps t :=
  fun _ _ ha => h ▸ ha

theorem keeps_put_iff {b : α} : s.Keeps (s.put b) ↔ ∀ a, s.find? (key b) = some a → a = b := by
  constructor
  · intro h a ha
    exact Option.some.inj ((h _ _ ha).symm.trans (s.find?_put_self b))
  · intro h k a ha
    by_cases hk : key b = k
    · subst hk
      rw [s.find?_put_self, h a ha]
    · rw [s.find?_put_of_ne hk, ha]

end Shelf

def duplicateEntry : ServiceFault :=
  .store .insertEntry (.backend (.engine (.duplicate "time_entries.time_entry_id")))

theorem Database.insert_of_find? {d : Database} {e : Entry} {a : EntryRow}
    (h : d.entries.find? (.named e.id.text) = some a) :
    Store.insert d e = .error (.backend (.engine (.duplicate "time_entries.time_entry_id"))) := by
  change d.insert e = _
  simp [Database.insert, Shelf.contains, h]

section Stores

variable {policy : Policy} {r : Request}

/-- What becomes of a database when an entry is to be added to it: it keeps every row, and takes no
entry under an identifier that it has. -/
structure Database.Adds (policy : Policy) (r : Request) (d : Desk Database) : Prop where
  keeps : d.store.entries.Keeps ((r.program policy).run d).2.store.entries
  taken : ∀ a, d.store.entries.find? (.named d.ids.next.text) = some a →
    ((r.program policy).run d).2.store = d.store ∧
      (∃ f, ((r.program policy).run d).1 = .entry (.error f) ∧ ¬f.IsStale) ∧
      ∀ e, r.Makes policy d none (some e) →
        ((r.program policy).run d).1 = .entry (.error duplicateEntry)

/-- What becomes of a store in memory: whatever it has under the identifier of the new entry is
replaced, and nothing else. -/
structure Memory.Adds (policy : Policy) (r : Request) (d : Desk Memory) : Prop where
  made : ∀ e, r.Makes policy d none (some e) →
    (((r.program policy).run d).1 = .entry (.ok e) ∨
      ∃ cause, ((r.program policy).run d).1 = .entry (.error (.stale e.id cause))) ∧
      ((r.program policy).run d).2.store.entries = d.store.entries.put e
  failed : (∀ e, ¬r.Makes policy d none (some e)) →
    (∃ f, ((r.program policy).run d).1 = .entry (.error f) ∧ ¬f.IsStale) ∧
      ((r.program policy).run d).2.store = d.store
  keeps_iff : d.store.entries.Keeps ((r.program policy).run d).2.store.entries ↔
    ∀ e a, r.Makes policy d none (some e) → d.store.entries.find? d.ids.next = some a → a = e

theorem Database.adds (policy : Policy) (hr : r.owner?.isSome = true) (d : Desk Database) :
    Database.Adds policy r d where
  keeps := by
    by_cases hmakes : ∃ e, r.Makes policy d none (some e)
    · obtain ⟨e, hmade⟩ := hmakes
      cases hfind : d.store.entries.find? (.named e.id.text) with
      | some a =>
        have hstore := (Request.add_refused hmade (insert_of_find? hfind)).2
        exact Shelf.keeps_of_eq (congrArg Database.entries hstore)
      | none =>
        have hput : ((r.program policy).run d).2.store.entries =
            d.store.entries.put (.ofEntry e) :=
          (Database.view.add_answered hmade (insert_eq_ok.mpr ⟨hfind, rfl⟩)).2
        rw [hput, Shelf.keeps_put_iff]
        intro a ha
        cases hfind.symm.trans ha
    · have hstore := (Request.add_failed (d := d) hr (not_exists.mp hmakes)).2
      exact Shelf.keeps_of_eq (congrArg Database.entries hstore)
  taken a ha := by
    by_cases hmakes : ∃ e, r.Makes policy d none (some e)
    · obtain ⟨e, hmade⟩ := hmakes
      rw [← hmade.inserted.2] at ha
      obtain ⟨hreply, hstore⟩ := Request.add_refused hmade (insert_of_find? ha)
      refine ⟨hstore, ⟨_, hreply, ?_⟩, fun _ _ => hreply⟩
      rintro ⟨id, cause, ⟨⟩⟩
    · obtain ⟨hfault, hstore⟩ := Request.add_failed (d := d) hr (not_exists.mp hmakes)
      exact ⟨hstore, hfault, fun e hmade => absurd ⟨e, hmade⟩ hmakes⟩

theorem Memory.adds (policy : Policy) (hr : r.owner?.isSome = true) (d : Desk Memory) :
    Memory.Adds policy r d where
  made e hmade := Memory.view.add_answered hmade rfl
  failed hmakes := Request.add_failed hr hmakes
  keeps_iff := by
    by_cases hmakes : ∃ e, r.Makes policy d none (some e)
    · obtain ⟨e, hmade⟩ := hmakes
      have hput : ((r.program policy).run d).2.store.entries = d.store.entries.put e :=
        (Memory.view.add_answered hmade rfl).2
      rw [hput, Shelf.keeps_put_iff, hmade.inserted.2]
      constructor
      · rintro h e' a hmade' ha
        obtain ⟨-, ⟨⟩⟩ := hmade'.unique hmade
        exact h a ha
      · exact fun h a => h e a hmade
    · have hstore := (Request.add_failed (d := d) hr (not_exists.mp hmakes)).2
      rw [hstore]
      exact iff_of_true (Shelf.keeps_of_eq rfl) fun e a hmade => absurd ⟨e, hmade⟩ hmakes

end Stores

/-- A request that adds an entry destroys nothing in a database; in memory it puts the new entry over
one with the same identifier. -/
theorem request_adds (policy : Policy) (r : Request) (hr : r.owner?.isSome = true) :
    (∀ d : Desk Database, Database.Adds policy r d) ∧ ∀ d : Desk Memory, Memory.Adds policy r d :=
  ⟨Database.adds policy hr, Memory.adds policy hr⟩

def namedTimer : Entry :=
  { timerFrom .epoch with description := "x" }

theorem request_adds_again :
    (startTimer "00000000-0000-0000-0000-000000000002").owner?.isSome = true ∧
    (((startTimer "00000000-0000-0000-0000-000000000002").program {}).run
      ⟨({ entries := Shelf.empty.put (.ofEntry namedTimer) } : Database), .after 0⟩).1 =
        .entry (.error duplicateEntry) ∧
    (((startTimer "00000000-0000-0000-0000-000000000002").program {}).run
      ⟨({ entries := Shelf.empty.put namedTimer } : Memory), .after 0⟩).2.store.entries =
        (Shelf.empty.put namedTimer).put (timerFrom .epoch) ∧
    ¬(Shelf.empty.put namedTimer : Shelf Entry.id).Keeps
      (((startTimer "00000000-0000-0000-0000-000000000002").program {}).run
        ⟨({ entries := Shelf.empty.put namedTimer } : Memory), .after 0⟩).2.store.entries := by
  have howner : Identifier.parse .user "00000000-0000-0000-0000-000000000002" =
      .ok ⟨.ofNat 2⟩ := by decide +kernel
  obtain ⟨details, hfields, htimer⟩ : ∃ details, timerFields.validate = .ok details ∧
      Entry.running ⟨.ofNat 1⟩ ⟨.ofNat 2⟩ details .epoch = timerFrom .epoch := ⟨_, rfl, rfl⟩
  have hmade {σ : Type} [Store σ] (s : σ) :
      (startTimer "00000000-0000-0000-0000-000000000002").Makes {} ⟨s, .after 0⟩ none
        (some (timerFrom .epoch)) :=
    htimer ▸ .start howner hfields fun h => by cases h
  obtain ⟨hd, hm⟩ := request_adds {} (startTimer "00000000-0000-0000-0000-000000000002") rfl
  refine ⟨rfl, ?_, ((hm _).made _ (hmade _)).2, ?_⟩
  · refine ((hd _).taken (.ofEntry namedTimer) ?_).2.2 _ (hmade _)
    exact Shelf.find?_put_self _ _
  · intro h
    have hfind : (Shelf.empty.put namedTimer : Shelf Entry.id).find? ⟨.ofNat 1⟩ =
        some namedTimer := Shelf.find?_put_self _ namedTimer
    have hsame := (hm ⟨{ entries := Shelf.empty.put namedTimer }, .after 0⟩).keeps_iff.mp h _ _
      (hmade _) hfind
    revert hsame
    decide

end Timesheet
