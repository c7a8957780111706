import Timesheet.Proofs.Ownership

/-!
Entries that clients share. Main statement: however the calls of any number of clients fall between
each other, every entry has a duration and a stop that belong together, keeps its identifier and its
owner, and does not come back once it was deleted.
-/

namespace Timesheet

variable {σ κ ρ : Type} [KeyOrder κ] [DecidableEq κ] {key : ρ → κ}

theorem Move.erase_eq_ok {ι : Type} [DecidableEq ι] [Store σ] {k : Rules} {s t : σ} {w v : ι → Hand}
    {e : Event} {id : EntryId} (h : Move k s w e t v) (he : e.erased? = some id) :
    Store.erase s id = .ok t := by
  cases h with
  | passed => cases he
  | drew i id' => cases he
  | called i c hc =>
    cases c with
    | erase id' =>
      change (Event.called (.erase id') (changed s (Store.erase s id')).1).erased? = _ at he
      change Store.erase s id = .ok (changed s (Store.erase s id')).2
      cases h : Store.erase s id' with
      | ok t =>
        rw [h] at he
        obtain ⟨⟩ := he
        exact h
      | error f =>
        rw [h] at he
        cases he
    | _ => cases he

/-- Records keep their owner, and records under other keys are new ones. -/
structure Shelf.Continues {β : Type} (owner : ρ → β) (New : κ → Prop) (s t : Shelf key) : Prop where
  owner {j : κ} {a b : ρ} : s.find? j = some a → t.find? j = some b → owner b = owner a
  key {j : κ} {b : ρ} : t.find? j = some b → (∃ a, s.find? j = some a) ∨ New j

namespace Clients

variable {ι : Type} [DecidableEq ι] [Store σ] {s : Clients ι σ} {k : Rules}

theorem draws_append (s : Clients ι σ) (first later : List ι) :
    s.draws (first ++ later) = s.draws first ++ (s.after first).draws later := by
  rw [draws, events_append, List.filterMap_append]
  rfl

theorem draws_cons (s : Clients ι σ) (i : ι) (schedule : List ι) :
    s.draws (i :: schedule) = (s.turn i).1.drawn?.toList ++ (s.turn i).2.draws schedule := by
  rw [draws, events, List.filterMap_cons]
  cases (s.turn i).1.drawn? <;> rfl

theorem exists_turn_of_mem_events {schedule : List ι} {e : Event} (h : e ∈ s.events schedule) :
    ∃ before i rest, schedule = before ++ i :: rest ∧ ((s.after before).turn i).1 = e := by
  induction schedule generalizing s with
  | nil => cases h
  | cons i schedule ih =>
    rcases List.mem_cons.mp h with rfl | h
    · exact ⟨[], i, schedule, rfl, rfl⟩
    · obtain ⟨before, j, rest, rfl, he⟩ := ih h
      exact ⟨i :: before, j, rest, rfl, he⟩

variable (T : OwnedTable σ key)

/-- No identifier is drawn twice, nor one that is stored. -/
structure DrawsFresh (unused : EntryId → Prop) (s : Clients ι σ) (schedule : List ι) : Prop where
  nodup : (s.draws schedule).Nodup
  unused : ∀ id ∈ s.draws schedule, unused id

theorem DrawsFresh.settles {schedule : List ι}
    (h : s.DrawsFresh (fun id => (T.entries s.store).find? (T.name id) = none) schedule)
    (id : EntryId) : T.Settles (ι := ι) id s.store (fun _ => {}) (s.draws schedule) := by
  cases hfound : (T.entries s.store).find? (T.name id) with
  | none =>
    refine .inr ⟨fun u => ⟨fun hr => ?_, fun hcopy => ?_⟩, fun hi => ?_, fun hi => ?_, h.nodup⟩
    · cases hfound.symm.trans hr
    · cases hcopy
    · cases hi
    · cases hi
  | some r =>
    refine .inl ⟨⟨T.owner r, fun hr => ?_, fun hcopy => ?_⟩, fun i hi => ?_, fun hid => ?_⟩
    · rw [Option.some.inj (hfound.symm.trans hr)]
    · cases hcopy
    · cases hi
    · cases hfound.symm.trans (h.unused id hid)

variable {T} {first later : List ι}

theorem continues_of_draws (hheld : s.Held k fun _ => {})
    (hdraws : s.DrawsFresh (fun id => (T.entries s.store).find? (T.name id) = none) (first ++ later)) :
    Shelf.Continues T.owner (fun j => ∃ id ∈ s.draws (first ++ later), j = T.name id)
      (T.entries (s.after first).store) (T.entries (s.after (first ++ later)).store) := by
  obtain ⟨w, hfirst, hheld'⟩ := hheld.after first
  obtain ⟨v, hlater, -⟩ := hheld'.after later
  have hsplit : s.draws (first ++ later) =
      s.draws first ++ ((s.after first).draws later ++ []) := by
    rw [draws_append, List.append_nil]
  rw [after_append]
  constructor
  · intro j a b ha hb
    by_cases hj : ∃ id, T.name id = j
    · obtain ⟨id, rfl⟩ := hj
      -- A stored record has spent its identifier, so its owner is settled for what comes later.
      obtain ⟨howns, hspent⟩ := ((hsplit ▸ hdraws.settles T id).moves hfirst).stored ha
      exact (howns.moves hlater hspent).stored hb
    · have hb' := T.found_of_unnamed_of_moves hlater (fun id hid => hj ⟨id, hid⟩) hb
      rw [Option.some.inj (ha.symm.trans hb')]
  · intro j b hb
    by_cases hj : ∃ id, T.name id = j
    · obtain ⟨id, rfl⟩ := hj
      by_cases hid : id ∈ s.draws (first ++ later)
      · exact .inr ⟨id, hid, rfl⟩
      · refine .inl (Option.ne_none_iff_exists'.mp fun hnone => ?_)
        have hspent : IsSpent (ι := ι) id (fun _ => {}) (s.draws (first ++ later)) :=
          ⟨fun i hi => (by cases hi), hid⟩
        have h := OwnedTable.lacks_of_moves hlater ((hsplit ▸ hspent).moves hfirst) hnone
        cases h.symm.trans hb
    · exact .inl ⟨b, T.found_of_unnamed_of_moves hlater (fun id hid => hj ⟨id, hid⟩) hb⟩

theorem lacks_of_erased (hheld : s.Held k fun _ => {})
    (hdraws : s.DrawsFresh (fun id => (T.entries s.store).find? (T.name id) = none) (first ++ later))
    {id : EntryId} (hid : id ∈ s.erasures first) :
    (T.entries (s.after (first ++ later)).store).find? (T.name id) = none := by
  obtain ⟨e, he, herased⟩ := List.mem_filterMap.mp hid
  obtain ⟨before, i, rest, rfl, hevent⟩ := exists_turn_of_mem_events he
  obtain ⟨w, hbefore, hheld'⟩ := hheld.after before
  obtain ⟨w', hmove, hheld''⟩ := hheld'.turn i
  obtain ⟨v, hrest, -⟩ := hheld''.after (rest ++ later)
  have herase := hmove.erase_eq_ok (hevent ▸ herased)
  obtain ⟨r, hr⟩ := T.found_of_erase herase
  have hsplit : s.draws ((before ++ i :: rest) ++ later) =
      s.draws before ++ (((s.after before).turn i).1.drawn?.toList ++
        (((s.after before).turn i).2.draws (rest ++ later) ++ [])) := by
    rw [List.append_assoc, draws_append, List.cons_append, draws_cons, List.append_nil]
  -- The deleted record had spent its identifier, so that no insertion brings it back, and a save
  -- of a copy needs a record.
  obtain ⟨-, hspent⟩ := ((hsplit ▸ hdraws.settles T id).moves hbefore).stored hr
  have hlacks : (T.entries ((s.after before).turn i).2.store).find? (T.name id) = none := by
    rw [T.entries_erase herase]
    exact T.find?_erase_self _ id
  have h := OwnedTable.lacks_of_moves hrest (hspent.move hmove) hlacks
  rw [List.append_assoc, after_append]
  exact h

end Clients

def Database.Unused (d : Database) (id : EntryId) : Prop :=
  d.entries.find? (.named id.text) = none

instance (m : Memory) (id : EntryId) : Decidable (m.Unused id) :=
  inferInstanceAs (Decidable (_ = none))

instance (d : Database) (id : EntryId) : Decidable (d.Unused id) :=
  inferInstanceAs (Decidable (_ = none))

/-- However the calls of any number of clients fall between each other, at any time every entry is
open or closed and all tests of its duration agree, if every entry was open or closed before, and as
long as fresh identifiers are drawn. Later on entries have the owners they had, other entries are
new ones, and no entry that was deleted is there. -/
theorem clients_keep_entries {ι : Type} [DecidableEq ι] (policy : ι → Policy)
    (requests : ι → List Request) (ids : ι → IdSource) (first later : List ι) :
    (∀ m : Memory,
      let s : Clients ι Memory := .of m policy requests ids
      s.DrawsFresh m.Unused (first ++ later) →
      m.entries.Holds (fun e => e.interval.IsOpen ∨ e.interval.IsClosed) →
        (s.after first).store.entries.Holds Entry.IsSplit ∧
        Shelf.Continues Entry.user (fun id => id ∈ s.draws (first ++ later))
          (s.after first).store.entries (s.after (first ++ later)).store.entries ∧
        ∀ id ∈ s.erasures first, (s.after (first ++ later)).store.Unused id) ∧
    ∀ d : Database,
      let s : Clients ι Database := .of d policy requests ids
      s.DrawsFresh d.Unused (first ++ later) →
      d.entries.Holds (fun r => r.IsOpen ∨ r.IsClosed) →
        (s.after first).store.entries.Holds EntryRow.IsSplit ∧
        Shelf.Continues EntryRow.owner (fun j => ∃ id ∈ s.draws (first ++ later), j = .named id.text)
          (s.after first).store.entries (s.after (first ++ later)).store.entries ∧
        ∀ id ∈ s.erasures first, (s.after (first ++ later)).store.Unused id := by
  have hkeeps (i : ι) : ∃ drawn, (session (policy i) (requests i)).Keeps pairing (fun _ => True)
      drawn := ⟨none, session_keeps_pairing (policy i) (requests i)⟩
  have hheld {σ : Type} (t : σ) :
      (Clients.of t policy requests ids).Held ⟨fun _ => True, false⟩ fun _ => {} :=
    Clients.held_of_sessions (fun _ h => by cases h) (fun _ _ _ _ _ => trivial) t
  constructor
  · intro m s hdraws hm
    refine ⟨?_, ?_, fun id => Clients.lacks_of_erased (T := Memory.ownedTable) (hheld m) hdraws⟩
    · have h := Clients.keep_after (s := .of m policy requests ids)
        (I := fun m : Memory => m.entries.Holds pairing.entry)
        (fun _ _ _ hI hc => Memory.perform_holds (fun _ => trivial) hI hc) hkeeps hm first
      exact fun e he => Entry.isSplit_of_or (h e he)
    · have h := Clients.continues_of_draws (T := Memory.ownedTable) (hheld m) hdraws
      refine ⟨fun ha hb => Except.ok.inj (h.owner ha hb), fun hb => ?_⟩
      exact (h.key hb).imp_right fun ⟨id, hid, hj⟩ => hj ▸ hid
  · intro d s hdraws hd
    refine ⟨?_, Clients.continues_of_draws (T := Database.ownedTable) (hheld d) hdraws,
      fun id => Clients.lacks_of_erased (T := Database.ownedTable) (hheld d) hdraws⟩
    have h := Clients.keep_after (s := .of d policy requests ids)
      (I := fun d : Database => d.entries.Holds fun r => r.IsOpen ∨ r.IsClosed)
      (fun _ _ _ hI hc => Database.perform_holds (fun _ => trivial) EntryRow.ofEntry_paired
        (fun _ _ => EntryRow.paired_of_denotes) hI hc) hkeeps hd first
    exact fun r hr => EntryRow.isSplit_of_or (h r hr)

def deleteFirst : Request :=
  .delete "00000000-0000-0000-0000-000000000001" thirdSecond

def stopBesideDelete : Bool → List Request
  | false => [stopFirst, startTimer "00000000-0000-0000-0000-000000000002"]
  | true => [deleteFirst]

def startBoth : Bool → List Request
  | false => [startTimer "00000000-0000-0000-0000-000000000002"]
  | true => [startTimer "00000000-0000-0000-0000-000000000003"]

def drawApart : Bool → IdSource
  | false => .after 0
  | true => .after 1

theorem clients_keep_entries_of_delete :
    (let s : Clients Bool Memory :=
      .of { entries := Shelf.empty.put (timerFrom .epoch) } (fun _ => {}) stopBesideDelete
        fun _ => .after 1
    (s.after [false, true, true]).store.entries.Holds Entry.IsSplit ∧
      (s.after [false, true, true, false, false, false]).store.Unused ⟨.ofNat 1⟩) ∧
    let s : Clients Bool Database := .of {} (fun _ => {}) startBoth drawApart
    (s.after [false, true, false]).store.entries.Holds EntryRow.IsSplit ∧
      ∀ r, (s.after [false, true, false, true]).store.entries.find? firstTimer.key = some r →
        r.owner = .ok ⟨.ofNat 2⟩ := by
  constructor
  · obtain ⟨hsplit, -, herased⟩ :=
      (clients_keep_entries (fun _ => {}) stopBesideDelete (fun _ => .after 1) [false, true, true]
        [false, false, false]).1 { entries := Shelf.empty.put (timerFrom .epoch) }
        ⟨by decide +kernel, by decide +kernel⟩ (Shelf.holds_empty.put (.inl ⟨rfl, rfl⟩))
    exact ⟨hsplit, herased _ (by decide +kernel)⟩
  · obtain ⟨hsplit, hcontinues, -⟩ :=
      (clients_keep_entries (fun _ => {}) startBoth drawApart [false, true, false] [true]).2 {}
        ⟨by decide +kernel, by decide +kernel⟩ Shelf.holds_empty
    refine ⟨hsplit, fun r hr => ?_⟩
    have hfirst : ((Clients.of ({} : Database) (fun _ => {}) startBoth drawApart).after
        [false, true, false]).store.entries.find? firstTimer.key = some firstTimer := by
      decide +kernel
    exact (hcontinues.owner hfirst hr).trans (EntryRow.ofEntry_owner _)

end Timesheet
