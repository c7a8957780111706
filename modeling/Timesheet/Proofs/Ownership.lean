import Timesheet.Proofs.Table
import Timesheet.Proofs.Turns

/-!
Whose an entry is, while clients hold copies of it. Before its identifier is used there is nothing of
the entry, and afterwards its record and all copies belong to one owner.
-/

namespace Timesheet

variable {σ κ ρ : Type} [KeyOrder κ] [DecidableEq κ] {key : ρ → κ}

/-- A table whose records tell whom they belong to. An entry can be replaced or erased only where
there is one. -/
structure OwnedTable (σ : Type) [Store σ] (key : ρ → κ) extends EntryTable σ key where
  owner : ρ → Except InvalidIdentifier UserId
  owner_write (e : Entry) : owner (write e) = .ok e.user
  owner_of_reads {r : ρ} {e : Entry} (h : Reads r e) : owner r = .ok e.user
  found_of_replace {s s' : σ} {e : Entry} (h : Store.replace s e = .ok s') :
    ∃ r, (entries s).find? (name e.id) = some r
  found_of_erase {s s' : σ} {id : EntryId} (h : Store.erase s id = .ok s') :
    ∃ r, (entries s).find? (name id) = some r

def Memory.ownedTable : OwnedTable Memory Entry.id where
  toEntryTable := Memory.table
  owner e := .ok e.user
  owner_write _ := rfl
  owner_of_reads h := congrArg (fun e : Entry => Except.ok e.user) h
  found_of_replace h := (replace_eq_ok.mp h).1
  found_of_erase h := (erase_eq_ok.mp h).1

def Database.ownedTable : OwnedTable Database EntryRow.key where
  toEntryTable := Database.table
  owner := EntryRow.owner
  owner_write := EntryRow.ofEntry_owner
  owner_of_reads h := h.user
  found_of_replace h := (replace_eq_ok.mp h).1
  found_of_erase h := (erase_eq_ok.mp h).1

namespace OwnedTable

variable {ι : Type} [DecidableEq ι] [Store σ] (T : OwnedTable σ key)

inductive Changes (t : Shelf key) : Call → Shelf key → Prop
  | nothing (c : Call) : Changes t c t
  | insert (e : Entry) : Changes t (.insert e) (T.put e t)
  | replace (e : Entry) {r : ρ} (h : t.find? (T.name e.id) = some r) :
    Changes t (.replace e) (T.put e t)
  | erase (id : EntryId) : Changes t (.erase id) (T.erase id t)

theorem changes (s : σ) (c : Call) :
    T.Changes (T.entries s) c (T.entries (c.perform s).2) := by
  have keep {c : Call} {r : Except StoreFault σ}
      (h : ∀ t, r = .ok t → T.Changes (T.entries s) c (T.entries t)) :
      T.Changes (T.entries s) c (T.entries (changed s r).2) :=
    changed_snd (P := fun t => T.Changes (T.entries s) c (T.entries t)) (.nothing c) h
  cases c with
  | insert e =>
    refine keep fun t ht => ?_
    rw [T.entries_insert ht]
    exact .insert e
  | replace e =>
    refine keep fun t ht => ?_
    obtain ⟨r, hr⟩ := T.found_of_replace ht
    rw [T.entries_replace ht]
    exact .replace e hr
  | erase id =>
    refine keep fun t ht => ?_
    rw [T.entries_erase ht]
    exact .erase id
  | writeTracked id seconds now =>
    refine keep fun t ht => ?_
    rw [T.entries_tracked ht]
    exact .nothing _
  | writeEstimate id hours now =>
    refine changedIf_snd (P := fun t => T.Changes (T.entries s) _ (T.entries t)) (.nothing _)
      fun b t ht => ?_
    rw [T.entries_estimate ht]
    exact .nothing _
  | _ => exact .nothing _

variable {T} {t t' : Shelf key} {c : Call} {r : ρ} {k : κ} {id : EntryId}

theorem Changes.found (h : T.Changes t c t') (hr : t'.find? k = some r) :
    t.find? k = some r ∨ ∃ e, T.name e.id = k ∧ r = T.write e ∧
      (c = .insert e ∨ c = .replace e ∧ ∃ r₀, t.find? k = some r₀) := by
  have put {e : Entry} (hr : (T.put e t).find? k = some r) :
      t.find? k = some r ∨ T.name e.id = k ∧ r = T.write e := by
    by_cases hk : T.name e.id = k
    · subst hk
      rw [T.find?_put_self] at hr
      exact .inr ⟨rfl, (Option.some.inj hr).symm⟩
    · rw [T.find?_put_of_ne t hk] at hr
      exact .inl hr
  cases h with
  | nothing => exact .inl hr
  | insert e =>
    rcases put hr with hr | ⟨hk, hr⟩
    · exact .inl hr
    · exact .inr ⟨e, hk, hr, .inl rfl⟩
  | replace e hfound =>
    rcases put hr with hr | ⟨rfl, hw⟩
    · exact .inl hr
    · exact .inr ⟨e, rfl, hw, .inr ⟨rfl, _, hfound⟩⟩
  | erase id =>
    by_cases hk : T.name id = k
    · subst hk
      rw [T.find?_erase_self] at hr
      cases hr
    · rw [T.find?_erase_of_ne t hk] at hr
      exact .inl hr

end OwnedTable

section Drawn

variable {ι : Type} {k : Rules} {id : EntryId} {s t : σ} {w v : ι → Hand} {e : Event}
  {future : List EntryId}

/-- An identifier that no client holds for a new entry, and that none will draw. -/
structure IsSpent (id : EntryId) (w : ι → Hand) (future : List EntryId) : Prop where
  drawn (i : ι) : (w i).drawn ≠ some id
  future : id ∉ future

/-- An identifier that at most one client holds or will draw, once. -/
structure IsOnce (id : EntryId) (w : ι → Hand) (future : List EntryId) : Prop where
  drawn {i j : ι} : (w i).drawn = some id → (w j).drawn = some id → i = j
  gone {i : ι} : (w i).drawn = some id → id ∉ future
  nodup : future.Nodup

variable [DecidableEq ι] [Store σ]

theorem IsSpent.move (h : Move k s w e t v) (hs : IsSpent id w (e.drawn?.toList ++ future)) :
    IsSpent id v future := by
  cases h with
  | passed => exact hs
  | drew i id' =>
    obtain ⟨hne, hfuture⟩ := List.ne_and_not_mem_of_not_mem_cons hs.future
    refine ⟨fun j => ?_, hfuture⟩
    rw [Function.update_apply]
    split
    · exact fun h => hne (Option.some.inj h).symm
    · exact hs.drawn j
  | called i c h =>
    refine ⟨fun j => ?_, hs.future⟩
    rw [Function.update_apply]
    split
    · exact fun h => by cases h
    · exact hs.drawn j

theorem IsOnce.move (h : Move k s w e t v) (hs : IsOnce id w (e.drawn?.toList ++ future)) :
    IsOnce id v future := by
  cases h with
  | passed => exact hs
  | drew i id' =>
    obtain ⟨hnot, hnodup⟩ := List.nodup_cons.mp hs.nodup
    -- Who holds the identifier now has just drawn it, or held it before and it was another draw.
    have hv {j : ι} (hj : (Function.update w i (k.discipline.drew (w i) id') j).drawn = some id) :
        j = i ∧ id' = id ∨ (w j).drawn = some id ∧ id' ≠ id := by
      rw [Function.update_apply] at hj
      split at hj
      · exact .inl ⟨‹_›, Option.some.inj hj⟩
      · exact .inr ⟨hj, fun h => hs.gone hj (h ▸ List.mem_cons_self)⟩
    refine ⟨fun hj hj' => ?_, fun hj => ?_, hnodup⟩
    · rcases hv hj with ⟨rfl, hid⟩ | ⟨hj, hid⟩ <;> rcases hv hj' with ⟨rfl, hid'⟩ | ⟨hj', hid'⟩
      · rfl
      · exact absurd hid hid'
      · exact absurd hid' hid
      · exact hs.drawn hj hj'
    · rcases hv hj with ⟨-, rfl⟩ | ⟨hj, -⟩
      · exact hnot
      · exact fun h => hs.gone hj (List.mem_cons_of_mem _ h)
  | called i c h =>
    have hv {j : ι}
        (hj : (Function.update w i (k.discipline.heard (w i) c (c.perform s).1) j).drawn = some id) :
        (w j).drawn = some id := by
      rw [Function.update_apply] at hj
      split at hj
      · cases hj
      · exact hj
    exact ⟨fun hj hj' => hs.drawn (hv hj) (hv hj'), fun hj => hs.gone (hv hj), hs.nodup⟩

theorem IsSpent.moves {es : List Event} (h : Moves k s w es t v)
    (hs : IsSpent id w (es.filterMap Event.drawn? ++ future)) : IsSpent id v future :=
  h.keep (P := fun _ w future => IsSpent id w future) (fun hmove hs => hs.move hmove) future hs

theorem IsOnce.isSpent (hs : IsOnce id w future) {i : ι} (hi : (w i).drawn = some id) (f : Finding) :
    IsSpent id (Function.update w i ⟨f, none⟩) future := by
  refine ⟨fun j hj => ?_, hs.gone hi⟩
  rw [Function.update_apply] at hj
  split at hj
  · cases hj
  · exact absurd (hs.drawn hj hi) ‹_›

end Drawn

namespace OwnedTable

variable {ι : Type} [Store σ] (T : OwnedTable σ key)

/-- The record and all copies of an entry belong to the same owner. -/
structure Owns (id : EntryId) (u : Except InvalidIdentifier UserId) (s : σ) (w : ι → Hand) :
    Prop where
  stored {r : ρ} : (T.entries s).find? (T.name id) = some r → T.owner r = u
  copied {i : ι} {e : Entry} : (w i).finding = .copy e → e.id = id → .ok e.user = u

def Settles (id : EntryId) (s : σ) (w : ι → Hand) (future : List EntryId) : Prop :=
  (∃ u, T.Owns id u s w) ∧ IsSpent id w future ∨ (∀ u, T.Owns id u s w) ∧ IsOnce id w future

variable {T} {k : Rules} {id : EntryId} {u : Except InvalidIdentifier UserId} {s t : σ}
  {w v : ι → Hand} {e : Event} {future : List EntryId}

theorem Settles.stored (hs : T.Settles id s w future) {r : ρ}
    (hr : (T.entries s).find? (T.name id) = some r) :
    T.Owns id (T.owner r) s w ∧ IsSpent id w future := by
  rcases hs with ⟨⟨u, hs⟩, hspent⟩ | ⟨hs, -⟩
  · rw [hs.stored hr]
    exact ⟨hs, hspent⟩
  · have h := ((hs (.ok ⟨.ofNat 0⟩)).stored hr).symm.trans ((hs (.ok ⟨.ofNat 1⟩)).stored hr)
    exact absurd h (by decide)

variable [DecidableEq ι]

theorem Owns.called (hs : T.Owns id u s w) {i : ι} {c : Call} (hc : (w i).Allows k c)
    (hinsert : ∀ e, c = .insert e → e.id = id → .ok e.user = u) :
    T.Owns id u (c.perform s).2
      (Function.update w i (k.discipline.heard (w i) c (c.perform s).1)) := by
  constructor
  · intro r hr
    rcases (T.changes s c).found hr with hr | ⟨e, hname, rfl, rfl | ⟨rfl, -⟩⟩
    · exact hs.stored hr
    · rw [T.owner_write]
      exact hinsert e rfl (T.name_inj.mp hname)
    · obtain ⟨e₀, hcopy, hid, hfollows, -⟩ := hc
      rw [T.owner_write, hfollows.user]
      exact hs.copied hcopy (hid.symm.trans (T.name_inj.mp hname))
  · intro j e hcopy hid
    rw [Function.update_apply] at hcopy
    split at hcopy
    · obtain ⟨id', hfetch⟩ := Call.fetch_of_finds hcopy
      obtain ⟨r, hr, hreads⟩ := T.reads_of_fetch hfetch
      rw [← T.owner_of_reads hreads]
      apply hs.stored
      rw [← hid, T.id_of_fetch hfetch]
      exact hr
    · exact hs.copied hcopy hid

theorem Owns.drew (hs : T.Owns id u s w) (i : ι) (id' : EntryId) :
    T.Owns id u s (Function.update w i (k.discipline.drew (w i) id')) := by
  refine ⟨hs.stored, fun {j e} hcopy hid => ?_⟩
  rw [Function.update_apply] at hcopy
  split at hcopy
  · exact hs.copied hcopy hid
  · exact hs.copied hcopy hid

theorem Owns.move (hs : T.Owns id u s w) (h : Move k s w e t v)
    (hspent : IsSpent id w (e.drawn?.toList ++ future)) : T.Owns id u t v := by
  cases h with
  | passed => exact hs
  | drew i id' => exact hs.drew i id'
  | called i c hc =>
    refine hs.called hc fun e he hid => ?_
    subst he
    exact absurd (hid ▸ hc.drawn) (hspent.drawn i)

theorem Settles.move (h : Move k s w e t v)
    (hs : T.Settles id s w (e.drawn?.toList ++ future)) : T.Settles id t v future := by
  rcases hs with ⟨⟨u, hs⟩, hspent⟩ | ⟨hs, honce⟩
  · exact .inl ⟨⟨u, hs.move h hspent⟩, hspent.move h⟩
  have honce' := honce.move h
  cases h with
  | passed => exact .inr ⟨hs, honce'⟩
  | drew i id' => exact .inr ⟨fun u => (hs u).drew i id', honce'⟩
  | called i c hc =>
    by_cases hi : (w i).drawn = some id
    · refine .inl ⟨?_, honce.isSpent hi _⟩
      by_cases hinsert : ∃ e, c = .insert e
      · obtain ⟨e, rfl⟩ := hinsert
        exact ⟨.ok e.user, (hs _).called hc fun e' he' _ => by rw [Call.insert.inj he']⟩
      · exact ⟨.ok .absent, (hs _).called hc fun e he _ => absurd ⟨e, he⟩ hinsert⟩
    · refine .inr ⟨fun u => (hs u).called hc fun e he hid => ?_, honce'⟩
      subst he
      exact absurd (hid ▸ hc.drawn) hi

theorem lacks_of_move (h : Move k s w e t v)
    (hspent : IsSpent id w (e.drawn?.toList ++ future))
    (hs : (T.entries s).find? (T.name id) = none) : (T.entries t).find? (T.name id) = none := by
  cases h with
  | passed => exact hs
  | drew i id' => exact hs
  | called i c hc =>
    refine Option.eq_none_iff_forall_ne_some.mpr fun r hr => ?_
    rcases (T.changes s c).found hr with hr | ⟨e, hname, -, rfl | ⟨-, r', hr⟩⟩
    · cases hs.symm.trans hr
    · exact hspent.drawn i (T.name_inj.mp hname ▸ hc.drawn)
    · cases hs.symm.trans hr

theorem found_of_unnamed (T : OwnedTable σ key) (h : Move k s w e t v) {j : κ}
    (hj : ∀ id, T.name id ≠ j) {r : ρ} (hr : (T.entries t).find? j = some r) :
    (T.entries s).find? j = some r := by
  cases h with
  | passed => exact hr
  | drew i id => exact hr
  | called i c hc =>
    rcases (T.changes s c).found hr with hr | ⟨e, hname, -⟩
    · exact hr
    · exact absurd hname (hj e.id)

variable {es : List Event}

theorem Settles.moves (h : Moves k s w es t v)
    (hs : T.Settles id s w (es.filterMap Event.drawn? ++ future)) : T.Settles id t v future :=
  h.keep (P := T.Settles id) (fun hmove hs => hs.move hmove) future hs

theorem Owns.moves (hs : T.Owns id u s w) (h : Moves k s w es t v)
    (hspent : IsSpent id w (es.filterMap Event.drawn? ++ future)) : T.Owns id u t v :=
  (h.keep (P := fun s w future => IsSpent id w future ∧ T.Owns id u s w)
    (fun hmove hs => ⟨hs.1.move hmove, hs.2.move hmove hs.1⟩) future ⟨hspent, hs⟩).2

theorem lacks_of_moves (h : Moves k s w es t v)
    (hspent : IsSpent id w (es.filterMap Event.drawn? ++ future))
    (hs : (T.entries s).find? (T.name id) = none) : (T.entries t).find? (T.name id) = none :=
  (h.keep (P := fun s w future => IsSpent id w future ∧ (T.entries s).find? (T.name id) = none)
    (fun hmove hs => ⟨hs.1.move hmove, lacks_of_move hmove hs.1 hs.2⟩) future ⟨hspent, hs⟩).2

theorem found_of_unnamed_of_moves (T : OwnedTable σ key) (h : Moves k s w es t v) {j : κ}
    (hj : ∀ id, T.name id ≠ j) {r : ρ} (hr : (T.entries t).find? j = some r) :
    (T.entries s).find? j = some r :=
  h.keep (P := fun t _ _ => (T.entries t).find? j = some r → (T.entries s).find? j = some r)
    (fun hmove ht hr => ht (T.found_of_unnamed hmove hj hr)) [] id hr

end OwnedTable

end Timesheet
