import Timesheet.Proofs.Frame
import Timesheet.Proofs.Rereading
import Timesheet.Proofs.Sharing
import Timesheet.Proofs.Stages

/-!
Edits that overlap. Main statement: of two clients that change the same entry, the one that loads what
the other saved changes it further, and if both load it before either saves, the edit that is saved
first is lost.
-/

namespace Timesheet

variable {σ : Type}

section Two

variable {κ ρ : Type} [KeyOrder κ] [DecidableEq κ] {key : ρ → κ} [Store σ]

namespace OwnedTable

variable (T : OwnedTable σ key) {s t : σ} {e : Entry}

/-- How two clients that change the same entry get in each other's way. If their first turns are
apart, the second client loads what the first has saved; if both load before either saves, the one
that does not take the next turn saves last. -/
inductive Interleaved (id : EntryId) (f : Bool → Entry → Except Refusal (Option Entry)) (s t : σ) :
    List Bool → Prop
  | apart {i : Bool} {later : List Bool} {s₁ : σ} (h : T.Applies id (f i) s s₁)
      (hnext : T.Applies id (f !i) s₁ t) : Interleaved id f s t (i :: i :: later)
  | across {i k : Bool} {later : List Bool} {s₁ : σ} {r : ρ} (h : T.Applies id (f k) s s₁)
      (hfound : (T.entries s₁).find? (T.name id) = some r) (hlast : T.Applies id (f !k) s t) :
      Interleaved id f s t (i :: (!i) :: k :: later)

variable {T} {id : EntryId} {f : Bool → Entry → Except Refusal (Option Entry)}
  {w v : Bool → Stage} {schedule : List Bool}

theorem Run.interleaved_of_saves (hf : ∀ i e e', f i e = .ok (some e') → e'.id = e.id) {s₂ : σ}
    (hrun : T.Run id f s₂ w schedule t v) (hfetch : Store.fetch s id = .ok e)
    (hs : T.entries s₂ = T.entries s) (hw : ∀ i, ∃ new, f i e = .ok new ∧ w i = .saves e new)
    (hv : ∀ i, v i = .saved) (i : Bool) : T.Interleaved id f s t (i :: (!i) :: schedule) := by
  have hnew (i : Bool) {new : Option Entry} (h : f i e = .ok new) : ∀ x ∈ new, x.id = e.id := by
    rintro x ⟨⟩
    exact hf i e x h
  cases hrun with
  | nil =>
    obtain ⟨new, -, hi⟩ := hw i
    cases hi.symm.trans (hv i)
  | @cons _ s₃ _ _ _ k later b hstep hrest =>
    obtain ⟨new, hfk, hk⟩ := hw k
    obtain ⟨new', hfk', hk'⟩ := hw !k
    have hb := hrest.not_failed_next hv
    rw [hk] at hstep
    cases hstep with
    | fail => exact absurd rfl hb
    | save hfound heq =>
      obtain ⟨⟨r, hr⟩, hlast⟩ := hrest.entries_of_saves (i := !k)
        (fun j hj => by rw [Bool.eq_not_of_ne hj, Bool.not_not, Function.update_self])
        (by rw [Function.update_of_ne (Bool.not_ne_self k), hk']) hv
      have hid : (new'.getD e).id = id := by
        cases new' with
        | none => exact T.id_of_fetch hfetch
        | some x => exact (hf _ _ _ hfk').trans (T.id_of_fetch hfetch)
      refine .across ⟨e, new, hfetch, hfk, hs ▸ heq⟩ (hid ▸ hr) ⟨e, new', hfetch, hfk', ?_⟩
      rw [hlast, heq, T.written_written (hnew _ hfk) (hnew _ hfk') rfl, hs]

theorem Run.interleaved (hf : ∀ i e e', f i e = .ok (some e') → e'.id = e.id)
    (hrun : T.Run id f s w schedule t v) (hw : ∀ i, w i = .loads) (hv : ∀ i, v i = .saved) :
    T.Interleaved id f s t schedule := by
  cases hrun with
  | nil => cases (hw true).symm.trans (hv true)
  | @cons _ s₁ _ _ _ i later b hstep hrest =>
    have hb := hrest.not_failed_next hv
    rw [hw i] at hstep
    cases hstep with
    | fail => exact absurd rfl hb
    | @load e new hfetch hfi heq =>
      have hother : Function.update w i (.saves e new) (!i) = .loads := by
        rw [Function.update_of_ne (Bool.not_ne_self i), hw]
      cases hrest with
      | nil => cases hother.symm.trans (hv _)
      | @cons _ s₂ _ _ _ j later b' hstep' hrest' =>
        have hb' := hrest'.not_failed_next hv
        by_cases hj : j = i
        · subst hj
          rw [Function.update_self] at hstep'
          cases hstep' with
          | fail => exact absurd rfl hb'
          | save hfound heq' =>
            refine .apart ⟨e, new, hfetch, hfi, heq ▸ heq'⟩
              (hrest'.applies_of_loads (fun k hk => ?_) ?_ hv)
            · rw [Bool.eq_not_of_ne hk, Bool.not_not, Function.update_self]
            · rw [Function.update_of_ne (Bool.not_ne_self j), hother]
        · obtain rfl := Bool.eq_not_of_ne hj
          rw [hother] at hstep'
          cases hstep' with
          | fail => exact absurd rfl hb'
          | @load e' new' hfetch' hfj heq' =>
            obtain ⟨⟩ := hfetch.symm.trans ((T.fetch_congr id heq).symm.trans hfetch')
            refine hrest'.interleaved_of_saves hf hfetch (heq'.trans heq) (fun k => ?_) hv i
            by_cases hk : k = i
            · subst hk
              rw [Function.update_of_ne (Bool.not_ne_self k).symm, Function.update_self]
              exact ⟨new, hfi, rfl⟩
            · obtain rfl := Bool.eq_not_of_ne hk
              rw [Function.update_self]
              exact ⟨new', hfj, rfl⟩

end OwnedTable

end Two

/-- A client with one request. -/
structure Errand where
  policy : Policy
  request : Request
  ids : IdSource

namespace Errand

/-- What the request leaves of a store if no other client takes a turn. -/
def leave [Store σ] (c : Errand) (s : σ) : σ :=
  ((c.request.program c.policy).run ⟨s, c.ids⟩).2.store

def Names (c : Errand) (id : EntryId) : Prop :=
  ∃ text, c.request.address? = some text ∧ Identifier.parse .entry text = .ok id

def Changes (c : Errand) (id : EntryId) (f : Entry → Except Refusal (Option Entry)) : Prop :=
  ∃ text, c.request.change? = some (text, f) ∧ Identifier.parse .entry text = .ok id

def Deletes (c : Errand) : Prop :=
  ∃ text now, c.request = .delete text now

def Stops (c : Errand) : Prop :=
  ∃ text now, c.request = .stop text now

variable {c : Errand} {id : EntryId} {f : Entry → Except Refusal (Option Entry)}

theorem Names.exists_changes (h : c.Names id) : ∃ f, c.Changes id f := by
  obtain ⟨text, haddress, hid⟩ := h
  obtain ⟨f, hf⟩ := Request.exists_change haddress
  exact ⟨f, text, hf, hid⟩

theorem Changes.edits (h : c.Changes id f) :
    (c.request.program c.policy).Edits (fun a => ∃ e, a = .entry (.ok e)) id f := by
  obtain ⟨text, hr, hid⟩ := h
  exact Request.edits c.policy hr hid

theorem Changes.edits_session (h : c.Changes id f) :
    (session c.policy [c.request]).Edits (fun a => ∃ e, a = [.entry (.ok e)]) id f := by
  have hsession : session c.policy [c.request] = (fun a => [a]) <$> c.request.program c.policy := by
    rw [session, map_eq_pure_bind]
    rfl
  rw [hsession]
  refine h.edits.map fun a ha => ?_
  obtain ⟨e, he⟩ := ha
  exact ⟨e, (List.cons.inj he).1⟩

theorem Changes.id_eq (h : c.Changes id f) {e e' : Entry} (he : f e = .ok (some e')) :
    e'.id = e.id := by
  obtain ⟨text, hr, -⟩ := h
  exact Request.id_of_change? hr he

theorem Changes.of_deletes (hc : c.Changes id f) (h : c.Deletes) : f = fun _ => .ok none := by
  obtain ⟨text, now, h⟩ := h
  obtain ⟨text', hr, -⟩ := hc
  rw [h] at hr
  obtain ⟨⟩ := hr
  rfl

theorem Changes.of_stops (hc : c.Changes id f) (h : c.Stops) :
    ∃ now, f = fun e => some <$> (e.stopAt now).mapError .invalid := by
  obtain ⟨text, now, h⟩ := h
  obtain ⟨text', hr, -⟩ := hc
  rw [h] at hr
  obtain ⟨⟩ := hr
  exact ⟨now, rfl⟩

variable {κ ρ : Type} [KeyOrder κ] [DecidableEq κ] {key : ρ → κ} [Store σ]
  {T : OwnedTable σ key} {s s' t : σ}

theorem Changes.applies_leave (h : c.Changes id f) (happlies : T.Applies id f s t)
    (hs : T.entries s = T.entries s') : T.entries t = T.entries (c.leave s') := by
  obtain ⟨e, new, hfetch, hf, heq⟩ := happlies.congr hs
  have hnew : ∀ x ∈ new, x.id = e.id := by
    rintro x ⟨⟩
    exact h.id_eq hf
  exact OwnedTable.Applies.unique ⟨e, new, hfetch, hf, heq⟩
    (h.edits.applies_run T (d := ⟨s', c.ids⟩) hfetch hf hnew)

end Errand

namespace Clients

variable {ι : Type} [DecidableEq ι] [Store σ]

def onErrands (s : σ) (c : ι → Errand) : Clients ι σ :=
  .of s (fun i => (c i).policy) (fun i => [(c i).request]) fun i => (c i).ids

/-- All clients are answered with an entry, and leave the store `t`. -/
structure Succeed (s : Clients ι σ) (schedule : List ι) (t : σ) : Prop where
  answered : ∀ i, ∃ e, ((s.after schedule).client i).rest = .done [.entry (.ok e)]
  store : (s.after schedule).store = t

end Clients

section Two

variable {τ κ ρ : Type} [KeyOrder κ] [DecidableEq κ] {key : ρ → κ} [Store σ]

/-- The entries are as one request after the other leaves them. -/
def EntryView.LeftInOrder (V : EntryView σ τ) (c : Bool → Errand) (s t : σ) : Prop :=
  ∃ i, V.entries t = V.entries ((c !i).leave ((c i).leave s))

/-- What becomes of the entries while two clients change the same one. If one of them has the first
two turns, it has saved before the other loads; otherwise both have loaded before the third turn
saves, and the other client saves last. -/
inductive EntryView.Merged (V : EntryView σ τ) (c : Bool → Errand) (s t : σ) : List Bool → Prop
  | apart {i : Bool} {later : List Bool}
      (h : V.entries t = V.entries ((c !i).leave ((c i).leave s))) :
      Merged V c s t (i :: i :: later)
  | across {i k : Bool} {later : List Bool} (h : V.entries t = V.entries ((c !k).leave s)) :
      Merged V c s t (i :: (!i) :: k :: later)

namespace OwnedTable

variable {T : OwnedTable σ key} {c : Bool → Errand} {id : EntryId}
  {f : Bool → Entry → Except Refusal (Option Entry)} {s s₁ t : σ} {schedule : List Bool}

theorem leftInOrder_of_applies (hc : ∀ i, (c i).Changes id (f i)) {i : Bool}
    (h : T.Applies id (f i) s s₁) (h' : T.Applies id (f !i) s₁ t) : T.LeftInOrder c s t :=
  ⟨i, (hc _).applies_leave h' ((hc i).applies_leave h rfl)⟩

theorem interleaved_of_succeed (hc : ∀ i, (c i).Changes id (f i))
    (h : (Clients.onErrands s c).Succeed schedule t) : T.Interleaved id f s t schedule := by
  obtain ⟨hanswered, rfl⟩ := h
  obtain ⟨v, hrun, hend⟩ :=
    Clients.exists_run T (s := .onErrands s c) (w := fun _ => .loads)
      (fun i => (hc i).edits_session) schedule
  refine hrun.interleaved (fun i e e' he => (hc i).id_eq he) (fun _ => rfl) fun i => ?_
  obtain ⟨e, he⟩ := hanswered i
  have hi := hend i
  rw [he] at hi
  exact hi.eq_saved ⟨e, rfl⟩

theorem Interleaved.merged (hc : ∀ i, (c i).Changes id (f i))
    (h : T.Interleaved id f s t schedule) : T.Merged c s t schedule := by
  cases h with
  | @apart i _ s₁ h hnext =>
    exact .apart ((hc _).applies_leave hnext ((hc i).applies_leave h rfl))
  | across h hfound hlast => exact .across ((hc _).applies_leave hlast rfl)

theorem Interleaved.leftInOrder_of_delete (hc : ∀ i, (c i).Changes id (f i))
    (h : T.Interleaved id f s t schedule) {j : Bool} (hj : f j = fun _ => .ok none) :
    T.LeftInOrder c s t := by
  cases h with
  | apart h hnext => exact leftInOrder_of_applies hc h hnext
  | @across i k later s₁ r h hfound hlast =>
    by_cases hk : k = j
    -- Nothing is saved over an entry that was deleted before.
    · subst hk
      obtain ⟨e, new, hfetch, hf, heq⟩ := h
      rw [hj] at hf
      obtain ⟨⟩ := hf
      rw [heq, ← T.id_of_fetch hfetch, T.find?_written_self (by rintro _ ⟨⟩)] at hfound
      cases hfound
    -- The entry is gone, and the other request would not have found it either.
    · obtain rfl := Bool.eq_not_of_ne hk
      rw [Bool.not_not] at hlast
      have hleave := (hc j).applies_leave hlast rfl
      obtain ⟨e, new, hfetch, hf, heq⟩ := hlast
      rw [hj] at hf
      obtain ⟨⟩ := hf
      have hmissing : Store.fetch ((c j).leave s) id = .error .missing := by
        rw [T.fetch_missing, T.lacks_iff, ← hleave, heq, ← T.id_of_fetch hfetch,
          T.find?_written_self (by rintro _ ⟨⟩)]
        rfl
      have hstays : (c !j).leave ((c j).leave s) = (c j).leave s :=
        (hc _).edits.run_store_of_error (d := ⟨(c j).leave s, (c !j).ids⟩) hmissing
      exact ⟨j, hstays.symm ▸ hleave⟩

theorem Interleaved.leftInOrder_of_absorbs (hc : ∀ i, (c i).Changes id (f i))
    (h : T.Interleaved id f s t schedule)
    (hf : ∀ i e new, f i e = .ok new → ∃ e', new = some e' ∧ f (!i) e' = f (!i) e)
    (hreread : ∀ i e e' s₁, Store.fetch s id = .ok e → f i e = .ok (some e') →
      T.entries s₁ = T.put e' (T.entries s) → Store.fetch s₁ e'.id = .ok e') :
    T.LeftInOrder c s t := by
  cases h with
  | apart h hnext => exact leftInOrder_of_applies hc h hnext
  | @across i k later s₁ r h hfound hlast =>
    have hfirst := h
    obtain ⟨e, new, hfetch, hfk, heq⟩ := h
    obtain ⟨e₁, rfl, habsorbs⟩ := hf k e new hfk
    obtain ⟨_, last, hfetch', hfk', heq'⟩ := hlast
    obtain ⟨⟩ := hfetch.symm.trans hfetch'
    obtain ⟨e₂, rfl, -⟩ := hf _ e last hfk'
    have hid₁ : e₁.id = e.id := (hc k).id_eq hfk
    have hid₂ : e₂.id = e.id := (hc _).id_eq hfk'
    have hagain : T.Applies id (f !k) s₁ t := by
      refine ⟨e₁, some e₂, ?_, habsorbs.trans hfk', ?_⟩
      · rw [← T.id_of_fetch hfetch, ← hid₁]
        exact hreread k e e₁ s₁ hfetch hfk heq
      · rw [heq, heq', T.written_written (by rintro _ ⟨⟩; exact hid₁)
          (by rintro _ ⟨⟩; exact hid₂.trans hid₁.symm) hid₁]
        rfl
    exact leftInOrder_of_applies hc hfirst hagain

end OwnedTable

end Two

theorem Entry.stopAt_stopAt {e e' : Entry} {i : Instant} (h : e.stopAt i = .ok e') (j : Instant) :
    e'.stopAt j = e.stopAt j := by
  obtain ⟨-, -, rfl⟩ := stopAt_eq_ok.mp h
  rfl

theorem Entry.HasPlainInstants.stopAt {e e' : Entry} {i : Instant} (he : e.HasPlainInstants)
    (h : e.stopAt i = .ok e') : e'.HasPlainInstants := by
  obtain ⟨hi, -, rfl⟩ := stopAt_eq_ok.mp h
  have hplain : i.wholeSecond.IsPlain := ⟨i.wholeSecond_isWhole, hi⟩
  intro j hj
  rcases mem_instants.mp hj with rfl | rfl | rfl | hj
  · exact he.start
  · exact he.created
  · exact hplain
  · obtain ⟨⟩ := hj
    exact hplain

theorem Entry.some_stopAt_eq_ok {e : Entry} {new : Option Entry} {now : Instant} :
    some <$> (e.stopAt now).mapError Refusal.invalid = .ok new ↔
      ∃ e', new = some e' ∧ e.stopAt now = .ok e' := by
  cases e.stopAt now with
  | error g => simp [Except.mapError]
  | ok e' => simp [Except.mapError, eq_comm]

theorem OwnedTable.Interleaved.leftInOrder_of_stops {κ ρ : Type} [KeyOrder κ] [DecidableEq κ]
    {key : ρ → κ} [Store σ] {T : OwnedTable σ key} {c : Bool → Errand} {id : EntryId}
    {f : Bool → Entry → Except Refusal (Option Entry)} {s t : σ} {schedule : List Bool}
    (hc : ∀ i, (c i).Changes id (f i)) (h : T.Interleaved id f s t schedule)
    (hstops : ∀ i, (c i).Stops)
    (hreread : ∀ e e' i s₁, Store.fetch s id = .ok e → e.stopAt i = .ok e' →
      T.entries s₁ = T.put e' (T.entries s) → Store.fetch s₁ e'.id = .ok e') :
    T.LeftInOrder c s t := by
  refine h.leftInOrder_of_absorbs hc (fun i e new hf => ?_) fun i e e' s₁ hfetch hf hput => ?_
  · obtain ⟨now, hi⟩ := (hc i).of_stops (hstops i)
    obtain ⟨later, hother⟩ := (hc !i).of_stops (hstops !i)
    rw [hi] at hf
    obtain ⟨e', rfl, hstop⟩ := Entry.some_stopAt_eq_ok.mp hf
    refine ⟨e', rfl, ?_⟩
    simp only [hother, Entry.stopAt_stopAt hstop]
  · obtain ⟨now, hi⟩ := (hc i).of_stops (hstops i)
    rw [hi] at hf
    obtain ⟨_, ⟨⟩, hstop⟩ := Entry.some_stopAt_eq_ok.mp hf
    exact hreread e e' now s₁ hfetch hstop hput

/-- Two clients that change the same entry leave what one after the other would leave, or else both
have loaded the entry before either saved it, and what the first has saved is lost. -/
theorem clients_merge (c : Bool → Errand) (id : EntryId) (hnames : ∀ i, (c i).Names id)
    (schedule : List Bool) :
    (∀ m t : Memory, (Clients.onErrands m c).Succeed schedule t →
      Memory.view.Merged c m t schedule ∧
        ((∃ i, (c i).Deletes) ∨ (∀ i, (c i).Stops) → Memory.view.LeftInOrder c m t)) ∧
    ∀ d t : Database, (Clients.onErrands d c).Succeed schedule t →
      Database.view.Merged c d t schedule ∧
        ((∃ i, (c i).Deletes) ∨
          (∀ i, (c i).Stops) ∧ (∀ e, d.fetch id = .ok e → e.HasPlainInstants) →
            Database.view.LeftInOrder c d t) := by
  choose f hc using fun i => (hnames i).exists_changes
  constructor
  · intro m t hsucceed
    have h : Memory.ownedTable.Interleaved id f m t schedule :=
      OwnedTable.interleaved_of_succeed hc hsucceed
    refine ⟨h.merged hc, ?_⟩
    rintro (⟨i, hi⟩ | hstops)
    · exact h.leftInOrder_of_delete hc ((hc i).of_deletes hi)
    · exact h.leftInOrder_of_stops hc hstops fun e e' i s₁ _ _ hput => Memory.fetch_of_put hput
  · intro d t hsucceed
    have h : Database.ownedTable.Interleaved id f d t schedule :=
      OwnedTable.interleaved_of_succeed hc hsucceed
    refine ⟨h.merged hc, ?_⟩
    rintro (⟨i, hi⟩ | ⟨hstops, hplain⟩)
    · exact h.leftInOrder_of_delete hc ((hc i).of_deletes hi)
    · refine h.leftInOrder_of_stops hc hstops fun e e' i s₁ hfetch hstop hput => ?_
      exact Database.fetch_of_put hput
        (EntryRow.ofEntry_denotes_self.mpr ((hplain e hfetch).stopAt hstop))

def timerUntil (stop : Instant) : Entry :=
  { timerFrom .epoch with
    stop := some stop
    duration := Instant.epoch.secondsUntil stop
    updated := stop }

def stopTwice : Bool → Errand
  | false => ⟨{}, stopFirst, drawApart false⟩
  | true => ⟨{}, .stop "00000000-0000-0000-0000-000000000001" fourSecondsLater, drawApart true⟩

theorem Database.perform_replace {d : Database} {e : Entry} {r : EntryRow}
    (h : d.entries.find? (.named e.id.text) = some r) :
    (Call.replace e).perform d = (.ok (), { d with entries := d.entries.put (.ofEntry e) }) :=
  congrArg (changed d) (replace_eq_ok.mpr ⟨⟨r, h⟩, rfl⟩)

theorem Database.fetch_timer {d : Database}
    (hd : d.entries = Shelf.empty.put (.ofEntry (timerFrom .epoch))) :
    Store.fetch d (timerFrom .epoch).id = .ok (timerFrom .epoch) :=
  fetch_of_put hd
    (EntryRow.ofEntry_denotes_self.mpr (by decide : (timerFrom .epoch).HasPlainInstants))

theorem succeed_stopTwice {d : Database}
    (hd : d.entries = Shelf.empty.put (.ofEntry (timerFrom .epoch))) :
    (Clients.onErrands d stopTwice).Succeed [true, false, false, true]
      { d with
        entries := (d.entries.put (.ofEntry (timerUntil thirdSecond))).put
          (.ofEntry (timerUntil fourSecondsLater)) } := by
  have hload : (Call.fetch (timerFrom .epoch).id).perform d = (.ok (timerFrom .epoch), d) :=
    congrArg (·, d) (Database.fetch_timer hd)
  have hstored : d.entries.find? (.named (timerUntil thirdSecond).id.text) =
      some (.ofEntry (timerFrom .epoch)) := by
    rw [hd]
    exact Shelf.find?_put_self _ _
  have hfirst := Database.perform_replace hstored
  have hlast := Database.perform_replace (e := timerUntil fourSecondsLater)
    (d := { d with entries := d.entries.put (.ofEntry (timerUntil thirdSecond)) })
    (Shelf.find?_put_self d.entries (EntryRow.ofEntry (timerUntil thirdSecond)))
  have hrun := ((Clients.after_of_call (s := .onErrands d stopTwice) (i := true) rfl hload
    [false, false, true]).trans (Clients.after_of_call rfl hload _)).trans
      ((Clients.after_of_call rfl hfirst _).trans (Clients.after_of_call rfl hlast _))
  constructor
  · rw [hrun]
    intro i
    cases i <;> exact ⟨_, rfl⟩
  · rw [hrun]
    rfl

theorem clients_merge_stopTwice :
    (let m : Memory := { entries := Shelf.empty.put (timerFrom .epoch) }
      let t : Memory := { entries := Shelf.empty.put (timerUntil fourSecondsLater) }
      (Clients.onErrands m stopTwice).Succeed [true, false, false, true] t ∧
        Memory.view.Merged stopTwice m t [true, false, false, true] ∧
        Memory.view.LeftInOrder stopTwice m t) ∧
    let d : Database := { entries := Shelf.empty.put (.ofEntry (timerFrom .epoch)) }
    let t : Database :=
      { entries := (d.entries.put (.ofEntry (timerUntil thirdSecond))).put
          (.ofEntry (timerUntil fourSecondsLater)) }
    (Clients.onErrands d stopTwice).Succeed [true, false, false, true] t ∧
      Database.view.Merged stopTwice d t [true, false, false, true] ∧
      Database.view.LeftInOrder stopTwice d t := by
  have hnames (i : Bool) : (stopTwice i).Names ⟨.ofNat 1⟩ := by
    cases i <;> exact ⟨_, rfl, parse_first⟩
  have hstops (i : Bool) : (stopTwice i).Stops := by
    cases i <;> exact ⟨_, _, rfl⟩
  obtain ⟨hmemory, hdatabase⟩ :=
    clients_merge stopTwice ⟨.ofNat 1⟩ hnames [true, false, false, true]
  constructor
  · intro m t
    have hsucceed : (Clients.onErrands m stopTwice).Succeed [true, false, false, true] t :=
      ⟨fun i => by cases i <;> exact ⟨_, rfl⟩, rfl⟩
    obtain ⟨hmerged, horder⟩ := hmemory m t hsucceed
    exact ⟨hsucceed, hmerged, horder (.inr hstops)⟩
  · intro d t
    have hsucceed : (Clients.onErrands d stopTwice).Succeed [true, false, false, true] t :=
      succeed_stopTwice rfl
    obtain ⟨hmerged, horder⟩ := hdatabase d t hsucceed
    refine ⟨hsucceed, hmerged, horder (.inr ⟨hstops, fun e he => ?_⟩)⟩
    obtain ⟨⟩ := (Database.fetch_timer (d := d) rfl).symm.trans he
    decide

def stopBesideTag : Bool → Errand
  | false => ⟨{}, stopFirst, drawApart false⟩
  | true => ⟨{}, tagFirst, drawApart true⟩

/-- The stop of an entry that was loaded before is undone when the tag is saved. -/
theorem clients_merge_not_always :
    ¬∀ (c : Bool → Errand) (id : EntryId) (schedule : List Bool) (m t : Memory),
      (∀ i, (c i).Names id) → (Clients.onErrands m c).Succeed schedule t →
        ∃ i, t.fetch id = ((c !i).leave ((c i).leave m)).fetch id := by
  intro h
  have hnames (i : Bool) : (stopBesideTag i).Names ⟨.ofNat 1⟩ := by
    cases i <;> exact ⟨_, rfl, parse_first⟩
  have hsucceed : (Clients.onErrands ({ entries := Shelf.empty.put (timerFrom .epoch) } : Memory)
      stopBesideTag).Succeed [true, false, false, true] _ :=
    ⟨fun i => by cases i <;> exact ⟨_, rfl⟩, rfl⟩
  obtain ⟨i, hi⟩ := h _ _ _ _ _ hnames hsucceed
  revert hi
  cases i <;> decide +kernel

end Timesheet
