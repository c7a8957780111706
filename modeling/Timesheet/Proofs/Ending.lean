import Timesheet.Proofs.Fresh
import Timesheet.Proofs.SingleTimer
import Timesheet.Proofs.Table

/-!
Ends of entries. Main statement: from a store without entries and with identifiers that do not repeat,
no session makes an entry run again that was stored as finished, nor brings back one that was deleted.
-/

namespace Timesheet

open Service

def Request.subject? : Request → Option String
  | get id => some id
  | r => r.address?

section Missing

variable {σ : Type} [Store σ] {policy : Policy} {d : Desk σ} {r : Request} {text : String}
  {id : EntryId}

theorem run_load_missing (hid : Identifier.parse .entry text = .ok id)
    (hfetch : Store.fetch d.store id = .error .missing) (f : EntryId → Entry → Operation Entry) :
    ((identified (Identifier.parse .entry text) >>= fun id => load id >>= f id).run.run d).1 =
      .error (.notFound .entry id.uuid) := by
  have hload := Operation.ran_addressing d .loadEntry id (.fetch id)
  simp only [Call.perform, hfetch, Except.mapError, addressFault] at hload
  rw [identified_of_ok hid, pure_bind]
  exact congrArg Prod.fst (Operation.ran_bind_error hload).run

theorem Request.reply_of_missing (hr : r.subject? = some text)
    (hid : Identifier.parse .entry text = .ok id)
    (hfetch : Store.fetch d.store id = .error .missing) :
    ((r.program policy).run d).1 = .entry (.error (.notFound .entry id.uuid)) := by
  have hrun := run_load_missing hid hfetch
  cases r <;> cases hr <;> rw [program, Program.run_map]
  · exact congrArg Reply.entry (hrun _)
  · exact congrArg Reply.entry (hrun _)
  · exact congrArg Reply.entry (hrun _)
  · exact congrArg Reply.entry (hrun _)
  · have hget := hrun fun _ e => pure e
    simp only [bind_pure] at hget
    exact congrArg Reply.entry hget

end Missing

namespace EntryTable

variable {σ κ ρ : Type} [Store σ] [KeyOrder κ] [DecidableEq κ] {key : ρ → κ}
  (T : EntryTable σ key) {policy : Policy} {d : Desk σ} {id : EntryId} {qs us rs : List Request}

/-- What is found under an identifier when a session has been answered. -/
def found (policy : Policy) (d : Desk σ) (rs : List Request) (id : EntryId) : Option ρ :=
  (T.entries ((session policy rs).run d).2.store).find? (T.name id)

/-- In a session on a desk every entry is at first not there, then running, then finished, then
gone, if it is not gone earlier: it never goes back. -/
structure InOrder (runs : ρ → Bool) (policy : Policy) (d : Desk σ) (rs : List Request) : Prop where
  finished {id : EntryId} {qs us : List Request} {a b : ρ} (hqs : qs <+: us) (hus : us <+: rs)
    (ha : T.found policy d qs id = some a) (hfinished : runs a = false)
    (hb : T.found policy d us id = some b) : runs b = false
  deleted {id : EntryId} {ps qs us : List Request} {a : ρ} (hps : ps <+: qs) (hqs : qs <+: us)
    (hus : us <+: rs) (ha : T.found policy d ps id = some a)
    (hdeleted : T.found policy d qs id = none) : T.found policy d us id = none
  missing {id : EntryId} {ps qs us : List Request} {a : ρ} (hps : ps <+: qs) (hqs : qs <+: us)
    (hus : us <+: rs) (ha : T.found policy d ps id = some a)
    (hdeleted : T.found policy d qs id = none) {r : Request} {text : String}
    (hr : r.subject? = some text) (hid : Identifier.parse .entry text = .ok id) :
    ((r.program policy).run ((session policy us).run d).2).1 =
      .entry (.error (.notFound .entry id.uuid))

theorem session_keeps_record {P : Option ρ → Prop} (hnone : P none)
    (hedit : ∀ {r : Request} {text : String} {f : Entry → Except Refusal Entry} {a : ρ}
      {e e' : Entry}, r.edit? = some (text, f) → T.Reads a e → f e = .ok e' → P (some a) →
        P (some (T.write e')))
    (hnew : ∀ x ∈ (session policy rs).trace d, ∀ e, x.2 = .insert e → e.id ≠ id)
    (h : P ((T.entries d.store).find? (T.name id))) : P (T.found policy d rs id) := by
  refine T.session_keeps_entries_of_inserts (I := fun t => P (t.find? (T.name id)))
    (C := fun _ => True) (N := fun k => k ≠ id) ?_ (fun _ _ _ _ => trivial) hnew h
  intro d r old new _ hid hmade h
  have hput {e : Entry} (hne : e.id ≠ id) :
      P ((T.put e (T.entries d.store)).find? (T.name id)) := by
    rw [T.find?_put_of_ne _ (T.name_inj.not.mpr hne)]
    exact h
  cases hmade with
  | create howner hentry => exact hput (hid _ rfl rfl)
  | start howner hfields hfree => exact hput (hid _ rfl rfl)
  | @edit _ text f k e e' hr hparse hfetch hf =>
    obtain ⟨a, ha, hread⟩ := T.reads_of_fetch hfetch
    have hk : e'.id = k := (Request.id_of_edit? hr hf).trans (T.id_of_fetch hfetch)
    by_cases hne : e'.id = id
    · obtain rfl := hne.symm.trans hk
      rw [ha] at h
      change P ((T.put e' (T.entries d.store)).find? _)
      rw [← hne, T.find?_put_self]
      exact hedit hr hread hf h
    · exact hput hne
  | @delete text now k e hparse hfetch =>
    change P ((T.erase e.id (T.entries d.store)).find? _)
    by_cases hne : e.id = id
    · rw [hne, T.find?_erase_self]
      exact hnone
    · rw [T.find?_erase_of_ne _ (T.name_inj.not.mpr hne)]
      exact h

theorem exists_drawn {a : ρ} (hnone : (T.entries d.store).find? (T.name id) = none)
    (ha : T.found policy d rs id = some a) : ∃ n, d.ids.drawn ≤ n ∧
      n < ((session policy rs).run d).2.ids.drawn ∧ d.ids.stream n = id := by
  by_contra hnot
  have hnew : ∀ x ∈ (session policy rs).trace d, ∀ e, x.2 = .insert e → e.id ≠ id := by
    rintro x hx e he rfl
    exact hnot (session_draws policy rs d x hx e he)
  have hkept := T.session_keeps_record (P := fun o => o = none) rfl
    (fun _ _ _ h => by cases h) hnew hnone
  cases ha.symm.trans hkept

theorem not_inserted_again {ps : List Request} {a : ρ} (hps : ps <+: qs) (hqs : qs ++ us <+: rs)
    (hfresh : d.ids.IsFresh ((session policy rs).run d).2.ids.drawn fun _ => True)
    (hnone : (T.entries d.store).find? (T.name id) = none)
    (ha : T.found policy d ps id = some a) :
    ∀ x ∈ (session policy us).trace ((session policy qs).run d).2, ∀ e, x.2 = .insert e →
      e.id ≠ id := by
  rintro x hx e he rfl
  -- It was drawn before the later requests, and each of these draws after that.
  obtain ⟨n, hn, hlt, hid⟩ := T.exists_drawn hnone ha
  obtain ⟨m, hm, hlast, hid'⟩ := session_draws policy us _ x hx e he
  have hstart := (session_of_extension policy hps d).1
  have hend := (session_of_extension policy hqs d).1
  rw [Program.stream_run] at hid'
  rw [← (alike_session_append policy qs us d).1, Program.run_bind] at hend
  have heq := (hfresh n hn (by omega)).2 m (by omega) (by omega) (hid'.trans hid.symm)
  omega

theorem found_append (policy : Policy) (d : Desk σ) (qs us : List Request) (id : EntryId) :
    T.found policy d (qs ++ us) id =
      T.found policy ((session policy qs).run d).2 us id := by
  rw [found, ← (alike_session_append policy qs us d).1, Program.run_bind]
  rfl

theorem inOrder {runs : ρ → Bool} (Done : ρ → Prop) (hdone : ∀ a, Done a → runs a = false)
    (hedit : ∀ {r : Request} {text : String} {f : Entry → Except Refusal Entry} {a : ρ}
      {e e' : Entry}, r.edit? = some (text, f) → T.Reads a e → f e = .ok e' → Done a →
        Done (T.write e'))
    (hnone : ∀ id, (T.entries d.store).find? (T.name id) = none)
    (hends : ∀ qs id a, T.found policy d qs id = some a → runs a = false → Done a)
    (hfresh : d.ids.IsFresh ((session policy rs).run d).2.ids.drawn fun _ => True) :
    T.InOrder runs policy d rs := by
  have hdeleted {id : EntryId} {ps qs us : List Request} {a : ρ} (hps : ps <+: qs)
      (hqs : qs <+: us) (hus : us <+: rs) (ha : T.found policy d ps id = some a)
      (hgone : T.found policy d qs id = none) : T.found policy d us id = none := by
    obtain ⟨vs, rfl⟩ := hqs
    rw [T.found_append]
    exact T.session_keeps_record (P := fun o => o = none) rfl (fun _ _ _ h => by cases h)
      (T.not_inserted_again hps hus hfresh (hnone id) ha) hgone
  refine ⟨fun {id qs us a b} hqs hus ha hfinished hb => ?_, hdeleted, ?_⟩
  · obtain ⟨vs, rfl⟩ := hqs
    rw [T.found_append] at hb
    have hkept := T.session_keeps_record (P := fun o => ∀ c ∈ o, Done c) (by simp)
      (fun hr hread hf h c hc => Option.some.inj hc ▸ hedit hr hread hf (h _ rfl))
      (T.not_inserted_again List.prefix_rfl hus hfresh (hnone id) ha)
      (fun c hc => Option.some.inj (ha.symm.trans hc) ▸ hends qs id a ha hfinished)
    exact hdone b (hkept b hb)
  · intro id ps qs us a hps hqs hus ha hgone r text hr hid
    refine Request.reply_of_missing hr hid (T.fetch_missing.mpr (T.lacks_iff.mpr ?_))
    exact hdeleted hps hqs hus ha hgone

end EntryTable

def Entry.IsDone (e : Entry) : Prop :=
  e.stop.isSome = true ∧ e.isRunning = false

def EntryRow.IsDone (r : EntryRow) : Prop :=
  r.stop.isSome = true ∧ Database.isRunningRow r = false

section Done

variable {r : Request} {text : String} {f : Entry → Except Refusal Entry} {e e' : Entry}

theorem Request.isDone_of_edit? (hr : r.edit? = some (text, f)) (h : f e = .ok e')
    (he : e.IsDone) : e'.IsDone := by
  have hfollows := Request.follows_of_edit? hr h
  have htimed : e.IsTimed := .inr he.1
  have hidle : e'.isRunning = false := by
    by_contra hrun
    cases he.2.symm.trans (hfollows.running htimed (by simpa using hrun))
  exact ⟨(hfollows.timed htimed).resolve_left (by simp [hidle]), hidle⟩

theorem EntryRow.isDone_of_denotes {row : EntryRow} (h : row.Denotes e) : row.IsDone ↔ e.IsDone := by
  have hstop : row.stop.isSome = e.stop.isSome := by
    simpa using congrArg Option.isSome h.stop
  have hrun : Database.isRunningRow row = e.isRunning :=
    Bool.eq_iff_iff.mpr (EntryRow.isRunningRow_iff (EntryRow.entry_eq_ok.mpr h))
  rw [EntryRow.IsDone, Entry.IsDone, hstop, hrun]

theorem EntryRow.ofEntry_isDone (he : e.IsDone) : (ofEntry e).IsDone :=
  ⟨(Option.isSome_map ..).trans he.1, (Database.isRunningRow_ofEntry e).trans he.2⟩

theorem Entry.IsSplit.isDone (h : e.IsSplit) (hidle : e.isRunning = false) : e.IsDone := by
  refine ⟨?_, hidle⟩
  rcases h.either.or with ho | ⟨-, stop, hstop, -⟩
  · cases hidle.symm.trans (h.running.mpr ho)
  · exact Option.isSome_of_mem hstop

theorem EntryRow.IsSplit.isDone {row : EntryRow} (h : row.IsSplit)
    (hidle : Database.isRunningRow row = false) : row.IsDone := by
  refine ⟨?_, hidle⟩
  rcases h.either.or with ho | ⟨i, hi, -, stop, hstop, -⟩
  · cases hidle.symm.trans (h.running.mpr ho)
  · have hrel := hi.stop
    rw [Option.mem_def.mp hstop] at hrel
    cases hrow : row.stop with
    | none =>
      rw [hrow] at hrel
      cases hrel
    | some text => rfl

end Done

section Sessions

variable {policy : Policy} {ids : IdSource}

theorem Memory.session_isDone {m : Memory} (hm : m.entries = Shelf.empty) (rs : List Request)
    (id : EntryId) (e : Entry) (h : Memory.table.found policy ⟨m, ids⟩ rs id = some e)
    (hidle : e.isRunning = false) : e.IsDone := by
  have hsplit := Memory.run_holds (session_keeps_pairing policy rs) (fun _ => trivial) ids
    (m := m) (hm ▸ Shelf.holds_empty)
  exact (Entry.isSplit_of_or (hsplit.of_find? h)).isDone hidle

theorem Database.session_isDone {d : Database} (hd : d.entries = Shelf.empty) (rs : List Request)
    (id : EntryId) (r : EntryRow) (h : Database.table.found policy ⟨d, ids⟩ rs id = some r)
    (hidle : Database.isRunningRow r = false) : r.IsDone := by
  have hsplit := Database.run_holds (session_keeps_pairing policy rs) (fun _ => trivial)
    EntryRow.ofEntry_paired (fun _ _ => EntryRow.paired_of_denotes) ids
    (d := d) (hd ▸ Shelf.holds_empty)
  exact (EntryRow.isSplit_of_or (hsplit.of_find? h)).isDone hidle

end Sessions

/-- From a store without entries, with identifiers that do not repeat: an entry that has been stored
as finished is not held as running after any later request, and one that has been deleted is not held
at all, but is answered as missing to whoever asks for it. -/
theorem session_in_order (policy : Policy) (rs : List Request) (ids : IdSource) :
    (∀ m : Memory, m.entries = Shelf.empty →
      ids.IsFresh ((session policy rs).run ⟨m, ids⟩).2.ids.drawn (fun _ => True) →
        Memory.table.InOrder Entry.isRunning policy ⟨m, ids⟩ rs) ∧
    ∀ d : Database, d.entries = Shelf.empty →
      ids.IsFresh ((session policy rs).run ⟨d, ids⟩).2.ids.drawn (fun _ => True) →
        Database.table.InOrder Database.isRunningRow policy ⟨d, ids⟩ rs := by
  constructor
  · intro m hm hfresh
    apply Memory.table.inOrder Entry.IsDone (fun e he => he.2) _ _ _ hfresh
    · rintro r text f _ e e' hr rfl h he
      exact Request.isDone_of_edit? hr h he
    · intro id
      change m.entries.find? id = none
      rw [hm]
      rfl
    · exact Memory.session_isDone hm
  · intro d hd hfresh
    apply Database.table.inOrder EntryRow.IsDone (fun r hr => hr.2) _ _ _ hfresh
    · intro r text f row e e' hr hread h hrow
      apply EntryRow.ofEntry_isDone
      exact Request.isDone_of_edit? hr h ((EntryRow.isDone_of_denotes hread).mp hrow)
    · intro id
      change d.entries.find? (.named id.text) = none
      rw [hd]
      rfl
    · exact Database.session_isDone hd

def spentTimer : List Request :=
  [startTimer "00000000-0000-0000-0000-000000000002", stopFirst,
    .delete "00000000-0000-0000-0000-000000000001" thirdSecond]

def minuteAndTimer : List Request :=
  [.create { fields := timerFields, start := some .epoch, duration := some 60 }
    "00000000-0000-0000-0000-000000000002" .epoch,
    startTimer "00000000-0000-0000-0000-000000000002"]

theorem session_in_order_of_timers :
    (((Request.get "00000000-0000-0000-0000-000000000001").program {}).run
      ((session {} spentTimer).run ⟨({} : Memory), .after 0⟩).2).1 =
        .entry (.error (.notFound .entry (.ofNat 1))) ∧
    ∃ a b, Database.table.found {} ⟨{}, .after 0⟩ (minuteAndTimer.take 1) ⟨.ofNat 1⟩ = some a ∧
      Database.table.found {} ⟨{}, .after 0⟩ minuteAndTimer ⟨.ofNat 1⟩ = some b ∧
        Database.isRunningRow a = false ∧ Database.isRunningRow b = false := by
  have hid : Identifier.parse .entry "00000000-0000-0000-0000-000000000001" = .ok ⟨.ofNat 1⟩ := by
    decide +kernel
  have hfresh {n : Nat} (hn : n ≤ 2) : (IdSource.after 0).IsFresh n fun _ => True := by
    intro i _ hi
    refine ⟨trivial, fun j _ hj => ?_⟩
    obtain rfl | rfl : i = 0 ∨ i = 1 := by omega
    all_goals
      obtain rfl | rfl : j = 0 ∨ j = 1 := by omega
      all_goals decide
  constructor
  · obtain ⟨hm, -⟩ := session_in_order {} spentTimer (.after 0)
    have hfound : Memory.table.found {} ⟨{}, .after 0⟩ (spentTimer.take 1) ⟨.ofNat 1⟩ =
        some (timerFrom .epoch) := by decide +kernel
    have horder := hm {} rfl (hfresh (by decide +kernel))
    exact horder.missing (List.take_prefix _ _) List.prefix_rfl List.prefix_rfl hfound
      (by decide +kernel) rfl hid
  · obtain ⟨-, hd⟩ := session_in_order {} minuteAndTimer (.after 0)
    have hsome : (Database.table.found {} ⟨{}, .after 0⟩ minuteAndTimer ⟨.ofNat 1⟩).isSome = true := by
      decide +kernel
    have hfirst : (Database.table.found {} ⟨{}, .after 0⟩ (minuteAndTimer.take 1) ⟨.ofNat 1⟩).map
        Database.isRunningRow = some false := by decide +kernel
    obtain ⟨b, hb⟩ := Option.isSome_iff_exists.mp hsome
    obtain ⟨a, ha, hidle⟩ := Option.map_eq_some_iff.mp hfirst
    have horder := hd {} rfl (hfresh (by decide +kernel))
    exact ⟨a, b, ha, hb, hidle,
      horder.finished (List.take_prefix _ _) List.prefix_rfl ha hidle hb⟩

end Timesheet
