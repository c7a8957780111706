import Timesheet.Proofs.View

/-!
Requests that fail. Main statement: a fault leaves the store as it was, unless it is a stale one, which
leaves the entries as the answer does that the request would get with other totals, and names the entry
that was changed; and an entry is reported missing exactly if its identifier can be read and the
store lacks it.
-/

namespace Timesheet

open Service

variable {α β σ τ : Type}

theorem changed_of_error {s : σ} {r : Except StoreFault σ} {g : StoreFault}
    (h : (changed s r).1 = .error g) : (changed s r).2 = s := by
  cases r with
  | ok t => cases h
  | error e => rfl

theorem changedIf_of_error {s : σ} {r : Except StoreFault (Bool × σ)} {g : StoreFault}
    (h : (changedIf s r).1 = .error g) : (changedIf s r).2 = s := by
  cases r with
  | ok t => cases h
  | error e => rfl

section Spares

variable [Store σ]

theorem Call.perform_of_error {s : σ} {c : Call} {g : StoreFault}
    (h : (c.perform s).1 = .error g) : (c.perform s).2 = s := by
  cases c with
  | insert e => exact changed_of_error h
  | replace e => exact changed_of_error h
  | erase id => exact changed_of_error h
  | writeTracked id seconds now => exact changed_of_error h
  | writeEstimate id hours now => exact changedIf_of_error h
  | _ => rfl

def Spares (d : Desk σ) (op : Operation α) : Prop :=
  ∀ f, (op.run.run d).1 = .error f → (op.run.run d).2.store = d.store

variable {d : Desk σ} {op : Operation α}

theorem spares_ask (k : StoreFault → ServiceFault) (c : Call) :
    Spares d (ExceptT.mk (Except.mapError k <$> Program.ask c)) := by
  intro f h
  change (c.perform d.store).1.mapError k = .error f at h
  change (c.perform d.store).2 = d.store
  cases hc : (c.perform d.store).1 with
  | error g => exact Call.perform_of_error hc
  | ok a =>
    rw [hc] at h
    cases h

theorem spares_pure (a : α) : Spares d (pure a) := by
  rintro f ⟨⟩

theorem spares_bind {f : α → Operation β} (hop : (op.run.run d).2 = d)
    (hf : ∀ a, Spares d (f a)) : Spares d (op >>= f) := by
  intro g
  rw [ExceptT.run_bind, Program.run_bind, hop]
  cases (op.run.run d).1 with
  | ok a => exact hf a g
  | error e => exact fun _ => rfl

theorem Spares.bind_pure (h : Spares d op) (g : α → β) :
    Spares d (op >>= fun a => pure (g a)) := by
  intro f
  rw [ExceptT.run_bind, Program.run_bind]
  cases hop : (op.run.run d).1 with
  | ok a => exact fun h => by cases h
  | error e => exact fun _ => h e hop

theorem spares_checked_bind {x : Except Refusal α} {f : α → Operation β}
    (hf : ∀ a, Spares d (f a)) : Spares d (checked x >>= f) := by
  apply spares_bind _ hf
  cases x <;> rfl

theorem spares_ite {c : Prop} [Decidable c] {op op' : Operation α} (h : Spares d op)
    (h' : Spares d op') : Spares d (if c then op else op') := by
  split
  · exact h
  · exact h'

theorem store_of_fault_of_spares {g : Except ServiceFault α → Reply} {f : ServiceFault}
    (hg : ∀ a, (g (.ok a)).fault? = none) (h : Spares d op)
    (hfault : ((g <$> op.run).run d).1.fault? = some f) :
    ((g <$> op.run).run d).2.store = d.store := by
  rw [Program.run_map] at hfault ⊢
  cases hop : (op.run.run d).1 with
  | ok a =>
    rw [hop] at hfault
    cases (hg a).symm.trans hfault
  | error e => exact h e hop

end Spares

section Faults

variable [Store σ] {policy : Policy} {now : Instant} {d : Desk σ} {r : Request} {f : ServiceFault}

theorem Performed.store_of_error {op : Operation Entry} (h : Performed policy now d r op.run)
    (hfault : (op.run.run d).1 = .error f) (hf : ¬f.IsStale) :
    (op.run.run d).2.store = d.store := by
  cases h with
  | failed hfails hran hstore hquiet =>
    rw [hran.run]
    exact hstore
  | kept hmade he h hsame hquiet hran =>
    rw [hran.run] at hfault
    cases hfault
  | synced hmade he h htasks hprojects hsync ha hran =>
    rw [hran.run] at hfault
    rcases ha with ⟨rfl, -⟩ | ⟨cause, rfl⟩
    · cases hfault
    · obtain ⟨⟩ := hfault
      exact absurd ⟨_, cause, rfl⟩ hf

theorem Request.reply_of_not_isSingle (policy : Policy) (d : Desk σ) (hr : ¬r.IsSingle) :
    ∃ items, ((r.program policy).run d).1 = .batch items := by
  cases r with
  | updateBatch ids patch i => exact ⟨_, congrArg Prod.fst (Program.run_map _ _ _)⟩
  | updateTagsBatch ids tags mode i => exact ⟨_, congrArg Prod.fst (Program.run_map _ _ _)⟩
  | _ => exact absurd trivial hr

theorem Request.store_of_fault (hfault : ((r.program policy).run d).1.fault? = some f)
    (hf : ¬((r.program policy).run d).1.IsStale) :
    ((r.program policy).run d).2.store = d.store := by
  obtain ⟨now, hnow, -⟩ := r.exists_clock
  cases hop : r.operation? policy with
  | some op =>
    rw [Request.program_of_operation? hop, Program.run_map] at hfault hf ⊢
    have herror := Reply.fault?_entry.mp hfault
    rw [herror] at hf
    exact (Request.performed hop hnow).store_of_error herror hf
  | none =>
    have hsingle : r.IsSingle := by
      by_contra hr
      obtain ⟨items, hitems⟩ := r.reply_of_not_isSingle policy d hr
      rw [hitems] at hfault
      cases hfault
    cases r with
    | updateBatch ids patch i => cases hsingle
    | updateTagsBatch ids tags mode i => cases hsingle
    | syncTaskTime id i =>
      exact store_of_fault_of_spares (fun _ => rfl) (spares_checked_bind fun id =>
        spares_bind rfl fun n => (spares_ask _ _).bind_pure _) hfault
    | syncProjectTime id i =>
      exact store_of_fault_of_spares (fun _ => rfl) (spares_checked_bind fun id =>
        spares_bind rfl fun n => (spares_ask _ _).bind_pure _) hfault
    | get id =>
      exact store_of_fault_of_spares (fun _ => rfl)
        (spares_checked_bind fun id => spares_ask _ _) hfault
    | running owner page =>
      exact store_of_fault_of_spares (fun _ => rfl)
        (spares_checked_bind fun user => spares_ask _ _) hfault
    | range owner page first last =>
      exact store_of_fault_of_spares (fun _ => rfl) (spares_checked_bind fun user =>
        spares_ite (spares_pure _) (spares_ask _ _)) hfault
    | dashboard owner i =>
      exact store_of_fault_of_spares (fun _ => rfl) (spares_checked_bind fun user =>
        spares_bind rfl fun es => (spares_ask _ _).bind_pure _) hfault
    | _ => cases hop

theorem Request.operation?_of_stale {id : EntryId} {cause : ServiceFault}
    (h : ((r.program policy).run d).1 = .entry (.error (.stale id cause))) :
    ∃ op, r.operation? policy = some op := by
  have hstale : ((r.program policy).run d).1.IsStale := by
    rw [h]
    exact ⟨id, cause, rfl⟩
  obtain ⟨now, hnow, -⟩ := r.exists_clock
  cases hop : r.operation? policy with
  | some op => exact ⟨op, rfl⟩
  | none =>
    by_cases hr : r.IsSingle
    · obtain ⟨reply, s, ts, ps, t, hran, -, hreply, -⟩ := r.refreshes policy d hr hop hnow
      rw [hran.run] at hstale
      exact absurd hstale hreply
    · obtain ⟨items, hitems⟩ := r.reply_of_not_isSingle policy d hr
      rw [hitems] at h
      cases h

end Faults

/-- A request fails without a trace, or with one that is told. -/
structure Request.IsAtomic [Store σ] (V : EntryView σ τ) (policy : Policy) (d : Desk σ)
    (r : Request) : Prop where
  failed : ¬((r.program policy).run d).1.IsStale →
    ∀ f, ((r.program policy).run d).1.fault? = some f →
      ((r.program policy).run d).2.store = d.store
  /-- The entries have been changed as the request has it, and the changed entry is named. -/
  stale : ∀ id cause, ((r.program policy).run d).1 = .entry (.error (.stale id cause)) →
    ∃ old new e, r.Makes policy d old new ∧ new.or old = some e ∧ e.id = id ∧
      V.entries ((r.program policy).run d).2.store = V.written old new (V.entries d.store)
  /-- The same becomes of the entries wherever the totals can be brought up to date. -/
  answered : ∀ id cause, ((r.program policy).run d).1 = .entry (.error (.stale id cause)) →
    ∀ (d' : Desk σ) (e : Entry), V.entries d'.store = V.entries d.store → d'.ids = d.ids →
      ((r.program policy).run d').1 = .entry (.ok e) → e.id = id ∧
        V.entries ((r.program policy).run d').2.store =
          V.entries ((r.program policy).run d).2.store
  missing : ∀ text, r.address? = some text →
    ((∃ f, ((r.program policy).run d).1.fault? = some f ∧ f.kind = .notFound) ↔
      ∃ id, Identifier.parse .entry text = .ok id ∧ V.Lacks (V.entries d.store) id)

namespace EntryView

variable [Store σ] (V : EntryView σ τ) {policy : Policy} {now : Instant} {d : Desk σ} {r : Request}
  {op : Operation Entry} {p : Program (Except ServiceFault Entry)}

theorem entries_of_stale {id : EntryId} {cause : ServiceFault}
    (h : ((r.program policy).run d).1 = .entry (.error (.stale id cause))) :
    ∃ old new e, r.Makes policy d old new ∧ new.or old = some e ∧ e.id = id ∧
      V.entries ((r.program policy).run d).2.store = V.written old new (V.entries d.store) := by
  obtain ⟨now, hnow, -⟩ := r.exists_clock
  obtain ⟨op, hop⟩ := Request.operation?_of_stale h
  rw [Request.program_of_operation? hop, Program.run_map] at h ⊢
  have herror := Reply.entry.inj h
  cases Request.performed (d := d) hop hnow with
  | failed hfails hran hstore hquiet =>
    rw [hran.run] at herror
    obtain ⟨⟩ := herror
    exact absurd ⟨id, cause, rfl⟩ hfails.not_isStale
  | kept hmade he h hsame hquiet hran =>
    rw [hran.run] at herror
    cases herror
  | @synced old new e a s d' tasks ts projects ps t u hmade he h htasks hprojects hsync ha hran =>
    rw [hran.run] at herror ⊢
    refine ⟨old, new, e, hmade, he, ?_, (V.entries_of_synced hsync).trans (V.entries_of_edited h)⟩
    rcases ha with ⟨rfl, -⟩ | ⟨cause', rfl⟩
    · cases herror
    · obtain ⟨⟩ := herror
      rfl

theorem entries_of_answer {e : Entry} (hop : r.operation? policy = some op)
    (h : ((r.program policy).run d).1 = .entry (.ok e)) :
    ∃ old new, r.Makes policy d old new ∧ new.or old = some e ∧
      V.entries ((r.program policy).run d).2.store = V.written old new (V.entries d.store) := by
  obtain ⟨now, hnow, -⟩ := r.exists_clock
  rw [Request.program_of_operation? hop, Program.run_map] at h ⊢
  have hok := Reply.entry.inj h
  cases Request.performed (d := d) hop hnow with
  | failed hfails hran hstore hquiet =>
    rw [hran.run] at hok
    cases hok
  | @kept old new e d' q t hmade he h hsame hquiet hran =>
    rw [hran.run] at hok ⊢
    obtain ⟨⟩ := hok
    exact ⟨old, new, hmade, he, V.entries_of_edited h⟩
  | @synced old new e a s d' tasks ts projects ps t u hmade he h htasks hprojects hsync ha hran =>
    rw [hran.run] at hok ⊢
    refine ⟨old, new, hmade, ?_, (V.entries_of_synced hsync).trans (V.entries_of_edited h)⟩
    rcases ha with ⟨rfl, -⟩ | ⟨cause', rfl⟩
    · obtain ⟨⟩ := hok
      exact he
    · cases hok

theorem not_lacks_of_fetch {text : String} {id id' : EntryId} {e : Entry}
    (hid : Identifier.parse .entry text = .ok id) (hfetch : Store.fetch d.store id = .ok e) :
    ¬(Identifier.parse .entry text = .ok id' ∧ V.Lacks (V.entries d.store) id') := by
  rintro ⟨hid', hlacks⟩
  obtain rfl : id = id' := Except.ok.inj (hid.symm.trans hid')
  cases (V.fetch_missing.mpr hlacks).symm.trans hfetch

theorem not_lacks_of_makes {text : String} {old new : Option Entry} {id : EntryId}
    (hr : r.address? = some text) (h : r.Makes policy d old new) :
    ¬(Identifier.parse .entry text = .ok id ∧ V.Lacks (V.entries d.store) id) := by
  cases h with
  | create howner h => cases hr
  | start howner hfields hfree => cases hr
  | edit hedit hid hfetch h =>
    obtain ⟨⟩ := (Request.address?_of_edit? hedit).symm.trans hr
    exact V.not_lacks_of_fetch hid hfetch
  | delete hid hfetch =>
    obtain ⟨⟩ := hr
    exact V.not_lacks_of_fetch hid hfetch

theorem kind_of_fails {text : String} {f : ServiceFault} (hr : r.address? = some text)
    (h : r.Fails policy d f) : f.kind = .notFound ↔
      ∃ id, Identifier.parse .entry text = .ok id ∧ V.Lacks (V.entries d.store) id := by
  -- Of the calls that an operation makes on the entry it names, only the first can miss it.
  cases h with
  | @unnamed _ text' g hr' hid =>
    obtain ⟨⟩ := hr'.symm.trans hr
    simp [ServiceFault.kind, hid]
  | @unloaded _ text' id g hr' hid hfetch =>
    obtain ⟨⟩ := hr'.symm.trans hr
    rw [hid]
    simp only [Except.ok.injEq, exists_eq_left', ← V.fetch_missing, hfetch, Except.error.injEq]
    cases g <;> simp [addressFault, ServiceFault.kind]
  | @unedited _ text' k id e g hr' hid hfetch h =>
    obtain ⟨⟩ := (Request.address?_of_edit? hr').symm.trans hr
    have hkind : (ServiceFault.refused g).kind ≠ .notFound := by
      cases g <;> simp [ServiceFault.kind]
    refine iff_of_false hkind ?_
    rintro ⟨id', h'⟩
    exact V.not_lacks_of_fetch hid hfetch h'
  | unsaved hmade h =>
    obtain ⟨s, hs⟩ := V.replaces_of_makes hmade
    cases h.symm.trans hs
  | unerased hid hfetch h =>
    obtain ⟨s, hs⟩ := V.erases hfetch
    cases h.symm.trans hs
  | unowned hr' howner => cases r <;> cases hr <;> cases hr'
  | uninserted hmade h => cases hmade <;> cases hr
  | _ => cases hr

theorem missing_iff {text : String} (hr : r.address? = some text)
    (h : Performed policy now d r p) :
    (∃ f, (p.run d).1 = .error f ∧ f.kind = .notFound) ↔
      ∃ id, Identifier.parse .entry text = .ok id ∧ V.Lacks (V.entries d.store) id := by
  cases h with
  | @failed f d' t hfails hran hstore hquiet =>
    rw [hran.run, ← V.kind_of_fails hr hfails]
    simp
  | kept hmade he h hsame hquiet hran =>
    rw [hran.run]
    exact iff_of_false (by simp) fun ⟨id, h⟩ => V.not_lacks_of_makes hr hmade h
  | synced hmade he h htasks hprojects hsync ha hran =>
    rw [hran.run]
    refine iff_of_false ?_ fun ⟨id, h⟩ => V.not_lacks_of_makes hr hmade h
    rcases ha with ⟨rfl, -⟩ | ⟨cause, rfl⟩ <;> simp [ServiceFault.kind]

theorem isAtomic (policy : Policy) (d : Desk σ) (r : Request) : r.IsAtomic V policy d where
  failed hf f hfault := Request.store_of_fault hfault hf
  stale id cause h := V.entries_of_stale h
  answered id cause h d' e' hsame hids hok := by
    obtain ⟨op, hop⟩ := Request.operation?_of_stale h
    obtain ⟨old, new, e, hmade, he, hid, hentries⟩ := V.entries_of_stale h
    obtain ⟨old', new', hmade', he', hentries'⟩ := V.entries_of_answer hop hok
    obtain ⟨rfl, rfl⟩ := hmade.unique (V.makes_congr hsame hids hmade')
    obtain rfl : e = e' := Option.some.inj (he.symm.trans he')
    exact ⟨hid, hentries'.trans (hsame ▸ hentries.symm)⟩
  missing text hr := by
    obtain ⟨now, hnow, -⟩ := r.exists_clock
    obtain ⟨op, hop⟩ := Request.operation?_of_address? policy hr
    rw [← V.missing_iff hr (Request.performed hop hnow), Request.program_of_operation? hop,
      Program.run_map]
    simp only [Reply.fault?_entry]

end EntryView

theorem request_atomic (policy : Policy) (r : Request) :
    (∀ d : Desk Memory, r.IsAtomic Memory.view policy d) ∧
      ∀ d : Desk Database, r.IsAtomic Database.view policy d :=
  ⟨fun d => Memory.view.isAtomic policy d r, fun d => Database.view.isAtomic policy d r⟩

end Timesheet
