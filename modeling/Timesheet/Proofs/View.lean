import Timesheet.Proofs.Codec
import Timesheet.Proofs.Holding
import Timesheet.Proofs.Outcome

/-!
The table of entries that a store holds, apart from its other records. An operation on an entry makes
one change to it, which depends on the table and on the next identifier alone, and nothing else
touches it.
-/

namespace Timesheet

open Service

/-- How the entries of a store are kept, whatever else it holds. -/
structure EntryView (σ τ : Type) [Store σ] where
  entries : σ → τ
  put : Entry → τ → τ
  erase : EntryId → τ → τ
  Lacks : τ → EntryId → Prop
  fetch_missing {s : σ} {id : EntryId} :
    Store.fetch s id = .error .missing ↔ Lacks (entries s) id
  fetch_congr {s s' : σ} (id : EntryId) (h : entries s = entries s') :
    Store.fetch s id = Store.fetch s' id
  running_congr {s s' : σ} (user : UserId) (page : Page) (h : entries s = entries s') :
    Store.running s user page = Store.running s' user page
  id_of_fetch {s : σ} {id : EntryId} {e : Entry} (h : Store.fetch s id = .ok e) : e.id = id
  entries_insert {s s' : σ} {e : Entry} (h : Store.insert s e = .ok s') :
    entries s' = put e (entries s)
  entries_replace {s s' : σ} {e : Entry} (h : Store.replace s e = .ok s') :
    entries s' = put e (entries s)
  replaces {s : σ} {e e' : Entry} (h : Store.fetch s e'.id = .ok e) :
    ∃ s', Store.replace s e' = .ok s'
  entries_erase {s s' : σ} {id : EntryId} (h : Store.erase s id = .ok s') :
    entries s' = erase id (entries s)
  erases {s : σ} {id : EntryId} {e : Entry} (h : Store.fetch s id = .ok e) :
    ∃ s', Store.erase s id = .ok s'
  entries_tracked {s s' : σ} {id : TaskId} {n : Int} {now : Instant}
    (h : Store.writeTracked s id n now = .ok s') : entries s' = entries s
  entries_estimate {s s' : σ} {id : ProjectId} {hours : Binary64} {now : Instant} {b : Bool}
    (h : Store.writeEstimate s id hours now = .ok (b, s')) : entries s' = entries s

def Memory.view : EntryView Memory (Shelf Entry.id) where
  entries := Memory.entries
  put e t := t.put e
  erase id t := t.erase id
  Lacks t id := t.find? id = none
  fetch_missing {m id} := by
    change found (m.entries.find? id) = _ ↔ _
    cases m.entries.find? id <;> simp [found]
  fetch_congr {m m'} id h := by
    change found (m.entries.find? id) = found (m'.entries.find? id)
    rw [h]
  running_congr {m m'} user page h := by
    change m.running user page = m'.running user page
    unfold running ofUser
    rw [h]
  id_of_fetch h := (Shelf.find?_eq_some.mp (found_eq_ok.mp h)).2
  entries_insert h := by
    obtain ⟨⟩ := h
    rfl
  entries_replace h := by
    obtain ⟨-, rfl⟩ := replace_eq_ok.mp h
    rfl
  replaces h := ⟨_, replace_eq_ok.mpr ⟨⟨_, found_eq_ok.mp h⟩, rfl⟩⟩
  entries_erase h := by
    obtain ⟨-, rfl⟩ := erase_eq_ok.mp h
    rfl
  erases h := ⟨_, erase_eq_ok.mpr ⟨⟨_, found_eq_ok.mp h⟩, rfl⟩⟩
  entries_tracked h := by
    obtain ⟨r, -, rfl⟩ := writeTracked_eq_ok.mp h
    rfl
  entries_estimate h := by
    obtain ⟨r, -, -, rfl⟩ := writeEstimate_eq_ok.mp h
    split <;> rfl

def Database.view : EntryView Database (Shelf EntryRow.key) where
  entries := Database.entries
  put e t := t.put (.ofEntry e)
  erase id t := t.erase (.named id.text)
  Lacks t id := t.find? (.named id.text) = none
  fetch_missing {d id} := by
    change d.fetch id = _ ↔ _
    unfold fetch
    cases d.entries.find? (.named id.text) with
    | none => simp [found, bind, Except.bind]
    | some r => cases h : r.entry <;> simp [found, bind, Except.bind, Except.mapError, h]
  fetch_congr {d d'} id h := by
    change d.fetch id = d'.fetch id
    unfold fetch
    rw [h]
  running_congr {d d'} user page h := by
    change d.running user page = d'.running user page
    unfold running ofUser
    rw [h]
  id_of_fetch h := by
    obtain ⟨r, hr, he⟩ := fetch_eq_ok.mp h
    exact he.id_eq (Shelf.find?_eq_some.mp hr).2
  entries_insert h := by
    obtain ⟨-, rfl⟩ := insert_eq_ok.mp h
    rfl
  entries_replace h := by
    obtain ⟨-, rfl⟩ := replace_eq_ok.mp h
    rfl
  replaces h := by
    obtain ⟨r, hr, -⟩ := fetch_eq_ok.mp h
    exact ⟨_, replace_eq_ok.mpr ⟨⟨r, hr⟩, rfl⟩⟩
  entries_erase h := by
    obtain ⟨-, rfl⟩ := erase_eq_ok.mp h
    rfl
  erases h := by
    obtain ⟨r, hr, -⟩ := fetch_eq_ok.mp h
    exact ⟨_, erase_eq_ok.mpr ⟨⟨r, hr⟩, rfl⟩⟩
  entries_tracked h := by
    obtain ⟨r, -, rfl⟩ := writeTracked_eq_ok.mp h
    rfl
  entries_estimate h := by
    obtain ⟨r, -, -, h⟩ := writeEstimate_eq_ok.mp h
    split at h
    · rw [h.2]
    · rw [h]

@[simp]
theorem Memory.view_entries (m : Memory) : Memory.view.entries m = m.entries := rfl

@[simp]
theorem Memory.view_put (e : Entry) (t : Shelf Entry.id) : Memory.view.put e t = t.put e := rfl

@[simp]
theorem Database.view_entries (d : Database) : Database.view.entries d = d.entries := rfl

@[simp]
theorem Database.view_put (e : Entry) (t : Shelf EntryRow.key) :
    Database.view.put e t = t.put (.ofEntry e) := rfl

namespace EntryView

variable {σ τ : Type} [Store σ] (V : EntryView σ τ) {policy : Policy} {now : Instant}
  {d d' : Desk σ} {old new : Option Entry} {s s' : σ}

def written (old new : Option Entry) (t : τ) : τ :=
  match new, old with
  | some e, _ => V.put e t
  | none, some e => V.erase e.id t
  | none, none => t

theorem entries_of_edited {t : List (σ × Call)} (h : Edited now d old new s t) :
    V.entries s = V.written old new (V.entries d.store) := by
  cases h with
  | insert hid hwritten h => exact V.entries_insert h
  | replace hfetch hid hwritten h => exact V.entries_replace h
  | erase hfetch h =>
    obtain rfl := V.id_of_fetch hfetch
    exact V.entries_erase h

theorem entries_of_synced {ts : List TaskId} {ps : List ProjectId} {t : List (σ × Call)}
    (h : Synced now s ts ps s' t) : V.entries s' = V.entries s := by
  induction h with
  | done s => rfl
  | task hsum hwrite h ih => exact ih.trans (V.entries_tracked hwrite)
  | project hsum hwrite h ih => exact ih.trans (V.entries_estimate hwrite)
  | quiet hstore hnone h ih => exact ih

theorem makes_congr {r : Request} (hentries : V.entries d'.store = V.entries d.store)
    (hids : d'.ids = d.ids) (h : r.Makes policy d' old new) : r.Makes policy d old new := by
  cases h with
  | create howner h =>
    rw [hids] at h
    exact .create howner h
  | start howner hfields hfree =>
    rw [hids]
    exact .start howner hfields fun hp => (V.running_congr _ _ hentries).symm.trans (hfree hp)
  | edit hr hid hfetch h => exact .edit hr hid ((V.fetch_congr _ hentries).symm.trans hfetch) h
  | delete hid hfetch => exact .delete hid ((V.fetch_congr _ hentries).symm.trans hfetch)

theorem entries_of_single {r : Request} (hr : r.IsSingle) (policy : Policy) (d : Desk σ) :
    V.entries ((r.program policy).run d).2.store = V.entries d.store ∨
      ∃ old new, r.Makes policy d old new ∧
        V.entries ((r.program policy).run d).2.store = V.written old new (V.entries d.store) ∧
        ∀ e ∈ new, old = none → ∃ s, (s, Call.insert e) ∈ (r.program policy).trace d := by
  have hinsert {now : Instant} {old new : Option Entry} {s : σ} {t : List (σ × Call)}
      (h : Edited now d old new s t) : ∀ e ∈ new, old = none → (d.store, Call.insert e) ∈ t := by
    rintro e ⟨⟩ rfl
    cases h with
    | insert hid hwritten h => exact List.mem_cons_self
  obtain ⟨now, hnow, -⟩ := r.exists_clock
  cases hop : r.operation? policy with
  | some op =>
    rw [Request.program_of_operation? hop]
    cases Request.performed (d := d) hop hnow with
    | failed hfails hran hstore hquiet =>
      rw [(hran.map Reply.entry).run]
      exact .inl (congrArg V.entries hstore)
    | @kept old new e d' q t hmade he h hsame hquiet hran =>
      rw [(hran.map Reply.entry).run, (hran.map Reply.entry).trace]
      refine .inr ⟨old, new, hmade, V.entries_of_edited h, fun e he hold => ?_⟩
      exact ⟨_, List.mem_append_right _ (hinsert h e he hold)⟩
    | @synced old new e a s d' tasks ts projects ps t u hmade he h htasks hprojects hsync ha hran =>
      rw [(hran.map Reply.entry).run, (hran.map Reply.entry).trace]
      refine .inr ⟨old, new, hmade, (V.entries_of_synced hsync).trans (V.entries_of_edited h),
        fun e he hold => ?_⟩
      exact ⟨_, List.mem_append_left _ (hinsert h e he hold)⟩
  | none =>
    obtain ⟨reply, s, ts, ps, t, hran, hsync, -⟩ := r.refreshes policy d hr hop hnow
    rw [hran.run]
    exact .inl (V.entries_of_synced hsync)

/-- What every change of an entry keeps of the table, every session keeps, if changes may take for
granted what holds of the identifiers of all entries that are inserted. -/
theorem session_keeps_entries_of_inserts {I : τ → Prop} {C : Instant → Prop} {N : EntryId → Prop}
    (hmade : ∀ {d : Desk σ} {r : Request} {old new : Option Entry}, (∀ i ∈ r.clock?, C i) →
      (∀ e ∈ new, old = none → N e.id) → r.Makes policy d old new → I (V.entries d.store) →
        I (V.written old new (V.entries d.store)))
    {rs : List Request} (hclock : ∀ r ∈ rs, ∀ i ∈ r.clock?, C i)
    (hnew : ∀ x ∈ (session policy rs).trace d, ∀ e, x.2 = .insert e → N e.id)
    (hd : I (V.entries d.store)) : I (V.entries ((session policy rs).run d).2.store) := by
  have step {d : Desk σ} {q : Request} (hq : q.IsSingle) (hc : ∀ i ∈ q.clock?, C i)
      (hnew : ∀ x ∈ (q.program policy).trace d, ∀ e, x.2 = .insert e → N e.id)
      (hd : I (V.entries d.store)) : I (V.entries ((q.program policy).run d).2.store) := by
    rcases V.entries_of_single hq policy d with h | ⟨old, new, hmade', h, hinsert⟩
    · rwa [h]
    · rw [h]
      refine hmade hc (fun e he hold => ?_) hmade' hd
      obtain ⟨s, hs⟩ := hinsert e he hold
      exact hnew _ hs e rfl
  have steps {qs : List Request} (hqs : ∀ q ∈ qs, q.IsSingle ∧ ∀ i ∈ q.clock?, C i) {d : Desk σ}
      (hnew : ∀ x ∈ (session policy qs).trace d, ∀ e, x.2 = .insert e → N e.id)
      (hd : I (V.entries d.store)) : I (V.entries ((session policy qs).run d).2.store) := by
    induction qs generalizing d with
    | nil => exact hd
    | cons q qs ih =>
      obtain ⟨hq, hc⟩ := hqs q List.mem_cons_self
      rw [session, Program.trace_bind, bind_pure_comp, map_eq_pure_bind, Program.trace_bind] at hnew
      rw [session, Program.run_bind, bind_pure_comp, Program.run_map]
      refine ih (fun q hq => hqs q (List.mem_cons_of_mem _ hq)) (fun x hx => hnew x ?_)
        (step hq hc (fun x hx => hnew x (List.mem_append_left _ hx)) hd)
      exact List.mem_append_right _ (List.mem_append_left _ hx)
  -- A batch does to the table what its requests do one by one.
  obtain ⟨hrun, htrace⟩ := alike_session_parts policy rs d
  rw [hrun]
  rw [htrace] at hnew
  refine steps (fun q hq => ?_) hnew hd
  obtain ⟨r, hr, hq⟩ := List.mem_flatMap.mp hq
  exact ⟨Request.isSingle_of_mem_parts hq, Request.clock?_of_mem_parts hq ▸ hclock r hr⟩

theorem session_keeps_entries {I : τ → Prop} {C : Instant → Prop}
    (hmade : ∀ {d : Desk σ} {r : Request} {old new : Option Entry}, (∀ i ∈ r.clock?, C i) →
      r.Makes policy d old new → I (V.entries d.store) → I (V.written old new (V.entries d.store)))
    {rs : List Request} (hclock : ∀ r ∈ rs, ∀ i ∈ r.clock?, C i) (hd : I (V.entries d.store)) :
    I (V.entries ((session policy rs).run d).2.store) :=
  V.session_keeps_entries_of_inserts (N := fun _ => True) (fun hc _ => hmade hc) hclock
    (fun _ _ _ _ => trivial) hd

section Edits

variable {r : Request} {text : String} {f : Entry → Except Refusal Entry} {id : EntryId} {e : Entry}

theorem replaces_of_makes (V : EntryView σ τ) {e' : Entry}
    (h : r.Makes policy d (some e) (some e')) : ∃ s, Store.replace d.store e' = .ok s := by
  cases h with
  | edit hr hid hfetch hf =>
    have heq := (Request.id_of_edit? hr hf).trans (V.id_of_fetch hfetch)
    exact V.replaces (heq ▸ hfetch)

theorem refused_of_fails (V : EntryView σ τ) {g : ServiceFault} (hr : r.edit? = some (text, f))
    (hid : Identifier.parse .entry text = .ok id) (hfetch : Store.fetch d.store id = .ok e)
    (h : r.Fails policy d g) : ∃ g', f e = .error g' ∧ g = .refused g' := by
  have haddress := Request.address?_of_edit? hr
  cases h with
  | unnamed hr' hid' =>
    obtain ⟨⟩ := haddress.symm.trans hr'
    cases hid.symm.trans hid'
  | unloaded hr' hid' hfetch' =>
    obtain ⟨⟩ := haddress.symm.trans hr'
    obtain ⟨⟩ := hid.symm.trans hid'
    cases hfetch.symm.trans hfetch'
  | @unedited _ text' f' id' e₁ g' hr' hid' hfetch' h =>
    obtain ⟨⟩ := hr.symm.trans hr'
    obtain ⟨⟩ := hid.symm.trans hid'
    obtain ⟨⟩ := hfetch.symm.trans hfetch'
    exact ⟨g', h, rfl⟩
  | unsaved hmade h =>
    obtain ⟨s, hs⟩ := V.replaces_of_makes hmade
    cases h.symm.trans hs
  | unowned hr' howner => cases r <;> cases hr <;> cases hr'
  | uninserted hmade h => cases hmade <;> cases hr
  | _ => cases hr

theorem edit_answered {e' : Entry} (hr : r.edit? = some (text, f))
    (hid : Identifier.parse .entry text = .ok id) (hfetch : Store.fetch d.store id = .ok e)
    (hf : f e = .ok e') :
    V.entries ((r.program policy).run d).2.store = V.put e' (V.entries d.store) ∧
      (((r.program policy).run d).1 = .entry (.ok e') ∨
        ∃ cause, ((r.program policy).run d).1 = .entry (.error (.stale e'.id cause))) := by
  obtain ⟨now, hnow, -⟩ := r.exists_clock
  obtain ⟨op, hop⟩ := Request.operation?_of_address? policy (Request.address?_of_edit? hr)
  have hmade' : r.Makes policy d (some e) (some e') := .edit hr hid hfetch hf
  rw [Request.program_of_operation? hop, Program.run_map]
  cases Request.performed (d := d) hop hnow with
  | failed hfails hran hstore hquiet =>
    obtain ⟨g, hg, -⟩ := V.refused_of_fails hr hid hfetch hfails
    cases hf.symm.trans hg
  | kept hmade he h hsame hquiet hran =>
    obtain ⟨rfl, rfl⟩ := hmade.unique hmade'
    obtain ⟨⟩ := he
    rw [hran.run]
    exact ⟨V.entries_of_edited h, .inl rfl⟩
  | synced hmade he h htasks hprojects hsync ha hran =>
    obtain ⟨rfl, rfl⟩ := hmade.unique hmade'
    obtain ⟨⟩ := he
    rw [hran.run]
    refine ⟨(V.entries_of_synced hsync).trans (V.entries_of_edited h), ?_⟩
    rcases ha with ⟨rfl, -⟩ | ⟨cause, rfl⟩
    · exact .inl rfl
    · exact .inr ⟨cause, rfl⟩

theorem edit_refused (V : EntryView σ τ) {g : Refusal} (hr : r.edit? = some (text, f))
    (hid : Identifier.parse .entry text = .ok id) (hfetch : Store.fetch d.store id = .ok e)
    (hf : f e = .error g) :
    ((r.program policy).run d).1 = .entry (.error (.refused g)) ∧
      ((r.program policy).run d).2.store = d.store := by
  obtain ⟨now, hnow, -⟩ := r.exists_clock
  obtain ⟨op, hop⟩ := Request.operation?_of_address? policy (Request.address?_of_edit? hr)
  have hnot {old new : Option Entry} (h : r.Makes policy d old new) : False := by
    cases h with
    | edit hr' hid' hfetch' hf' =>
      obtain ⟨⟩ := hr.symm.trans hr'
      obtain ⟨⟩ := hid.symm.trans hid'
      obtain ⟨⟩ := hfetch.symm.trans hfetch'
      cases hf.symm.trans hf'
    | _ => cases hr
  rw [Request.program_of_operation? hop, Program.run_map]
  cases Request.performed (d := d) hop hnow with
  | failed hfails hran hstore hquiet =>
    obtain ⟨g', hg, rfl⟩ := V.refused_of_fails hr hid hfetch hfails
    obtain ⟨⟩ := hf.symm.trans hg
    rw [hran.run]
    exact ⟨rfl, hstore⟩
  | kept hmade he h hsame hquiet hran => exact (hnot hmade).elim
  | synced hmade he h htasks hprojects hsync ha hran => exact (hnot hmade).elim

end Edits

end EntryView

end Timesheet
