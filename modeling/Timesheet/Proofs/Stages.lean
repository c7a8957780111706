import Timesheet.Proofs.Ownership
import Timesheet.Proofs.Turns

/-!
Requests that change an entry, call by call: the entry is loaded, what is made of it is saved, and
after that no entry is touched. So what clients with one such request each make of the entries can be
told from the stages that they pass through.
-/

namespace Timesheet

open Service

variable {α β σ : Type}

def Request.change? : Request → Option (String × (Entry → Except Refusal (Option Entry)))
  | delete id _ => some (id, fun _ => .ok none)
  | r => r.edit?.map fun p => (p.1, fun e => some <$> p.2 e)

def Call.SparesEntries : Call → Prop
  | insert _ => False
  | replace _ => False
  | erase _ => False
  | _ => True

namespace Program

def SparesEntries : Program α → Prop
  | done _ => True
  | draw next => ∀ id, (next id).SparesEntries
  | call c next => c.SparesEntries ∧ ∀ r, (next r).SparesEntries

theorem SparesEntries.bind {p : Program α} {f : α → Program β} (hp : p.SparesEntries)
    (hf : ∀ a, (f a).SparesEntries) : (p >>= f).SparesEntries := by
  change (p.bind f).SparesEntries
  induction p with
  | done a => exact hf a
  | draw next ih => exact fun id => ih id (hp id)
  | call c next ih => exact ⟨hp.1, fun r => ih r (hp.2 r)⟩

theorem SparesEntries.map {p : Program α} (f : α → β) (hp : p.SparesEntries) :
    (f <$> p).SparesEntries := by
  rw [map_eq_pure_bind]
  exact hp.bind fun _ => trivial

def Failed (G : α → Prop) (p : Program α) : Prop :=
  ∃ a, p = done a ∧ ¬G a

/-- The next call puts the new entry, if there is one, in the place of the old one. -/
inductive Saves (G : α → Prop) (e : Entry) : Option Entry → Program α → Prop
  | replace {e' : Entry} {next : Except StoreFault Unit → Program α}
      (hfail : ∀ f, (next (.error f)).Failed G) (hok : (next (.ok ())).SparesEntries) :
      Saves G e (some e') (call (.replace e') next)
  | erase {next : Except StoreFault Unit → Program α}
      (hfail : ∀ f, (next (.error f)).Failed G) (hok : (next (.ok ())).SparesEntries) :
      Saves G e none (call (.erase e.id) next)

/-- The next call loads the entry, and the one after it saves what it is changed to. -/
inductive Edits (G : α → Prop) (id : EntryId) (f : Entry → Except Refusal (Option Entry)) :
    Program α → Prop
  | fetch {next : Except StoreFault Entry → Program α}
      (hfail : ∀ g, (next (.error g)).Failed G)
      (hrefused : ∀ e g, f e = .error g → (next (.ok e)).Failed G)
      (hsaves : ∀ e new, e.id = id → f e = .ok new → (next (.ok e)).Saves G e new) :
      Edits G id f (call (.fetch id) next)

section Map

variable {G : α → Prop} {H : β → Prop} {g : α → β} {p : Program α} {e : Entry} {new : Option Entry}
  {id : EntryId} {f : Entry → Except Refusal (Option Entry)}

theorem Failed.map (hg : ∀ a, H (g a) → G a) (h : p.Failed G) : (g <$> p).Failed H := by
  obtain ⟨a, rfl, ha⟩ := h
  exact ⟨g a, rfl, fun hb => ha (hg a hb)⟩

theorem Saves.map (hg : ∀ a, H (g a) → G a) (h : p.Saves G e new) : (g <$> p).Saves H e new := by
  cases h with
  | replace hfail hok => exact .replace (fun f => (hfail f).map hg) (hok.map g)
  | erase hfail hok => exact .erase (fun f => (hfail f).map hg) (hok.map g)

theorem Edits.map (hg : ∀ a, H (g a) → G a) (h : p.Edits G id f) : (g <$> p).Edits H id f := by
  cases h with
  | fetch hfail hrefused hsaves =>
    exact .fetch (fun g => (hfail g).map hg) (fun e g he => (hrefused e g he).map hg)
      fun e new hid he => (hsaves e new hid he).map hg

end Map

end Program

namespace Service

theorem sparesEntries_addressing {kind : IdentifierKind} (action : Action) (id : Identifier kind)
    {c : Call} (hc : c.SparesEntries) : (addressing action id c).run.SparesEntries :=
  ⟨hc, fun _ => trivial⟩

theorem sparesEntries_bind {op : Operation α} {f : α → Operation β} (hop : op.run.SparesEntries)
    (hf : ∀ a, (f a).run.SparesEntries) : (op >>= f).run.SparesEntries := by
  rw [ExceptT.run_bind]
  refine hop.bind fun r => ?_
  cases r with
  | ok a => exact hf a
  | error g => trivial

theorem sparesEntries_syncTask (id : TaskId) (now : Instant) :
    (syncTask id now).run.SparesEntries := by
  apply sparesEntries_bind (sparesEntries_addressing _ _ (c := .taskTotal id) trivial)
  intro n
  apply sparesEntries_bind
    (sparesEntries_addressing _ _ (c := .writeTracked id n now.wholeSecond) trivial)
  exact fun _ => trivial

theorem sparesEntries_syncProject (id : ProjectId) (now : Instant) :
    (syncProject id now).run.SparesEntries := by
  apply sparesEntries_bind (sparesEntries_addressing _ _ (c := .projectTotal id) trivial)
  intro n
  apply sparesEntries_bind (sparesEntries_addressing _ _
    (c := .writeEstimate id (hoursOfSeconds n) now.wholeSecond) trivial)
  exact fun _ => trivial

theorem sparesEntries_syncTasks (now : Instant) (ids : List TaskId) :
    (syncTasks now ids).run.SparesEntries := by
  induction ids with
  | nil => trivial
  | cons id ids ih => exact sparesEntries_bind (sparesEntries_syncTask id now) fun _ => ih

theorem sparesEntries_syncProjects (now : Instant) (ids : List ProjectId) :
    (syncProjects now ids).run.SparesEntries := by
  induction ids with
  | nil => trivial
  | cons id ids ih => exact sparesEntries_bind (sparesEntries_syncProject id now) fun _ => ih

theorem sparesEntries_resync (entry : EntryId) (tasks : List TaskId) (projects : List ProjectId)
    (now : Instant) : (resync entry tasks projects now).run.SparesEntries := by
  have hsync : (syncAll tasks projects now).run.SparesEntries :=
    sparesEntries_bind (sparesEntries_syncTasks now _) fun _ => sparesEntries_syncProjects now _
  exact hsync.map _

def Granted (r : Except ServiceFault Entry) : Prop :=
  ∃ e, r = .ok e

theorem failed_of_error {f : ServiceFault} : (Program.done (.error f)).Failed Granted :=
  ⟨_, rfl, fun ⟨_, h⟩ => nomatch h⟩

variable {text : String} {id : EntryId}

theorem edits_load_save (hid : Identifier.parse .entry text = .ok id)
    (f : Entry → Except Refusal Entry) {cont : Entry → Entry → Operation Entry}
    (hcont : ∀ e e', (cont e e').run.SparesEntries) :
    Program.Edits Granted id (fun e => some <$> f e) (ExceptT.run (do
      let e ← load (← identified (Identifier.parse .entry text))
      let e' ← checked (f e)
      save e'
      cont e e')) := by
  rw [hid]
  refine .fetch (fun g => failed_of_error) (fun e g h => ?_) fun e new _ h => ?_
  · cases he : f e with
    | ok e' =>
      rw [he] at h
      cases h
    | error g' =>
      change ((checked (f e) >>= fun e' => save e' >>= fun _ => cont e e').run).Failed Granted
      rw [he]
      exact failed_of_error
  · cases he : f e with
    | error g =>
      rw [he] at h
      cases h
    | ok e' =>
      rw [he] at h
      obtain ⟨⟩ := h
      change ((checked (f e) >>= fun e' => save e' >>= fun _ => cont e e').run).Saves Granted _ _
      rw [he]
      exact .replace (fun g => failed_of_error) (hcont e e')

theorem edits_delete (policy : Policy) (now : Instant)
    (hid : Identifier.parse .entry text = .ok id) :
    Program.Edits Granted id (fun _ => .ok none) (delete policy text now).run := by
  unfold delete
  rw [hid]
  refine .fetch (fun g => failed_of_error) (fun e g h => nomatch h) fun e new he h => ?_
  obtain ⟨⟩ := h
  subst he
  refine .erase (fun g => failed_of_error) ?_
  change (ExceptT.run (if policy.resyncOnEdit then resyncEntry e now >>= fun _ => pure e
    else pure e)).SparesEntries
  split
  · exact sparesEntries_bind (sparesEntries_resync _ _ _ _) fun _ => trivial
  · trivial

end Service

namespace Request

variable {r : Request} {text : String} {f : Entry → Except Refusal (Option Entry)} {id : EntryId}

theorem exists_change (h : r.address? = some text) : ∃ f, r.change? = some (text, f) := by
  cases r <;> cases h <;> exact ⟨_, rfl⟩

theorem id_of_change? {e e' : Entry} (hr : r.change? = some (text, f)) (h : f e = .ok (some e')) :
    e'.id = e.id := by
  have hedit {f : Entry → Except Refusal Entry} (hr : r.edit? = some (text, f))
      (h : some <$> f e = .ok (some e')) : e'.id = e.id := by
    cases he : f e with
    | error g =>
      rw [he] at h
      cases h
    | ok x =>
      rw [he] at h
      obtain ⟨⟩ := h
      exact id_of_edit? hr he
  cases r <;> cases hr
  · exact hedit rfl h
  · exact hedit rfl h
  · cases h
  · exact hedit rfl h

theorem edits (policy : Policy) (hr : r.change? = some (text, f))
    (hid : Identifier.parse .entry text = .ok id) :
    (r.program policy).Edits (fun a => ∃ e, a = .entry (.ok e)) id f := by
  have hgranted (x : Except ServiceFault Entry) (h : ∃ e, Reply.entry x = .entry (.ok e)) :
      Granted x := by
    obtain ⟨e, ⟨⟩⟩ := h
    exact ⟨e, rfl⟩
  cases r <;> cases hr
  · refine (edits_load_save hid _ fun e e' => ?_).map hgranted
    exact sparesEntries_bind (sparesEntries_resync _ _ _ _) fun _ => trivial
  · refine (edits_load_save hid _ fun e e' => ?_).map hgranted
    split
    · exact sparesEntries_bind (sparesEntries_resync _ _ _ _) fun _ => trivial
    · trivial
  · exact (edits_delete policy _ hid).map hgranted
  · refine (edits_load_save hid _ fun e e' => ?_).map hgranted
    trivial

end Request

section Tables

variable {κ ρ : Type} [KeyOrder κ] [DecidableEq κ] {key : ρ → κ}

namespace EntryTable

variable [Store σ] (T : EntryTable σ key) {t : Shelf key} {e e' : Entry} {new new' : Option Entry}

theorem find?_written_self (hnew : ∀ x ∈ new, x.id = e.id) :
    (T.written (some e) new t).find? (T.name e.id) = new.map T.write := by
  cases new with
  | none => exact T.find?_erase_self t e.id
  | some x =>
    rw [← hnew x rfl]
    exact T.find?_put_self t x

theorem find?_written_of_ne {k : κ} (hnew : ∀ x ∈ new, x.id = e.id) (hk : T.name e.id ≠ k) :
    (T.written (some e) new t).find? k = t.find? k := by
  cases new with
  | none => exact T.find?_erase_of_ne t hk
  | some x => exact T.find?_put_of_ne t (hnew x rfl ▸ hk)

theorem written_written (hnew : ∀ x ∈ new, x.id = e.id) (hnew' : ∀ x ∈ new', x.id = e'.id)
    (hid : e'.id = e.id) : T.written (some e') new' (T.written (some e) new t) =
      T.written (some e') new' t := by
  apply Shelf.ext_find?
  intro k
  by_cases hk : T.name e'.id = k
  · subst hk
    rw [T.find?_written_self hnew', T.find?_written_self hnew']
  · rw [T.find?_written_of_ne hnew' hk, T.find?_written_of_ne hnew' hk,
      T.find?_written_of_ne hnew (hid ▸ hk)]

end EntryTable

/-- How far a client has come with the one change that it makes. -/
inductive Stage where
  | loads
  | saves (e : Entry) (new : Option Entry)
  | saved
  | failed

def Program.At (G : α → Prop) (id : EntryId) (f : Entry → Except Refusal (Option Entry)) :
    Stage → Program α → Prop
  | .loads, p => p.Edits G id f
  | .saves e new, p => p.Saves G e new
  | .saved, p => p.SparesEntries
  | .failed, p => p.Failed G

theorem Program.At.eq_saved {G : α → Prop} {id : EntryId}
    {f : Entry → Except Refusal (Option Entry)} {a : α} {b : Stage} (h : (done a).At G id f b)
    (ha : G a) : b = .saved := by
  cases b with
  | saved => rfl
  | loads => cases h
  | saves e new => cases h
  | failed =>
    obtain ⟨a', ⟨⟩, hnot⟩ := h
    exact absurd ha hnot

variable [Store σ]

namespace OwnedTable

variable (T : OwnedTable σ key) {s t : σ} {e : Entry} {new : Option Entry}

theorem entries_perform {c : Call} (hc : c.SparesEntries) (s : σ) :
    T.entries (c.perform s).2 = T.entries s := by
  have h := T.changes s c
  generalize T.entries (c.perform s).2 = t at h
  cases h with
  | nothing => rfl
  | _ => exact hc.elim

/-- The entry is loaded from `s`, and `t` has what is made of it. -/
def Applies (id : EntryId) (f : Entry → Except Refusal (Option Entry)) (s t : σ) : Prop :=
  ∃ e new, Store.fetch s id = .ok e ∧ f e = .ok new ∧
    T.entries t = T.written (some e) new (T.entries s)

namespace Applies

variable {T} {id : EntryId} {f : Entry → Except Refusal (Option Entry)} {s' t' : σ}

theorem congr (h : T.Applies id f s t) (hs : T.entries s = T.entries s') :
    T.Applies id f s' t := by
  obtain ⟨e, new, hfetch, hf, heq⟩ := h
  exact ⟨e, new, (T.fetch_congr id hs).symm.trans hfetch, hf, hs ▸ heq⟩

theorem unique (h : T.Applies id f s t) (h' : T.Applies id f s t') :
    T.entries t = T.entries t' := by
  obtain ⟨e, new, hfetch, hf, heq⟩ := h
  obtain ⟨e', new', hfetch', hf', heq'⟩ := h'
  obtain ⟨⟩ := hfetch.symm.trans hfetch'
  obtain ⟨⟩ := hf.symm.trans hf'
  exact heq.trans heq'.symm

end Applies

/-- A client that goes on takes a store to the next. -/
inductive Step (id : EntryId) (f : Entry → Except Refusal (Option Entry)) (s t : σ) :
    Stage → Stage → Prop
  | load {e : Entry} {new : Option Entry} (hfetch : Store.fetch s id = .ok e) (hf : f e = .ok new)
      (h : T.entries t = T.entries s) : Step id f s t .loads (.saves e new)
  | save {e : Entry} {new : Option Entry} {r : ρ}
      (hfound : (T.entries s).find? (T.name (new.getD e).id) = some r)
      (h : T.entries t = T.written (some e) new (T.entries s)) : Step id f s t (.saves e new) .saved
  | rest (h : T.entries t = T.entries s) : Step id f s t .saved .saved
  | fail (a : Stage) : Step id f s t a .failed

theorem Step.rest_of_saved {T : OwnedTable σ key} {id : EntryId}
    {f : Entry → Except Refusal (Option Entry)} {a b : Stage} (h : T.Step id f s t a b)
    (ha : a = .saved) (hb : b ≠ .failed) : b = .saved ∧ T.entries t = T.entries s := by
  subst ha
  cases h with
  | rest h => exact ⟨rfl, h⟩
  | fail => exact absurd rfl hb

variable {ι : Type} [DecidableEq ι]

inductive Run (id : EntryId) (f : ι → Entry → Except Refusal (Option Entry)) :
    σ → (ι → Stage) → List ι → σ → (ι → Stage) → Prop
  | nil {s : σ} {w : ι → Stage} : Run id f s w [] s w
  | cons {s t u : σ} {w v : ι → Stage} {i : ι} {is : List ι} {b : Stage}
      (h : T.Step id (f i) s t (w i) b) (hrest : Run id f t (Function.update w i b) is u v) :
      Run id f s w (i :: is) u v

section Runs

variable {T} {id : EntryId} {f : ι → Entry → Except Refusal (Option Entry)} {w v : ι → Stage}
  {is : List ι} {i : ι}

theorem Run.not_failed (h : T.Run id f s w is t v) (hv : ∀ i, v i = .saved) (i : ι) :
    w i ≠ .failed := by
  intro hi
  induction h with
  | nil => cases hi.symm.trans (hv i)
  | @cons s t u w v j is b hstep hrest ih =>
    apply ih hv
    by_cases hj : i = j
    · subst hj
      rw [Function.update_self]
      rw [hi] at hstep
      cases hstep
      rfl
    · rw [Function.update_of_ne hj]
      exact hi

theorem update_saved {j : ι} (hj : w j = .saved) (k : ι) :
    Function.update w k .saved j = .saved := by
  rw [Function.update_apply]
  split
  · rfl
  · exact hj

theorem Run.not_failed_next {j : ι} {b : Stage} {is : List ι} {u : σ}
    (h : T.Run id f t (Function.update w j b) is u v) (hv : ∀ i, v i = .saved) : b ≠ .failed := by
  have := h.not_failed hv j
  rwa [Function.update_self] at this

theorem Run.entries_of_saved (h : T.Run id f s w is t v) (hw : ∀ i, w i = .saved)
    (hv : ∀ i, v i = .saved) : T.entries t = T.entries s := by
  induction h with
  | nil => rfl
  | @cons s t u w v j is b hstep hrest ih =>
    obtain ⟨rfl, heq⟩ := hstep.rest_of_saved (hw j) (hrest.not_failed_next hv)
    exact (ih (fun k => update_saved (hw k) j) hv).trans heq

theorem Run.entries_of_saves (h : T.Run id f s w is t v) (hw : ∀ j, j ≠ i → w j = .saved)
    (hi : w i = .saves e new) (hv : ∀ i, v i = .saved) :
    (∃ r, (T.entries s).find? (T.name (new.getD e).id) = some r) ∧
      T.entries t = T.written (some e) new (T.entries s) := by
  -- The one client that has yet to save is the last to write.
  induction h with
  | nil => cases hi.symm.trans (hv i)
  | @cons s t u w v j is b hstep hrest ih =>
    by_cases hj : j = i
    · subst hj
      have hb := hrest.not_failed_next hv
      rw [hi] at hstep
      cases hstep with
      | fail => exact absurd rfl hb
      | save hfound heq =>
        refine ⟨⟨_, hfound⟩, (hrest.entries_of_saved (fun k => ?_) hv).trans heq⟩
        by_cases hk : k = j
        · rw [hk, Function.update_self]
        · exact update_saved (hw k hk) j
    · obtain ⟨rfl, heq⟩ := hstep.rest_of_saved (hw j hj) (hrest.not_failed_next hv)
      rw [← heq]
      refine ih (fun k hk => update_saved (hw k hk) j) ?_ hv
      rw [Function.update_of_ne (Ne.symm hj)]
      exact hi

theorem Run.applies_of_loads (h : T.Run id f s w is t v) (hw : ∀ j, j ≠ i → w j = .saved)
    (hi : w i = .loads) (hv : ∀ i, v i = .saved) : T.Applies id (f i) s t := by
  -- The one client that has yet to load makes its change of what the others have left.
  induction h with
  | nil => cases hi.symm.trans (hv i)
  | @cons s t u w v j is b hstep hrest ih =>
    by_cases hj : j = i
    · subst hj
      have hb := hrest.not_failed_next hv
      rw [hi] at hstep
      cases hstep with
      | fail => exact absurd rfl hb
      | load hfetch hf heq =>
        obtain ⟨-, hsaved⟩ := hrest.entries_of_saves
          (fun k hk => (Function.update_of_ne hk _ _).trans (hw k hk)) (Function.update_self ..) hv
        exact ⟨_, _, hfetch, hf, heq ▸ hsaved⟩
    · obtain ⟨rfl, heq⟩ := hstep.rest_of_saved (hw j hj) (hrest.not_failed_next hv)
      refine (ih (fun k hk => update_saved (hw k hk) j) ?_ hv).congr heq
      rw [Function.update_of_ne (Ne.symm hj)]
      exact hi

end Runs

end OwnedTable

namespace Clients

variable {ι : Type} [DecidableEq ι] {s : Clients ι σ} {i : ι} {G : List Reply → Prop}
  {id : EntryId}

theorem turn_client_of_ne {j : ι} (h : j ≠ i) : (s.turn i).2.client j = s.client j := by
  cases hp : (s.client i).rest with
  | done a => rw [turn_of_done hp]
  | draw next => rw [turn_of_draw hp, goOn_client, Function.update_of_ne h]
  | call c next => rw [turn_of_call hp, goOn_client, Function.update_of_ne h]

theorem after_of_call {c : Call} {t : σ} {a : Except StoreFault c.Answer}
    {next : Except StoreFault c.Answer → Program (List Reply)}
    (h : (s.client i).rest = .call c next) (hperform : c.perform s.store = (a, t))
    (later : List ι) :
    s.after (i :: later) = (s.goOn i t ⟨next a, (s.client i).ids⟩).after later := by
  rw [after, turn_of_call h, hperform]

theorem exists_step (T : OwnedTable σ key) {f : Entry → Except Refusal (Option Entry)} {a : Stage}
    (h : (s.client i).rest.At G id f a) :
    ∃ b, T.Step id f s.store (s.turn i).2.store a b ∧
      ((s.turn i).2.client i).rest.At G id f b := by
  generalize hp : (s.client i).rest = p at h
  cases a with
  | loads =>
    cases h with
    | @fetch next hfail hrefused hsaves =>
      rw [turn_of_call hp, goOn_client_self]
      cases hfetch : Store.fetch s.store id with
      | error g =>
        refine ⟨.failed, .fail _, ?_⟩
        change (next (Store.fetch s.store id)).Failed G
        exact hfetch ▸ hfail g
      | ok e =>
        cases hf : f e with
        | error g =>
          refine ⟨.failed, .fail _, ?_⟩
          change (next (Store.fetch s.store id)).Failed G
          exact hfetch ▸ hrefused e g hf
        | ok new =>
          refine ⟨.saves e new, .load hfetch hf rfl, ?_⟩
          change (next (Store.fetch s.store id)).Saves G e new
          exact hfetch ▸ hsaves e new (T.id_of_fetch hfetch) hf
  | saves e new =>
    cases h with
    | @replace e' next hfail hok =>
      rw [turn_of_call hp, goOn_client_self]
      change ∃ b, T.Step id f s.store (changed s.store (Store.replace s.store e')).2 _ b ∧
        (next (changed s.store (Store.replace s.store e')).1).At G id f b
      cases hreplace : Store.replace s.store e' with
      | error g => exact ⟨.failed, .fail _, hfail g⟩
      | ok t =>
        obtain ⟨r, hr⟩ := T.found_of_replace hreplace
        exact ⟨.saved, .save hr (T.entries_replace hreplace), hok⟩
    | @erase next hfail hok =>
      rw [turn_of_call hp, goOn_client_self]
      change ∃ b, T.Step id f s.store (changed s.store (Store.erase s.store e.id)).2 _ b ∧
        (next (changed s.store (Store.erase s.store e.id)).1).At G id f b
      cases herase : Store.erase s.store e.id with
      | error g => exact ⟨.failed, .fail _, hfail g⟩
      | ok t =>
        obtain ⟨r, hr⟩ := T.found_of_erase herase
        exact ⟨.saved, .save hr (T.entries_erase herase), hok⟩
  | saved =>
    refine ⟨.saved, ?_⟩
    cases p with
    | done a =>
      rw [turn_of_done hp, hp]
      exact ⟨.rest rfl, h⟩
    | draw next =>
      rw [turn_of_draw hp, goOn_client_self]
      exact ⟨.rest rfl, h _⟩
    | call c next =>
      rw [turn_of_call hp, goOn_client_self]
      exact ⟨.rest (T.entries_perform h.1 _), h.2 _⟩
  | failed =>
    obtain ⟨a, rfl, ha⟩ := h
    rw [turn_of_done hp, hp]
    exact ⟨.failed, .fail _, a, rfl, ha⟩

theorem exists_run (T : OwnedTable σ key) {f : ι → Entry → Except Refusal (Option Entry)}
    {w : ι → Stage} (h : ∀ i, (s.client i).rest.At G id (f i) (w i)) (schedule : List ι) :
    ∃ v, T.Run id f s.store w schedule (s.after schedule).store v ∧
      ∀ i, ((s.after schedule).client i).rest.At G id (f i) (v i) := by
  induction schedule generalizing s w with
  | nil => exact ⟨w, .nil, h⟩
  | cons i schedule ih =>
    obtain ⟨b, hstep, hb⟩ := exists_step T (h i)
    have hnext (j : ι) :
        ((s.turn i).2.client j).rest.At G id (f j) (Function.update w i b j) := by
      by_cases hj : j = i
      · subst hj
        rwa [Function.update_self]
      · rw [Function.update_of_ne hj, turn_client_of_ne hj]
        exact h j
    obtain ⟨v, hrun, hv⟩ := ih hnext
    exact ⟨v, .cons hstep hrun, hv⟩

end Clients

namespace Program

variable {G : α → Prop} {p : Program α} {d : Desk σ}

theorem SparesEntries.entries_run (T : OwnedTable σ key) (h : p.SparesEntries) :
    T.entries (p.run d).2.store = T.entries d.store := by
  induction p generalizing d with
  | done a => rfl
  | draw next ih => exact ih _ (h _)
  | call c next ih => exact (ih _ (h.2 _)).trans (T.entries_perform h.1 d.store)

theorem Edits.applies_run (T : OwnedTable σ key) {id : EntryId}
    {f : Entry → Except Refusal (Option Entry)} (h : p.Edits G id f) {e : Entry}
    {new : Option Entry} (hfetch : Store.fetch d.store id = .ok e) (hf : f e = .ok new)
    (hnew : ∀ x ∈ new, x.id = e.id) : T.Applies id f d.store (p.run d).2.store := by
  refine ⟨e, new, hfetch, hf, ?_⟩
  have hid := T.id_of_fetch hfetch
  cases h with
  | @fetch next hfail hrefused hsaves =>
    change T.entries ((next (Store.fetch d.store id)).run d).2.store = _
    have hsave := hsaves e new hid hf
    rw [hfetch]
    generalize next (.ok e) = q at hsave
    cases hsave with
    | @replace e' next hfail hok =>
      have hstored : Store.fetch d.store e'.id = .ok e := by
        rw [hnew e' rfl, hid]
        exact hfetch
      obtain ⟨t, ht⟩ := T.replaces hstored
      change T.entries ((next (changed d.store (Store.replace d.store e')).1).run
        ⟨(changed d.store (Store.replace d.store e')).2, d.ids⟩).2.store = _
      rw [ht]
      exact (hok.entries_run T).trans (T.entries_replace ht)
    | @erase next hfail hok =>
      obtain ⟨t, ht⟩ := T.erases (hid ▸ hfetch)
      change T.entries ((next (changed d.store (Store.erase d.store e.id)).1).run
        ⟨(changed d.store (Store.erase d.store e.id)).2, d.ids⟩).2.store = _
      rw [ht]
      exact (hok.entries_run T).trans (T.entries_erase ht)

theorem Edits.run_store_of_error {id : EntryId} {f : Entry → Except Refusal (Option Entry)}
    (h : p.Edits G id f) {g : StoreFault} (hfetch : Store.fetch d.store id = .error g) :
    (p.run d).2.store = d.store := by
  cases h with
  | @fetch next hfail hrefused hsaves =>
    change ((next (Store.fetch d.store id)).run d).2.store = d.store
    obtain ⟨a, ha, -⟩ := hfail g
    rw [hfetch, ha]
    rfl

end Program

end Tables

end Timesheet
