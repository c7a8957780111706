import Timesheet.Proofs.Insertion
import Timesheet.Proofs.Reordering
import Timesheet.Proofs.Stopping

/-!
Totals after an entry was created or stopped. A change of an entry is stored by one call, and the totals
that it may change are then brought up to date, in turn, as long as it goes well. A total is written over
the one before it: what it was before does not matter.
-/

namespace Timesheet

open Service

section Refreshed

variable {σ κ ρ : Type} [Store σ] [KeyOrder κ] [DecidableEq κ] {key : ρ → κ} (B : Books σ key)

namespace Books

structure Refreshed (now : Instant) (ts : List Total) (s s' : σ) : Prop where
  entries : B.entries s' = B.entries s
  trouble : ∀ t, B.trouble s' t = B.trouble s t
  able : ∀ t ∈ ts, B.trouble s t = none
  marked : ∀ t ∈ ts, ∃ n, t.sum s = .ok n ∧
    B.look s' (B.slot t) = (B.look s (B.slot t)).map (B.mark n now.wholeSecond)
  others : ∀ k, (∀ t ∈ ts, B.slot t ≠ k) → B.look s' k = B.look s k

variable {B} {now : Instant} {s s' s'' : σ} {t : Total} {ts us : List Total} {n : Int}

theorem Refreshed.nil (now : Instant) (s : σ) : B.Refreshed now [] s s where
  entries := rfl
  trouble _ := rfl
  able := by simp
  marked := by simp
  others _ _ := rfl

theorem refreshed_write (hsum : t.sum s = .ok n) (h : t.write s n now.wholeSecond = .ok s') :
    B.Refreshed now [t] s s' where
  entries := B.entries_write h
  trouble := B.trouble_write h
  able := List.forall_mem_singleton.mpr (B.trouble_written hsum h)
  marked := List.forall_mem_singleton.mpr ⟨n, hsum, B.look_write h⟩
  others _ hk := B.look_write_of_ne h (hk t List.mem_cons_self)

theorem Refreshed.append (h : B.Refreshed now ts s s') (h' : B.Refreshed now us s' s'') :
    B.Refreshed now (ts ++ us) s s'' where
  entries := h'.entries.trans h.entries
  trouble t := (h'.trouble t).trans (h.trouble t)
  able := List.forall_mem_append.mpr ⟨h.able, fun t ht => h.trouble t ▸ h'.able t ht⟩
  marked t ht := by
  -- What was up to date already is written again, with the same sum: no entry has changed since.
    by_cases hus : t ∈ us
    · obtain ⟨m, hm, hlook'⟩ := h'.marked t hus
      rw [B.sum_congr t h.entries] at hm
      refine ⟨m, hm, ?_⟩
      by_cases hts : t ∈ ts
      · obtain ⟨n, -, hlook⟩ := h.marked t hts
        rw [hlook', hlook, Option.map_map]
        exact congrArg (Option.map · _) (funext (B.mark_mark m n _))
      · rw [hlook', h.others _ (B.slot_ne_of_not_mem hts)]
    · have hts := (List.mem_append.mp ht).resolve_right hus
      rw [h'.others _ (B.slot_ne_of_not_mem hus)]
      exact h.marked t hts
  others k hk := by
    rw [List.forall_mem_append] at hk
    rw [h'.others k hk.2, h.others k hk.1]

theorem Refreshed.congr (h : B.Refreshed now ts s s') (hmem : ∀ t, t ∈ us ↔ t ∈ ts) :
    B.Refreshed now us s s' where
  entries := h.entries
  trouble := h.trouble
  able t ht := h.able t ((hmem t).mp ht)
  marked t ht := h.marked t ((hmem t).mp ht)
  others k hk := h.others k fun t ht => hk t ((hmem t).mpr ht)

theorem Refreshed.unique (h : B.Refreshed now ts s s') (h' : B.Refreshed now us s s'')
    (hmem : ∀ t, t ∈ ts ↔ t ∈ us) : s' = s'' := by
  refine B.ext_look (h.entries.trans h'.entries.symm) fun k => ?_
  by_cases hk : ∃ t ∈ ts, B.slot t = k
  · obtain ⟨t, ht, rfl⟩ := hk
    obtain ⟨n, hn, hlook⟩ := h.marked t ht
    obtain ⟨m, hm, hlook'⟩ := h'.marked t ((hmem t).mp ht)
    obtain rfl := Except.ok.inj (hn.symm.trans hm)
    rw [hlook, hlook']
  · have hne : ∀ t ∈ ts, B.slot t ≠ k := fun t ht heq => hk ⟨t, ht, heq⟩
    rw [h.others k hne, h'.others k fun t ht => hne t ((hmem t).mpr ht)]

theorem exists_refreshed {r : Except ServiceFault Unit} (h : Settles now s ts r s') :
    ∃ us, us <+: ts ∧ (r = .ok () → us = ts) ∧ B.Refreshed now us s s' := by
  induction h with
  | done s => exact ⟨[], List.prefix_rfl, fun _ => rfl, .nil now s⟩
  | unsummed h => exact ⟨[], List.nil_prefix, nofun, .nil now _⟩
  | unwritten hsum h => exact ⟨[], List.nil_prefix, nofun, .nil now _⟩
  | @next s s₁ s₂ t ts n r hsum hwrite h ih =>
    obtain ⟨us, hpart, hall, hrest⟩ := ih
    exact ⟨t :: us, List.cons_prefix_cons.mpr ⟨rfl, hpart⟩, fun hr => congrArg _ (hall hr),
      (refreshed_write hsum hwrite).append hrest⟩

theorem settles_ok {r : Except ServiceFault Unit} (h : Settles now s ts r s')
    (hsum : ∀ t ∈ ts, ∃ n, t.sum s = .ok n) (hable : ∀ t ∈ ts, B.trouble s t = none) :
    r = .ok () := by
  induction h with
  | done s => rfl
  | unsummed h =>
    obtain ⟨n, hn⟩ := hsum _ List.mem_cons_self
    cases h.symm.trans hn
  | unwritten hsum' h =>
    cases (B.trouble_unwritten hsum' h).symm.trans (hable _ List.mem_cons_self)
  | next hsum' hwrite h ih =>
    rw [List.forall_mem_cons] at hsum hable
    refine ih (fun t ht => ?_) fun t ht => (B.trouble_write hwrite t).trans (hable.2 t ht)
    obtain ⟨n, hn⟩ := hsum.2 t ht
    exact ⟨n, (B.sum_congr t (B.entries_write hwrite)).trans hn⟩

theorem settles_of_trouble {r : Except ServiceFault Unit} {g : ServiceFault}
    (h : Settles now s (t :: ts) r s') (hsum : t.sum s = .ok n) (htrouble : B.trouble s t = some g) :
    r = .error g ∧ s' = s := by
  cases h with
  | unsummed h => cases h.symm.trans hsum
  | unwritten hsum' h =>
    obtain ⟨⟩ := htrouble.symm.trans (B.trouble_unwritten hsum' h)
    exact ⟨rfl, rfl⟩
  | next hsum' hwrite h => cases htrouble.symm.trans (B.trouble_written hsum' hwrite)

theorem settles_up_to (ts : List Total) {us : List Total} {r : Except ServiceFault Unit}
    (h : Settles now s (ts ++ t :: us) r s') (htrouble : B.trouble s t ≠ none) :
    ∃ vs, vs <+: ts ∧ B.Refreshed now vs s s' := by
  obtain ⟨vs, hpart, -, hrefreshed⟩ := B.exists_refreshed h
  have hnot : t ∉ vs := fun ht => htrouble (hrefreshed.able t ht)
  have hshort : ts ++ [t] <+: ts ++ t :: us := ⟨us, by simp⟩
  refine ⟨vs, ?_, hrefreshed⟩
  rcases List.prefix_or_prefix_of_prefix hpart hshort with hvs | hvs
  · rcases List.prefix_concat_iff.mp hvs with rfl | hvs
    · exact absurd (by simp) hnot
    · exact hvs
  · exact absurd (hvs.subset (by simp)) hnot

end Books

end Refreshed

section Change

variable {σ : Type} [Store σ] {policy : Policy} {now : Instant} {d : Desk σ} {r : Request}
  {old new : Option Entry} {e : Entry} {s : σ}

def change (old new : Option Entry) (s : σ) : Except StoreFault σ :=
  match old, new with
  | none, some e => Store.insert s e
  | some _, some e => Store.replace s e
  | some e, none => Store.erase s e.id
  | none, none => .ok s

def movedTotals (old new : Option Entry) : List Total :=
  match old, new with
  | some e, some e' => totals e e'
  | some e, none => totals e e
  | none, some e => totals e e
  | none, none => []

/-- The total is that of the task or the project, if there is one, of the entry as it was or becomes. -/
def Total.Concerns (t : Total) (old new : Option Entry) : Prop :=
  t.isAbsent = false ∧ ∃ e, (e ∈ old ∨ e ∈ new) ∧ t.Counts e

theorem mem_movedTotals {t : Total} : t ∈ movedTotals old new ↔ t.Concerns old new := by
  unfold Total.Concerns
  cases old <;> cases new <;> simp [movedTotals, mem_totals, or_and_right, exists_or]

def settledAnswer (e : Entry) (x : Except ServiceFault Unit) : Except ServiceFault Entry :=
  x.mapError (.stale e.id) >>= fun _ => .ok e

theorem settledAnswer_eq_ok {e e' : Entry} {x : Except ServiceFault Unit} :
    settledAnswer e x = .ok e' ↔ x = .ok () ∧ e = e' := by
  cases x <;> simp [settledAnswer, Except.mapError, bind, Except.bind]

def Recounted (now : Instant) (d : Desk σ) (old new : Option Entry) (e : Entry) (s : σ)
    (op : Operation Entry) : Prop :=
  ∃ x d', op.run.run d = (settledAnswer e x, d') ∧ Settles now s (movedTotals old new) x d'.store

theorem ran_resync_pure (e₁ e₂ e : Entry) (now : Instant) (d : Desk σ) :
    ∃ x s t, Ran d (resync e.id [e₁.task, e₂.task] [e₁.project, e₂.project] now >>=
        fun _ => pure e).run (settledAnswer e x) { d with store := s } t ∧
      Settles now d.store (totals e₁ e₂) x s := by
  obtain ⟨x, s, hrun, hsettles⟩ :=
    Operation.settles_syncAll now [e₁.task, e₂.task] [e₁.project, e₂.project] d
  have hresync : Ran d (resync e.id [e₁.task, e₂.task] [e₁.project, e₂.project] now).run
      (x.mapError (.stale e.id)) { d with store := s } _ := Ran.map _ ⟨hrun, rfl⟩
  cases x with
  | error f => exact ⟨_, s, _, Operation.ran_bind_error hresync, hsettles⟩
  | ok u => exact ⟨_, s, _, Operation.ran_bind_ok hresync (Operation.ran_ok _ e), hsettles⟩

theorem recounted_create {input : NewEntry} {owner : String} {user : UserId}
    (howner : Identifier.parse .user owner = .ok user)
    (hentry : input.entry d.ids.next user now = .ok e) (h : Store.insert d.store e = .ok s) :
    Recounted now d none (some e) e s (create input owner now) := by
  obtain ⟨details, start, duration, hfields, hstart, hduration, hfinished⟩ :=
    NewEntry.entry_eq_ok.mp hentry
  have hcreate : create input owner now = draw >>= fun id =>
      checked ((Entry.finished id user details start duration now).mapError .invalid) >>= fun e =>
        asking .insertEntry (.insert e) >>= fun _ =>
          resync e.id [e.task, e.task] [e.project, e.project] now >>= fun _ => pure e := by
    simp only [resync_pair]
    unfold create
    rw [howner, hfields, hstart, hduration]
    rfl
  have hcheck : Ran { d with ids := d.ids.advance }
      (checked ((Entry.finished d.ids.next user details start duration now).mapError .invalid)).run
      (.ok e) { d with ids := d.ids.advance } [] := by
    rw [hfinished]
    exact ⟨rfl, rfl⟩
  have hinsert := Operation.ran_asking { d with ids := d.ids.advance } .insertEntry (.insert e)
  simp only [Call.perform, h, changed, Except.mapError] at hinsert
  obtain ⟨x, s', t, hran, hsettles⟩ := ran_resync_pure e e e now ⟨s, d.ids.advance⟩
  rw [Recounted, hcreate]
  refine ⟨x, ⟨s', d.ids.advance⟩, ?_, hsettles⟩
  exact (Operation.ran_bind_ok (Operation.ran_draw d) (Operation.ran_bind_ok hcheck
    (Operation.ran_bind_ok hinsert hran))).run

theorem recounted_update (hpolicy : policy.resyncOnEdit = true) {text : String} {p : Patch}
    {e e' : Entry} {id : EntryId} (hid : Identifier.parse .entry text = .ok id)
    (hfetch : Store.fetch d.store id = .ok e) (hpatch : e.applyPatch p now = .ok e')
    (h : Store.replace d.store e' = .ok s) :
    Recounted now d (some e) (some e') e' s (update policy text p now) := by
  have hupdate : update policy text p now = load id >>= fun e => checked (e.applyPatch p now) >>=
      fun e' => save e' >>= fun _ =>
        resync e.id [e.task, e'.task] [e.project, e'.project] now >>= fun _ => pure e' := by
    unfold update
    rw [hid]
    simp only [hpolicy]
    rfl
  have hload := Operation.ran_addressing d .loadEntry id (.fetch id)
  simp only [Call.perform, hfetch, Except.mapError] at hload
  have hcheck : Ran d (checked (e.applyPatch p now)).run (.ok e') d [] := by
    rw [hpatch]
    exact ⟨rfl, rfl⟩
  have hsave := Operation.ran_addressing d .updateEntry e'.id (.replace e')
  simp only [Call.perform, h, changed, Except.mapError] at hsave
  obtain ⟨x, s', t, hran, hsettles⟩ := ran_resync_pure e e' e' now { d with store := s }
  rw [(Entry.applyPatch_eq_ok hpatch).2.1] at hran
  rw [Recounted, hupdate]
  refine ⟨x, { d with store := s' }, ?_, hsettles⟩
  exact (Operation.ran_bind_ok hload (Operation.ran_bind_ok hcheck
    (Operation.ran_bind_ok hsave hran))).run

theorem recounted_delete (hpolicy : policy.resyncOnEdit = true) {text : String} {id : EntryId}
    (hid : Identifier.parse .entry text = .ok id) (hfetch : Store.fetch d.store id = .ok e)
    (heq : e.id = id) (h : Store.erase d.store e.id = .ok s) :
    Recounted now d (some e) none e s (delete policy text now) := by
  obtain rfl := heq
  have hdelete : delete policy text now = load e.id >>= fun e' =>
      addressing .deleteEntry e.id (.erase e.id) >>= fun _ =>
        resync e'.id [e'.task, e'.task] [e'.project, e'.project] now >>= fun _ => pure e' := by
    simp only [resync_pair]
    unfold delete
    rw [hid]
    simp only [hpolicy]
    rfl
  have hload := Operation.ran_addressing d .loadEntry e.id (.fetch e.id)
  simp only [Call.perform, hfetch, Except.mapError] at hload
  have herase := Operation.ran_addressing d .deleteEntry e.id (.erase e.id)
  simp only [Call.perform, h, changed, Except.mapError] at herase
  obtain ⟨x, s', t, hran, hsettles⟩ := ran_resync_pure e e e now { d with store := s }
  rw [Recounted, hdelete]
  refine ⟨x, { d with store := s' }, ?_, hsettles⟩
  exact (Operation.ran_bind_ok hload (Operation.ran_bind_ok herase hran)).run

namespace EntryView

variable {τ : Type} (V : EntryView σ τ)

theorem entries_of_change (h : change old new d.store = .ok s) :
    V.entries s = V.written old new (V.entries d.store) := by
  match old, new, h with
  | none, none, h =>
    obtain ⟨⟩ := h
    rfl
  | none, some e, h => exact V.entries_insert h
  | some e, some e', h => exact V.entries_replace h
  | some e, none, h => exact V.entries_erase h

theorem exists_change (V : EntryView σ τ) (hmade : r.Makes policy d old new)
    (hinsert : ∀ e ∈ new, old = none → ∃ s, Store.insert d.store e = .ok s) :
    ∃ s, change old new d.store = .ok s := by
  match hmade with
  | .create howner h => exact hinsert _ rfl rfl
  | .start howner hfields hfree => exact hinsert _ rfl rfl
  | .edit hr hid hfetch hf =>
    have hedit : r.Makes policy d _ _ := .edit hr hid hfetch hf
    exact V.replaces_of_makes hedit
  | .delete hid hfetch =>
    obtain rfl := V.id_of_fetch hfetch
    exact V.erases hfetch

theorem change_of_makes (V : EntryView σ τ) (hmade : r.Makes policy d old new) :
    (∃ s, change old new d.store = .ok s) ∨
      ∃ g, ((r.program policy).run d).1 = .entry (.error (.store .insertEntry g)) := by
  by_cases h : ∃ g, ((r.program policy).run d).1 = .entry (.error (.store .insertEntry g))
  · exact .inr h
  · refine .inl (V.exists_change hmade ?_)
    rintro e ⟨⟩ rfl
    cases hs : Store.insert d.store e with
    | error g => exact absurd ⟨g, (Request.add_refused hmade hs).1⟩ h
    | ok s => exact ⟨s, rfl⟩

theorem run_recounting (V : EntryView σ τ) (hr : r.Recounts policy) (hnow : ∀ i ∈ r.clock?, i = now)
    (hmade : r.Makes policy d old new) (he : new.or old = some e)
    (h : change old new d.store = .ok s) : ∃ x d',
      (r.program policy).run d = (.entry (settledAnswer e x), d') ∧
        Settles now s (movedTotals old new) x d'.store := by
  have hrun {op : Operation Entry} (hprogram : r.program policy = Reply.entry <$> op.run)
      (h : Recounted now d old new e s op) : ∃ x d',
        (r.program policy).run d = (.entry (settledAnswer e x), d') ∧
          Settles now s (movedTotals old new) x d'.store := by
    obtain ⟨x, d', hrun, hsettles⟩ := h
    exact ⟨x, d', by rw [hprogram, Program.run_map, hrun], hsettles⟩
  cases hmade with
  | @create input owner i user e' howner hentry =>
    obtain ⟨⟩ := he
    obtain rfl := hnow i rfl
    exact hrun rfl (recounted_create howner hentry h)
  | start howner hfields hfree => exact hr.elim
  | @edit _ text f id e₀ e' hedit hid hfetch hf =>
    obtain ⟨⟩ := he
    cases r with
    | stop text i =>
      obtain rfl := hnow i rfl
      obtain ⟨⟩ := hedit
      have hfollowing : following.resyncOnEdit = true := rfl
      have hpatch : e₀.applyPatch { stop := some i } i = .ok e := e₀.applyPatch_stop i ▸ hf
      exact hrun (congrArg (Reply.entry <$> ExceptT.run ·) (stop_eq_update hfollowing text i))
        (recounted_update hfollowing hid hfetch hpatch h)
    | update text p i =>
      obtain rfl := hnow i rfl
      obtain ⟨⟩ := hedit
      exact hrun rfl (recounted_update hr hid hfetch hf h)
    | create => cases hedit
    | delete => cases hedit
    | _ => exact hr.elim
  | @delete text i id e' hid hfetch =>
    obtain ⟨⟩ := he
    obtain rfl := hnow i rfl
    exact hrun rfl (recounted_delete hr hid hfetch (V.id_of_fetch hfetch) h)

theorem settles_of_answer (hr : r.Recounts policy) (hnow : ∀ i ∈ r.clock?, i = now)
    (h : ((r.program policy).run d).1 = .entry (.ok e)) : ∃ old new s,
      r.Makes policy d old new ∧ new.or old = some e ∧
        V.entries s = V.written old new (V.entries d.store) ∧
          Settles now s (movedTotals old new) (.ok ()) ((r.program policy).run d).2.store := by
  obtain ⟨op, hop⟩ : ∃ op, r.operation? policy = some op := by
    cases r <;> first | exact ⟨_, rfl⟩ | cases hr
  obtain ⟨old, new, hmade, he, -⟩ := V.entries_of_answer hop h
  rcases V.change_of_makes hmade with ⟨s, hs⟩ | ⟨g, hg⟩
  · obtain ⟨x, d', hrun, hsettles⟩ := V.run_recounting hr hnow hmade he hs
    rw [hrun] at h ⊢
    obtain ⟨rfl, -⟩ := settledAnswer_eq_ok.mp (Reply.entry.inj h)
    exact ⟨old, new, s, hmade, he, V.entries_of_change hs, hsettles⟩
  · cases hg.symm.trans h

end EntryView

end Change

namespace Memory

variable {m m' : Memory} {ts : List Total} {now : Instant}

theorem exists_look_of_refreshed (h : books.Refreshed now ts m m') {t : Total} (ht : t ∈ ts) :
    ∃ r n, m.look t = some r ∧ n = Word.wrap (m'.seconds fun e => t.Counts e) ∧
      m'.look t = some (mark n now.wholeSecond r) := by
  obtain ⟨n, hn, hlook⟩ := h.marked t ht
  have hentries : m'.entries = m.entries := h.entries
  have hsome : m.look t ≠ none := by
    intro hnone
    have hable : m.trouble t = none := h.able t ht
    rw [trouble, hnone] at hable
    cases hable
  obtain ⟨r, hr⟩ := Option.ne_none_iff_exists'.mp hsome
  refine ⟨r, n, hr, ?_, ?_⟩
  · rw [sum_eq, finishedSum_filter] at hn
    rw [seconds, hentries]
    exact (Except.ok.inj hn).symm
  · change m'.look t = _ at hlook
    rw [hlook]
    exact congrArg (Option.map _) hr

theorem task_of_refreshed (h : books.Refreshed now ts m m') {id : TaskId} (ht : .task id ∈ ts) :
    ∃ t, m'.tasks.find? id = some t ∧ t.trackedSeconds = Word.wrap (m'.taskSeconds id) ∧
      t.updated = now.wholeSecond := by
  obtain ⟨r, n, hr, rfl, hlook⟩ := exists_look_of_refreshed h ht
  obtain ⟨t, -, rfl⟩ := Option.map_eq_some_iff.mp hr
  obtain ⟨t', ht', heq⟩ := Option.map_eq_some_iff.mp hlook
  obtain rfl := Sum.inl.inj heq
  exact ⟨_, ht', rfl, rfl⟩

theorem project_of_refreshed (h : books.Refreshed now ts m m') {id : ProjectId}
    (ht : .project id ∈ ts) : ∃ p, m'.projects.find? id = some p ∧ (p.autoEstimates = true →
      p.estimatedHours = hoursOfSeconds (Word.wrap (m'.projectSeconds id)) ∧
        p.updated = now.wholeSecond) := by
  obtain ⟨r, n, hr, rfl, hlook⟩ := exists_look_of_refreshed h ht
  obtain ⟨p, -, rfl⟩ := Option.map_eq_some_iff.mp hr
  obtain ⟨p', hp', heq⟩ := Option.map_eq_some_iff.mp hlook
  obtain rfl := Sum.inr.inj heq
  refine ⟨_, hp', ?_⟩
  cases hauto : p.autoEstimates with
  | false => simp [hauto]
  | true => exact fun _ => ⟨rfl, rfl⟩

end Memory

namespace Database

variable {d d' : Database} {ts : List Total} {now : Instant} {t : Total} {n : Int}

theorem eq_seconds_of_sum (h : t.sum d = .ok n) : n = d.seconds t.takes := by
  obtain ⟨s, hs, -, hsum⟩ := exists_cells (strays_of_sum h)
  rw [sum_eq, hs] at h
  rw [sumCells_eq_ok h, hsum]

theorem exists_look_of_refreshed (h : books.Refreshed now ts d d') (ht : t ∈ ts) :
    ∃ r n, d.look (slot t) = some r ∧ block (some r) = none ∧ n = d'.seconds t.takes ∧
      d'.look (slot t) = some (mark n now.wholeSecond r) := by
  obtain ⟨n, hn, hlook⟩ := h.marked t ht
  have hentries : d'.entries = d.entries := h.entries
  have hable : d.trouble t = none := h.able t ht
  rw [trouble, if_pos (strays_of_sum hn), Option.map_eq_none_iff] at hable
  cases hr : d.look (slot t) with
  | none =>
    rw [hr] at hable
    cases hable
  | some r =>
    refine ⟨r, n, rfl, hr ▸ hable, ?_, ?_⟩
    · rw [eq_seconds_of_sum hn, seconds, seconds, hentries]
    · change d'.look (slot t) = _ at hlook
      rw [hlook]
      exact congrArg (Option.map _) hr

theorem task_of_refreshed (h : books.Refreshed now ts d d') {id : TaskId} (ht : .task id ∈ ts) :
    ∃ r, d'.tasks.find? (.named id.text) = some r ∧
      r.trackedSeconds = .integer (d'.taskSeconds id) ∧ r.updated = now.wholeSecond.stamp := by
  obtain ⟨r, n, hr, -, rfl, hlook⟩ := exists_look_of_refreshed h ht
  obtain ⟨t, -, rfl⟩ := Option.map_eq_some_iff.mp hr
  obtain ⟨t', ht', heq⟩ := Option.map_eq_some_iff.mp hlook
  obtain rfl := Sum.inl.inj heq
  exact ⟨_, ht', rfl, rfl⟩

theorem project_of_refreshed (h : books.Refreshed now ts d d') {id : ProjectId}
    (ht : .project id ∈ ts) : ∃ r n, d'.projects.find? (.named id.text) = some r ∧
      r.autoEstimates = .integer n ∧ (n ≠ 0 →
        r.estimatedHours.readFloat 4 "estimated_hours" = .ok (hoursOfSeconds (d'.projectSeconds id)) ∧
          r.updated = now.wholeSecond.stamp) := by
  obtain ⟨r, n, hr, hblock, rfl, hlook⟩ := exists_look_of_refreshed h ht
  obtain ⟨p, -, rfl⟩ := Option.map_eq_some_iff.mp hr
  obtain ⟨p', hp', heq⟩ := Option.map_eq_some_iff.mp hlook
  obtain rfl := Sum.inr.inj heq
  obtain ⟨n, hn⟩ : ∃ n, p.autoEstimates = .integer n := by
    cases hread : p.autoEstimates.readBool 0 "auto_estimates" with
    | error e =>
      rw [block, hread] at hblock
      cases hblock
    | ok b =>
      obtain ⟨n, hn, -⟩ := NumberCell.readBool_eq_ok.mp hread
      exact ⟨n, hn⟩
  refine ⟨_, n, hp', ?_, fun hne => ?_⟩
  · split <;> exact hn
  · have hfollows : follows p = true := by simp [follows, hn, hne]
    rw [if_pos hfollows]
    exact ⟨d'.readFloat_hours fun r => r.project = id.text, rfl⟩

end Database

section Repaired

variable {policy : Policy} {now : Instant} {r : Request} {e : Entry}

/-- A memory after an entry was finished: the entry is there, and its task and its project say the sums
over all entries, if these are words. -/
structure Memory.Repaired (now : Instant) (e : Entry) (m : Memory) : Prop where
  stored : m.entries.find? e.id = some e
  finished : 0 ≤ e.duration
  task : e.task.isAbsent = false → Word.fits (m.taskSeconds e.task) = true →
    ∃ t, m.tasks.find? e.task = some t ∧ t.trackedSeconds = m.taskSeconds e.task ∧
      t.updated = now.wholeSecond
  project : e.project.isAbsent = false → Word.fits (m.projectSeconds e.project) = true →
    ∃ p, m.projects.find? e.project = some p ∧ (p.autoEstimates = true →
      p.estimatedHours = hoursOfSeconds (m.projectSeconds e.project) ∧ p.updated = now.wholeSecond)

/-- A database after an entry was finished: the row of the entry is there, and those of its task and its
project say the sums over all rows that spell these as they are written. -/
structure Database.Repaired (now : Instant) (e : Entry) (d : Database) : Prop where
  stored : d.entries.find? (.named e.id.text) = some (.ofEntry e)
  finished : 0 ≤ e.duration
  task : e.task.isAbsent = false → ∃ r, d.tasks.find? (.named e.task.text) = some r ∧
    r.trackedSeconds = .integer (d.taskSeconds e.task) ∧
      Instant.ofStamp? r.updated = some now.wholeSecond
  project : e.project.isAbsent = false → ∃ r n, d.projects.find? (.named e.project.text) = some r ∧
    r.autoEstimates = .integer n ∧ (n ≠ 0 →
      r.estimatedHours.readFloat 4 "estimated_hours" = .ok (hoursOfSeconds (d.projectSeconds e.project)) ∧
        Instant.ofStamp? r.updated = some now.wholeSecond)

def Request.Finishing (now : Instant) : Request → Prop
  | create _ _ i => i = now
  | stop _ i => i = now
  | _ => False

theorem Request.Finishing.clock? (h : r.Finishing now) : ∀ i ∈ r.clock?, i = now := by
  cases r with
  | create => exact fun i hi => (Option.some.inj hi).symm.trans h
  | stop => exact fun i hi => (Option.some.inj hi).symm.trans h
  | _ => cases h

theorem Request.Finishing.recounts (h : r.Finishing now) (policy : Policy) : r.Recounts policy := by
  cases r with
  | create => trivial
  | stop => trivial
  | _ => exact h.elim

theorem Request.Finishing.of_makes {σ : Type} [Store σ] {d : Desk σ} {old new : Option Entry}
    (h : r.Finishing now) (hmade : r.Makes policy d old new) :
    ∃ e, new = some e ∧ 0 ≤ e.duration := by
  cases hmade with
  | create howner hentry =>
    obtain ⟨details, start, duration, -, -, -, hfinished⟩ := NewEntry.entry_eq_ok.mp hentry
    obtain ⟨hpos, -, stop, -, -, rfl⟩ := Entry.finished_eq_ok.mp hfinished
    exact ⟨_, rfl, hpos⟩
  | start howner hfields hfree => cases h
  | delete hid hfetch => cases h
  | edit hr hid hfetch hf =>
    cases r with
    | stop text i =>
      obtain ⟨⟩ := hr
      obtain ⟨-, hlt, rfl⟩ := Entry.stopAt_eq_ok.mp (mapError_eq_ok.mp hf)
      exact ⟨_, rfl, Instant.secondsUntil_nonneg (Instant.not_lt.mp hlt)⟩
    | create => cases hr
    | _ => cases h

section Books

variable {σ κ ρ : Type} [Store σ] [KeyOrder κ] [DecidableEq κ] {key : ρ → κ} (B : Books σ key)
  {d : Desk σ}

structure Finished (B : Books σ key) (now : Instant) (e : Entry) (s s' : σ) (ts : List Total) :
    Prop where
  entries : ∃ t, B.entries s' = B.put e t
  nonneg : 0 ≤ e.duration
  mem : ∀ t, t.isAbsent = false → t.Counts e → t ∈ ts
  refreshed : B.Refreshed now ts s s'

theorem finished_of_answer (hr : r.Finishing now)
    (h : ((r.program policy).run d).1 = .entry (.ok e)) :
    ∃ s ts, Finished B now e s ((r.program policy).run d).2.store ts := by
  obtain ⟨old, new, s, hmade, he, hentries, hsettles⟩ :=
    B.settles_of_answer (hr.recounts policy) hr.clock? h
  obtain ⟨e', rfl, hpos⟩ := hr.of_makes hmade
  obtain ⟨⟩ := he
  obtain ⟨us, -, hall, hrefreshed⟩ := B.exists_refreshed hsettles
  obtain rfl := hall rfl
  refine ⟨s, _, ⟨_, (B.entries_settles hsettles).trans hentries⟩, hpos, fun t hpresent hcounts => ?_,
    hrefreshed⟩
  exact mem_movedTotals.mpr ⟨hpresent, e, .inr rfl, hcounts⟩

end Books

theorem Memory.repaired {m m' : Memory} {ts : List Total}
    (h : Finished Memory.books now e m m' ts) : m'.Repaired now e := by
  constructor
  case stored =>
    obtain ⟨t, hput⟩ := h.entries
    change (Memory.books.entries m').find? _ = _
    rw [hput]
    exact t.find?_put_self e
  case finished => exact h.nonneg
  case task =>
    intro hpresent hfits
    obtain ⟨k, hk, hseconds, hupdated⟩ :=
      Memory.task_of_refreshed h.refreshed (h.mem (.task e.task) hpresent rfl)
    exact ⟨k, hk, hseconds.trans (Word.wrap_of_fits hfits), hupdated⟩
  case project =>
    intro hpresent hfits
    have hproject := Memory.project_of_refreshed h.refreshed (h.mem (.project e.project) hpresent rfl)
    rwa [Word.wrap_of_fits hfits] at hproject

theorem Database.repaired {d d' : Database} {ts : List Total} (hnow : now.IsStorable)
    (h : Finished Database.books now e d d' ts) : d'.Repaired now e := by
  have hstamp : Instant.ofStamp? now.wholeSecond.stamp = some now.wholeSecond :=
    Instant.ofStamp?_stamp_iff.mpr
      ⟨now.wholeSecond_isWhole, Instant.wholeSecond_isStorable.mpr hnow⟩
  constructor
  case stored =>
    obtain ⟨t, hput⟩ := h.entries
    change (Database.books.entries d').find? _ = _
    rw [hput]
    exact t.find?_put_self (.ofEntry e)
  case finished => exact h.nonneg
  case task =>
    intro hpresent
    obtain ⟨k, hk, hseconds, hupdated⟩ :=
      Database.task_of_refreshed h.refreshed (h.mem (.task e.task) hpresent rfl)
    exact ⟨k, hk, hseconds, hupdated ▸ hstamp⟩
  case project =>
    intro hpresent
    obtain ⟨k, n, hk, hauto, hproject⟩ :=
      Database.project_of_refreshed h.refreshed (h.mem (.project e.project) hpresent rfl)
    refine ⟨k, n, hk, hauto, fun hne => ?_⟩
    obtain ⟨hhours, hupdated⟩ := hproject hne
    exact ⟨hhours, hupdated ▸ hstamp⟩

/-- Whatever the totals were before: when an entry was created or stopped, and was answered, its task has
the seconds of all entries, and its project their hours if it follows them. Both are dated now. -/
theorem finishing_repairs (policy : Policy) (hr : r.Finishing now) (hnow : now.IsStorable) :
    (∀ (d : Desk Memory) (e : Entry), ((r.program policy).run d).1 = .entry (.ok e) →
      Memory.Repaired now e ((r.program policy).run d).2.store) ∧
    ∀ (d : Desk Database) (e : Entry), ((r.program policy).run d).1 = .entry (.ok e) →
      Database.Repaired now e ((r.program policy).run d).2.store := by
  constructor
  · intro d e h
    obtain ⟨s, ts, hfinished⟩ := finished_of_answer Memory.books hr h
    exact Memory.repaired hfinished
  · intro d e h
    obtain ⟨s, ts, hfinished⟩ := finished_of_answer Database.books hr h
    exact Database.repaired hnow hfinished

theorem eq_ok_of_toOption {ε α : Type} {x : Except ε α} {a : α} (h : x.toOption = some a) :
    x = .ok a := by
  cases x with
  | error f => cases h
  | ok b => exact congrArg Except.ok (Option.some.inj h)

def secondMinute : Entry :=
  { minuteOfFirstTask with id := ⟨.ofNat 2⟩ }

theorem finishing_repairs_minute :
    (minuteOf (some firstTask.id.text)).Finishing .epoch ∧ Instant.epoch.IsStorable ∧
    Memory.Repaired .epoch minuteOfFirstTask (((minuteOf (some firstTask.id.text)).program {}).run
      ⟨({ tasks := Shelf.empty.put { firstTask with trackedSeconds := 7 } } : Memory),
        .after 0⟩).2.store ∧
    Database.Repaired .epoch minuteOfFirstTask (((minuteOf (some firstTask.id.text)).program {}).run
      ⟨({ tasks := Shelf.empty.put (.ofTask { firstTask with trackedSeconds := 7 }) } : Database),
        .after 0⟩).2.store := by
  obtain ⟨hm, hd⟩ := finishing_repairs (r := minuteOf (some firstTask.id.text)) {} rfl
    Instant.epoch_isStorable
  exact ⟨rfl, Instant.epoch_isStorable, hm _ _ rfl, hd _ _ rfl⟩

def capitalDesk : Desk Database :=
  ⟨{ entries := Shelf.empty.put capitalRow
     tasks := Shelf.empty.put { TaskRow.ofTask firstTask with trackedSeconds := .integer 60 } },
    .after 1⟩

/-- A row that names the task in capitals is read as an entry of the task, and is not summed. -/
theorem finishing_repairs_not_always :
    ¬∀ (d : Desk Database) (r : Request) (e : Entry), r.Finishing .epoch →
      (∀ row ∈ d.store.entries.items, ∀ s, row.key = .named s →
        Identifier.parse .entry s ≠ .ok d.ids.next) →
      ((r.program {}).run d).1 = .entry (.ok e) → e.task.isAbsent = false →
      Word.fits (((r.program {}).run d).2.store.readTaskSeconds e.task) = true →
        ∃ k, ((r.program {}).run d).2.store.tasks.find? (.named e.task.text) = some k ∧
          k.trackedSeconds = .integer (((r.program {}).run d).2.store.readTaskSeconds e.task) := by
  intro h
  have hfresh : ∀ row ∈ capitalDesk.store.entries.items, ∀ s, row.key = .named s →
      Identifier.parse .entry s ≠ .ok capitalDesk.ids.next := by
    rintro row hrow s hkey
    obtain rfl := List.mem_singleton.mp hrow
    obtain ⟨⟩ := hkey
    decide +kernel
  have hitems : (((minuteOf (some firstTask.id.text)).program {}).run
      capitalDesk).2.store.entries.items = [capitalRow, .ofEntry secondMinute] := by decide +kernel
  have hsecond : (EntryRow.ofEntry secondMinute).entry = .ok secondMinute :=
    EntryRow.entry_eq_ok.mpr (EntryRow.ofEntry_denotes.mpr ⟨by decide, rfl⟩)
  have hread : (((minuteOf (some firstTask.id.text)).program {}).run
      capitalDesk).2.store.readTaskSeconds firstTask.id = 120 := by
    rw [Database.readTaskSeconds, hitems]
    simp only [List.filterMap, capitalRow_entry, hsecond, Except.toOption]
    decide
  have hfits : Word.fits ((((minuteOf (some firstTask.id.text)).program {}).run
      capitalDesk).2.store.readTaskSeconds firstTask.id) = true := by
    rw [hread]
    decide
  have hanswer : (((minuteOf (some firstTask.id.text)).program {}).run capitalDesk).1 =
      .entry (.ok secondMinute) := by
    rw [minuteOf, Request.program, Program.run_map]
    exact congrArg Reply.entry (eq_ok_of_toOption (by decide +kernel))
  obtain ⟨k, hk, htracked⟩ := h capitalDesk (minuteOf (some firstTask.id.text)) secondMinute rfl
    hfresh hanswer (by decide) hfits
  have hrows : ∀ k ∈ (((minuteOf (some firstTask.id.text)).program {}).run
      capitalDesk).2.store.tasks.items, k.trackedSeconds = .integer 60 := by decide +kernel
  have hcounted := hrows k (Shelf.find?_eq_some.mp hk).1
  rw [htracked] at hcounted
  exact absurd (hread.symm.trans (NumberCell.integer.inj hcounted)) (by decide)

end Repaired

end Timesheet
