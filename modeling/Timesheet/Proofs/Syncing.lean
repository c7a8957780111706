import Timesheet.Proofs.Recount
import Timesheet.Proofs.Refreshing

namespace Timesheet

open Service

section Requests

def Request.IsSync (now : Instant) : Request → Prop
  | syncTaskTime _ i => i = now
  | syncProjectTime _ i => i = now
  | _ => False

def Request.Syncs (r : Request) : Total → Prop
  | .task id => r.SyncsTask id
  | .project id => r.SyncsProject id

def Covers (rs : List Request) (t : Total) : Prop :=
  ∃ q ∈ rs, q.Syncs t

def Total.sync (now : Instant) : Total → Program Reply
  | task id => Reply.taskTotal <$> (syncTask id now).run
  | project id => Reply.projectTotal <$> (syncProject id now).run

namespace Request.IsSync

variable {now : Instant} {q q' : Request} {t : Total}

theorem program_eq (hq : q.IsSync now) (policy : Policy) :
    (∃ t, (∀ u, q.Syncs u ↔ u = t) ∧ q.program policy = t.sync now) ∨
      (∀ t, ¬q.Syncs t) ∧ ∃ reply, q.program policy = pure reply := by
  cases q with
  | syncTaskTime text i =>
    obtain rfl := hq
    have hprogram : (Request.syncTaskTime text i).program policy =
        Reply.taskTotal <$> (identified (Identifier.parse .task text) >>= (syncTask · i)).run := rfl
    rw [hprogram]
    cases hid : Identifier.parse .task text with
    | ok id =>
      refine .inl ⟨.task id, fun u => ?_, rfl⟩
      cases u <;> simp [Syncs, SyncsTask, SyncsProject, hid, eq_comm]
    | error g =>
      refine .inr ⟨fun u => ?_, _, rfl⟩
      cases u <;> simp [Syncs, SyncsTask, SyncsProject, hid]
  | syncProjectTime text i =>
    obtain rfl := hq
    have hprogram : (Request.syncProjectTime text i).program policy =
        Reply.projectTotal <$>
          (identified (Identifier.parse .project text) >>= (syncProject · i)).run := rfl
    rw [hprogram]
    cases hid : Identifier.parse .project text with
    | ok id =>
      refine .inl ⟨.project id, fun u => ?_, rfl⟩
      cases u <;> simp [Syncs, SyncsTask, SyncsProject, hid, eq_comm]
    | error g =>
      refine .inr ⟨fun u => ?_, _, rfl⟩
      cases u <;> simp [Syncs, SyncsTask, SyncsProject, hid]
  | _ => exact hq.elim

theorem program_eq_of_syncs (hq : q.IsSync now) (h : q.Syncs t) (policy : Policy) :
    q.program policy = t.sync now := by
  rcases hq.program_eq policy with ⟨u, hu, hprogram⟩ | ⟨hnone, -⟩
  · rw [(hu t).mp h, hprogram]
  · exact absurd h (hnone t)

end Request.IsSync

end Requests

section Sequences

variable {σ κ ρ : Type} [Store σ] [KeyOrder κ] [DecidableEq κ] {key : ρ → κ} {B : Books σ key}
  {now : Instant} {policy : Policy} {q : Request} {rs : List Request} {d : Desk σ} {t : Total}

theorem Operation.desk_bind_pure {α β : Type} (op : Operation α) (b : β) (d : Desk σ) :
    ((op >>= fun _ => pure b).run.run d).2 = (op.run.run d).2 := by
  rw [ExceptT.run_bind, Program.run_bind]
  cases (op.run.run d).1 <;> rfl

theorem run_sync (t : Total) (now : Instant) (d : Desk σ) : ∃ x s,
    ((t.sync now).run d).2 = { d with store := s } ∧ Settles now d.store [t] x s := by
  have hdone : Operation.Settles σ now [] (pure ()) := Operation.settles_pure
  cases t with
  | task id =>
    obtain ⟨x, s, hrun, hsettles⟩ := hdone.syncTask_bind id d
    refine ⟨x, s, ?_, hsettles⟩
    rw [Total.sync, Program.run_map, ← Operation.desk_bind_pure _ (), hrun]
  | project id =>
    obtain ⟨x, s, hrun, hsettles⟩ := hdone.syncProject_bind id d
    refine ⟨x, s, ?_, hsettles⟩
    rw [Total.sync, Program.run_map, ← Operation.desk_bind_pure _ (), hrun]

theorem refreshed_request (B : Books σ key) (hq : q.IsSync now) (policy : Policy) (d : Desk σ) :
    ∃ us s, ((q.program policy).run d).2 = { d with store := s } ∧ B.Refreshed now us d.store s ∧
      (∀ t ∈ us, q.Syncs t) ∧ ∀ t, q.Syncs t → (∃ n, t.sum d.store = .ok n) →
        B.trouble d.store t = none → t ∈ us := by
  rcases hq.program_eq policy with ⟨t, ht, hprogram⟩ | ⟨hnone, reply, hprogram⟩
  · obtain ⟨x, s, hrun, hsettles⟩ := run_sync t now d
    obtain ⟨us, hpart, hall, hrefreshed⟩ := B.exists_refreshed hsettles
    refine ⟨us, s, hprogram ▸ hrun, hrefreshed, fun u hu => ?_, fun u hu hsum hable => ?_⟩
    · exact (ht u).mpr (List.mem_singleton.mp (hpart.subset hu))
    · obtain rfl := (ht u).mp hu
      have hok := B.settles_ok hsettles (List.forall_mem_singleton.mpr hsum)
        (List.forall_mem_singleton.mpr hable)
      rw [hall hok]
      exact List.mem_cons_self
  · rw [hprogram]
    exact ⟨[], d.store, rfl, .nil now d.store, by simp, fun t ht => absurd ht (hnone t)⟩

theorem refreshed_session (B : Books σ key) (hrs : ∀ q ∈ rs, q.IsSync now) (policy : Policy)
    (d : Desk σ) : ∃ us s, ((session policy rs).run d).2 = { d with store := s } ∧
      B.Refreshed now us d.store s ∧ ∀ t, t ∈ us ↔
        Covers rs t ∧ (∃ n, t.sum d.store = .ok n) ∧ B.trouble d.store t = none := by
  induction rs generalizing d with
  | nil => exact ⟨[], d.store, rfl, .nil now d.store, by simp [Covers]⟩
  | cons q rs ih =>
    rw [List.forall_mem_cons] at hrs
    obtain ⟨us, s, hrun, hhead, hnamed, hmem⟩ := refreshed_request B hrs.1 policy d
    obtain ⟨vs, s', hrest, htail, hvs⟩ := ih hrs.2 { d with store := s }
    refine ⟨us ++ vs, s', ?_, hhead.append htail, fun t => ?_⟩
    · rw [session, Program.run_bind, hrun, bind_pure_comp, Program.run_map, hrest]
    · rw [List.mem_append, hvs, B.sum_congr t hhead.entries, hhead.trouble t]
      constructor
      · rintro (ht | ⟨⟨q', hq', hsyncs⟩, hsum, hable⟩)
        · obtain ⟨n, hn, -⟩ := hhead.marked t ht
          exact ⟨⟨q, List.mem_cons_self, hnamed t ht⟩, ⟨n, hn⟩, hhead.able t ht⟩
        · exact ⟨⟨q', List.mem_cons_of_mem _ hq', hsyncs⟩, hsum, hable⟩
      · rintro ⟨⟨q', hq', hsyncs⟩, hsum, hable⟩
        rcases List.mem_cons.mp hq' with rfl | hq'
        · exact .inl (hmem t hsyncs hsum hable)
        · exact .inr ⟨⟨q', hq', hsyncs⟩, hsum, hable⟩

end Sequences

section Replies

variable {σ : Type} [Store σ] {R : σ → σ → Prop} {now : Instant} {rs rs' : List Request}

theorem Request.IsSync.beside (I : IgnoresTotals R) {q : Request} (hq : q.IsSync now) (policy : Policy)
    (d : Desk σ) : Beside R d ((q.program policy).run d).2 := by
  have hsingle : q.IsSingle := by cases q <;> trivial
  have hnone : q.operation? policy = none := by cases q <;> first | rfl | exact hq.elim
  obtain ⟨now, hnow, -⟩ := q.exists_clock
  obtain ⟨reply, s, ts, ps, t, hran, hsync, -⟩ := q.refreshes policy d hsingle hnone hnow
  rw [hran.run]
  exact ⟨rfl, I.synced hsync⟩

theorem replies_syncs (I : IgnoresTotals R) (policy : Policy) (hrs : ∀ q ∈ rs, q.IsSync now)
    {d d' : Desk σ} (h : Beside R d d') :
    ((session policy rs).run d').1 = rs.map fun q => ((q.program policy).run d).1 := by
  induction rs generalizing d' with
  | nil => rfl
  | cons q rs ih =>
    rw [List.forall_mem_cons] at hrs
    have hreply := (I.run (q.program policy) h).1
    have hafter := hrs.1.beside I policy d'
    have hrest := ih hrs.2 ⟨hafter.ids.trans h.ids, I.trans h.store hafter.store⟩
    rw [session, Program.run_bind, bind_pure_comp, Program.run_map, hreply, hrest, List.map_cons]

theorem replies_agree (I : IgnoresTotals R) (policy : Policy) (hrs : ∀ q ∈ rs, q.IsSync now)
    (hrs' : ∀ q ∈ rs', q.IsSync now) (d : Desk σ) {q q' : Request} {x x' : Reply} {t : Total}
    (hx : (q, x) ∈ rs.zip ((session policy rs).run d).1)
    (hx' : (q', x') ∈ rs'.zip ((session policy rs').run d).1) (h : q.Syncs t) (h' : q'.Syncs t) :
    x = x' := by
  have hself : Beside R d d := ⟨rfl, I.refl d.store⟩
  rw [replies_syncs I policy hrs hself, ← List.map_prod_left_eq_zip, List.mem_map] at hx
  rw [replies_syncs I policy hrs' hself, ← List.map_prod_left_eq_zip, List.mem_map] at hx'
  obtain ⟨a, ha, ⟨⟩⟩ := hx
  obtain ⟨b, hb, ⟨⟩⟩ := hx'
  rw [(hrs _ ha).program_eq_of_syncs h, (hrs' _ hb).program_eq_of_syncs h']

end Replies

end Timesheet
