import Timesheet.Proofs.Lifecycle

namespace Timesheet

open Service

variable {σ : Type} [Store σ]

namespace Request

def parts : Request → List Request
  | updateBatch ids patch now => (parseIdList ids).map fun id => .update id patch now
  | updateTagsBatch ids tags mode now =>
    (parseIdList ids).map fun id => .updateTags id tags mode now
  | r => [r]

def IsSingle : Request → Prop
  | updateBatch _ _ _ => False
  | updateTagsBatch _ _ _ _ => False
  | _ => True

theorem clock?_of_mem_parts {r q : Request} (h : q ∈ r.parts) : q.clock? = r.clock? := by
  cases r with
  | updateBatch ids patch now =>
    obtain ⟨id, -, rfl⟩ := List.mem_map.mp h
    rfl
  | updateTagsBatch ids tags mode now =>
    obtain ⟨id, -, rfl⟩ := List.mem_map.mp h
    rfl
  | _ =>
    obtain rfl := List.mem_singleton.mp h
    rfl

theorem isSingle_of_mem_parts {r q : Request} (h : q ∈ r.parts) : q.IsSingle := by
  cases r with
  | updateBatch ids patch now =>
    obtain ⟨id, -, rfl⟩ := List.mem_map.mp h
    trivial
  | updateTagsBatch ids tags mode now =>
    obtain ⟨id, -, rfl⟩ := List.mem_map.mp h
    trivial
  | _ =>
    obtain rfl := List.mem_singleton.mp h
    trivial

def SyncsTask : Request → TaskId → Prop
  | syncTaskTime text _, id => Identifier.parse .task text = .ok id
  | _, _ => False

def SyncsProject : Request → ProjectId → Prop
  | syncProjectTime text _, id => Identifier.parse .project text = .ok id
  | _, _ => False

theorem exists_clock (r : Request) : ∃ now : Instant, (∀ i ∈ r.clock?, i = now) ∧
    ((∀ i ∈ r.clock?, i.IsStorable) → now.IsStorable) := by
  cases r.clock? with
  | none => exact ⟨.epoch, fun i hi => absurd hi (by simp), fun _ => Instant.epoch_isStorable⟩
  | some i => exact ⟨i, fun j hj => (Option.some.inj hj).symm, fun h => h i rfl⟩

end Request

def Alike {α β : Type} (d : Desk σ) (p : Program α) (q : Program β) : Prop :=
  (p.run d).2 = (q.run d).2 ∧ p.trace d = q.trace d

namespace Alike

variable {α β γ δ : Type} {d : Desk σ} {p : Program α} {q : Program β}

theorem map (f : α → γ) (h : Alike d p q) : Alike d (f <$> p) q := by
  constructor
  · rw [Program.run_map]
    exact h.1
  · rw [map_eq_pure_bind, Program.trace_bind, h.2]
    exact List.append_nil _

theorem symm (h : Alike d p q) : Alike d q p :=
  ⟨h.1.symm, h.2.symm⟩

theorem bind {f : α → Program γ} {g : β → Program δ} (h : Alike d p q)
    (hf : ∀ a b (d' : Desk σ), Alike d' (f a) (g b)) : Alike d (p >>= f) (q >>= g) := by
  constructor
  · rw [Program.run_bind, Program.run_bind, ← h.1]
    exact (hf _ _ _).1
  · rw [Program.trace_bind, Program.trace_bind, ← h.1, ← h.2, (hf _ _ _).2]

end Alike

theorem alike_forEachId {policy : Policy} {apply : String → Operation Entry}
    {part : String → Request} (h : ∀ id, (part id).program policy = Reply.entry <$> (apply id).run)
    (ids : List String) (d : Desk σ) :
    Alike d (forEachId apply ids) (session policy (ids.map part)) := by
  induction ids generalizing d with
  | nil => exact ⟨rfl, rfl⟩
  | cons id ids ih =>
    have hid : Alike d (apply id).run ((part id).program policy) := by
      rw [h]
      exact (Alike.map _ ⟨rfl, rfl⟩).symm
    refine hid.bind fun r reply d' => ?_
    exact (ih d').bind fun items replies d'' => ⟨rfl, rfl⟩

theorem alike_session_singleton (policy : Policy) (r : Request) (d : Desk σ) :
    Alike d (r.program policy) (session policy [r]) := by
  constructor
  · rw [session, Program.run_bind]
    rfl
  · rw [session, Program.trace_bind]
    exact (List.append_nil _).symm

theorem alike_parts (policy : Policy) (r : Request) (d : Desk σ) :
    Alike d (r.program policy) (session policy r.parts) := by
  cases r with
  | updateBatch ids patch now =>
    exact (alike_forEachId (fun _ => rfl) (parseIdList ids) d).map _
  | updateTagsBatch ids tags mode now =>
    exact (alike_forEachId (fun _ => rfl) (parseIdList ids) d).map _
  | _ => exact alike_session_singleton policy _ d

theorem alike_session_append (policy : Policy) (rs qs : List Request) (d : Desk σ) :
    Alike d (session policy rs >>= fun _ => session policy qs) (session policy (rs ++ qs)) := by
  induction rs generalizing d with
  | nil => exact ⟨rfl, rfl⟩
  | cons r rs ih =>
    rw [List.cons_append, session, session, bind_assoc]
    refine Alike.bind ⟨rfl, rfl⟩ fun reply reply' d' => ?_
    simp only [bind_pure_comp, bind_map_left]
    exact ((ih d').symm.map _).symm

theorem alike_session_parts (policy : Policy) (rs : List Request) (d : Desk σ) :
    Alike d (session policy rs) (session policy (rs.flatMap Request.parts)) := by
  induction rs generalizing d with
  | nil => exact ⟨rfl, rfl⟩
  | cons r rs ih =>
    have happend := alike_session_append policy r.parts (rs.flatMap Request.parts) d
    have hbind : Alike d (session policy (r :: rs))
        (session policy r.parts >>= fun _ => session policy (rs.flatMap Request.parts)) := by
      refine (alike_parts policy r d).bind fun reply replies d' => ?_
      rw [bind_pure_comp]
      exact (ih d').map _
    exact ⟨hbind.1.trans happend.1, hbind.2.trans happend.2⟩

theorem session_of_extension (policy : Policy) {qs rs : List Request} (h : qs <+: rs)
    (d : Desk σ) :
    ((session policy qs).run d).2.ids.drawn ≤ ((session policy rs).run d).2.ids.drawn ∧
      (session policy qs).trace d ⊆ (session policy rs).trace d := by
  obtain ⟨us, rfl⟩ := h
  obtain ⟨hrun, htrace⟩ := alike_session_append policy qs us d
  rw [← hrun, ← htrace, Program.run_bind, Program.trace_bind]
  exact ⟨Program.drawn_le _ _, List.subset_append_left _ _⟩

def Reply.IsStale : Reply → Prop
  | entry (.error f) => f.IsStale
  | _ => False

instance : DecidablePred Reply.IsStale
  | .entry (.error f) => inferInstanceAs (Decidable f.IsStale)
  | .entry (.ok _) => isFalse not_false
  | .batch _ => isFalse not_false
  | .taskTotal _ => isFalse not_false
  | .projectTotal _ => isFalse not_false
  | .entries _ => isFalse not_false
  | .dashboard _ => isFalse not_false

def Refreshes (now : Instant) (d : Desk σ) (p : Program Reply) (T : TaskId → Prop)
    (P : ProjectId → Prop) : Prop :=
  ∃ (reply : Reply) (s : σ) (ts : List TaskId) (ps : List ProjectId) (t : List (σ × Call)),
    Ran d p reply { d with store := s } t ∧ Synced now d.store ts ps s t ∧ ¬reply.IsStale ∧
      (∀ id ∈ ts, T id) ∧ ∀ id ∈ ps, P id

/-- What a single request comes to, if the time is the one it may write down. -/
inductive Outcome (policy : Policy) (now : Instant) (d : Desk σ) (p : Program Reply) : Prop
  | handled {q : Program (Except ServiceFault Entry)} (hp : p = Reply.entry <$> q)
      (h : Handled policy now d q)
  | refreshed {reply : Reply} {s : σ} {ts : List TaskId} {ps : List ProjectId}
      {t : List (σ × Call)} (hran : Ran d p reply { d with store := s } t)
      (h : Synced now d.store ts ps s t) (hreply : ¬reply.IsStale)

section Outcome

variable {policy : Policy} {now : Instant} {d : Desk σ} {α : Type} {T : TaskId → Prop}
  {P : ProjectId → Prop}

theorem refreshes_of_syncs {f : Except ServiceFault α → Reply} (hf : ∀ r, ¬(f r).IsStale)
    {op : Operation α} {ts : List TaskId} {ps : List ProjectId} (h : Syncs now d op ts ps)
    (hts : ∀ id ∈ ts, T id) (hps : ∀ id ∈ ps, P id) : Refreshes now d (f <$> op.run) T P := by
  obtain ⟨r, s, ts', ps', t, hran, hsync, hts', hps', -⟩ := h
  exact ⟨_, s, ts', ps', t, hran.map f, hsync, hf r, fun id hid => hts id (hts' hid),
    fun id hid => hps id (hps' hid)⟩

theorem refreshes_of_asking {f : Except ServiceFault α → Reply} (hf : ∀ r, ¬(f r).IsStale)
    {op : Operation α} (h : Syncs now d op [] []) : Refreshes now d (f <$> op.run) T P :=
  refreshes_of_syncs hf h (by simp) (by simp)

theorem refreshes_checked_bind {f : Except ServiceFault α → Reply}
    (hf : ∀ g, ¬(f (.error (.refused g))).IsStale) {β : Type} {r : Except Refusal β}
    {op : β → Operation α} (h : ∀ b, r = .ok b → Refreshes now d (f <$> (op b).run) T P) :
    Refreshes now d (f <$> (checked r >>= op).run) T P := by
  cases r with
  | error g =>
    exact ⟨_, d.store, [], [], [], Ran.map f ⟨rfl, rfl⟩, .done _, hf g, by simp, by simp⟩
  | ok b => exact h b rfl

theorem refreshes_ite {f : Except ServiceFault α → Reply} {c : Prop} [Decidable c]
    {op op' : Operation α} (h : Refreshes now d (f <$> op.run) T P)
    (h' : Refreshes now d (f <$> op'.run) T P) :
    Refreshes now d (f <$> (if c then op else op' : Operation α).run) T P := by
  by_cases hc : c
  · rwa [if_pos hc]
  · rwa [if_neg hc]

theorem refreshes_get (id : EntryId) : Refreshes now d (Reply.entry <$> (load id).run) T P := by
  have hask := Operation.ran_addressing d .loadEntry id (.fetch id)
  have hlook : Synced now d.store [] [] d.store [(d.store, .fetch id)] :=
    .quiet rfl (by simp [Call.recorded]) (.done _)
  refine ⟨_, d.store, [], [], _, hask.map Reply.entry, hlook, ?_, by simp, by simp⟩
  change ¬(Reply.entry ((Store.fetch d.store id).mapError _)).IsStale
  cases Store.fetch d.store id with
  | ok e => exact not_false
  | error e => exact isStale_addressFault

theorem syncs_asking (now : Instant) (d : Desk σ) (action : Action) {c : Call}
    (hstore : (c.perform d.store).2 = d.store) (hnone : c.recorded (c.perform d.store).1 = []) :
    Syncs now d (asking action c) [] [] := by
  have hask := Operation.ran_asking d action c
  rw [hstore] at hask
  exact ⟨_, d.store, [], [], _, hask, .quiet hstore hnone (.done _), List.nil_subset _,
    List.nil_subset _, fun _ => ⟨rfl, rfl⟩⟩

theorem Request.refreshes (policy : Policy) (d : Desk σ) {r : Request} (hr : r.IsSingle)
    (hnone : r.operation? policy = none) (hnow : ∀ i ∈ r.clock?, i = now) :
    Refreshes now d (r.program policy) r.SyncsTask r.SyncsProject := by
  have tasks (r : Except ServiceFault TaskTotal) : ¬(Reply.taskTotal r).IsStale := not_false
  have projects (r : Except ServiceFault ProjectTotal) : ¬(Reply.projectTotal r).IsStale := not_false
  have entries (r : Except ServiceFault (List Entry)) : ¬(Reply.entries r).IsStale := not_false
  have both (r : Except ServiceFault Dashboard) : ¬(Reply.dashboard r).IsStale := not_false
  cases r with
  | updateBatch ids patch i => cases hr
  | updateTagsBatch ids tags mode i => cases hr
  | syncTaskTime id i =>
    obtain rfl := hnow i rfl
    refine refreshes_checked_bind (fun _ => tasks _) fun id hid =>
      refreshes_of_syncs tasks (syncs_syncTask i d id) ?_ (by simp)
    exact fun k hk => List.mem_singleton.mp hk ▸ mapError_eq_ok.mp hid
  | syncProjectTime id i =>
    obtain rfl := hnow i rfl
    refine refreshes_checked_bind (fun _ => projects _) fun id hid =>
      refreshes_of_syncs projects (syncs_syncProject i d id) (by simp) ?_
    exact fun k hk => List.mem_singleton.mp hk ▸ mapError_eq_ok.mp hid
  | get id =>
    refine refreshes_checked_bind ?_ fun id _ => refreshes_get id
    rintro g ⟨id, cause, ⟨⟩⟩
  | running owner page =>
    exact refreshes_checked_bind (fun _ => entries _) fun user _ =>
      refreshes_of_asking entries (syncs_asking now d _ rfl rfl)
  | range owner page first last =>
    refine refreshes_checked_bind (fun _ => entries _) fun user _ => ?_
    apply refreshes_ite
    · exact refreshes_of_asking entries (syncs_pure now d [])
    · exact refreshes_of_asking entries (syncs_asking now d _ rfl rfl)
  | dashboard owner i =>
    refine refreshes_checked_bind (fun _ => both _) fun user _ => ?_
    exact refreshes_of_asking both ((syncs_asking now d _ rfl rfl).bind fun mostActive s =>
      (syncs_asking now _ _ rfl rfl).bind fun recent s' => syncs_pure now _ _)
  | _ => cases hnone

theorem Request.outcome (policy : Policy) (d : Desk σ) {r : Request} (hr : r.IsSingle)
    (hnow : ∀ i ∈ r.clock?, i = now) : Outcome policy now d (r.program policy) := by
  cases hop : r.operation? policy with
  | some op => exact .handled (Request.program_of_operation? hop) (Request.performed hop hnow).handled
  | none =>
    obtain ⟨reply, s, ts, ps, t, hran, hsync, hreply, -⟩ := r.refreshes policy d hr hop hnow
    exact .refreshed hran hsync hreply

end Outcome

end Timesheet
