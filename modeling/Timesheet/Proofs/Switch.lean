import Timesheet.Proofs.Recount

/-!
One session answered twice, where totals follow changes and deletions and where they do not. Main
statement: both times the same entries are stored and the replies are the same, but that a changed or
deleted entry may be answered with word that its totals were left behind.
-/

namespace Timesheet

open Service

variable {α σ : Type}

/-- An answer, and an answer that is given after totals were brought up to date as well. -/
def Trails (x y : Except ServiceFault Entry) : Prop :=
  y = x ∨ ∃ e cause, x = .ok e ∧ y = .error (.stale e.id cause)

namespace Service.BatchItem

def Trails (i j : BatchItem) : Prop :=
  j.id = i.id ∧ Timesheet.Trails i.result j.result

end Service.BatchItem

/-- The reply to a request where totals do not follow changes, and the one where they do. -/
inductive Request.Trails : Request → Reply → Reply → Prop
  | same (r : Request) (x : Reply) : Trails r x x
  | update {id : String} {patch : Patch} {now : Instant} {e : Entry} {cause : ServiceFault} :
      Trails (.update id patch now) (.entry (.ok e)) (.entry (.error (.stale e.id cause)))
  | delete {id : String} {now : Instant} {e : Entry} {cause : ServiceFault} :
      Trails (.delete id now) (.entry (.ok e)) (.entry (.error (.stale e.id cause)))
  | updateBatch {ids : String} {patch : Patch} {now : Instant} {is js : List BatchItem}
      (h : List.Forall₂ BatchItem.Trails is js) :
      Trails (.updateBatch ids patch now) (.batch is) (.batch js)

/-- Each request of a list has the two replies that belong together. -/
inductive Request.AllTrail : List Request → List Reply → List Reply → Prop
  | nil : AllTrail [] [] []
  | cons {r : Request} {rs : List Request} {x y : Reply} {xs ys : List Reply} (h : r.Trails x y)
      (hs : AllTrail rs xs ys) : AllTrail (r :: rs) (x :: xs) (y :: ys)

variable [Store σ] {R : σ → σ → Prop}

def Trailing (R : σ → σ → Prop) (op op' : Operation Entry) : Prop :=
  ∀ d d' : Desk σ, Beside R d d' → Trails (op.run.run d).1 (op'.run.run d').1 ∧
    Beside R (op.run.run d).2 (op'.run.run d').2

namespace Trailing

theorem bind (I : IgnoresTotals R) {op : Operation α} {f g : α → Operation Entry}
    (h : ∀ a, Trailing R (f a) (g a)) : Trailing R (op >>= f) (op >>= g) := by
  intro d d' hd
  obtain ⟨hsame, hafter⟩ := I.run op.run hd
  rw [ExceptT.run_bind, ExceptT.run_bind, Program.run_bind, Program.run_bind, hsame]
  cases (op.run.run d).1 with
  | ok a => exact h a _ _ hafter
  | error e => exact ⟨.inl rfl, hafter⟩

theorem checked_bind {x : Except Refusal α} {f g : α → Operation Entry}
    (h : ∀ a, x = .ok a → Trailing R (f a) (g a)) :
    Trailing R (checked x >>= f) (checked x >>= g) := by
  intro d d' hd
  cases x with
  | ok a => exact h a rfl d d' hd
  | error e => exact ⟨.inl rfl, hd⟩

theorem resync (I : IgnoresTotals R) (e : Entry) (tasks : List TaskId) (projects : List ProjectId)
    (now : Instant) :
    Trailing R (pure e) (Service.resync e.id tasks projects now >>= fun _ => pure e) := by
  intro d d' hd
  obtain ⟨r, s, ts, ps, t, hran, hsync, -, -, hr⟩ := ran_resync e.id tasks projects now d'
  have hafter : Beside R d { d' with store := s } := ⟨hd.ids, I.trans hd.store (I.synced hsync)⟩
  -- What was written before totals failed to follow is totals too.
  rcases hr with ⟨rfl, -⟩ | ⟨cause, rfl⟩
  · rw [(Operation.ran_bind_ok hran (Operation.ran_ok _ e)).run]
    exact ⟨.inl rfl, hafter⟩
  · rw [(Operation.ran_bind_error hran).run]
    exact ⟨.inr ⟨e, cause, rfl, rfl⟩, hafter⟩

theorem update (I : IgnoresTotals R) (policy : Policy) (id : String) (patch : Patch)
    (now : Instant) : Trailing R (Service.update { policy with resyncOnEdit := false } id patch now)
      (Service.update { policy with resyncOnEdit := true } id patch now) := by
  apply bind I
  intro id
  apply bind I
  intro e
  apply checked_bind
  intro e' he'
  apply bind I
  intro _
  have hid : e'.id = e.id := (Entry.applyPatch_eq_ok he').2.1
  exact hid ▸ resync I e' _ _ now

theorem delete (I : IgnoresTotals R) (policy : Policy) (id : String) (now : Instant) :
    Trailing R (Service.delete { policy with resyncOnEdit := false } id now)
      (Service.delete { policy with resyncOnEdit := true } id now) := by
  apply bind I
  intro id
  apply bind I
  intro e
  apply bind I
  intro _
  exact resync I e _ _ now

theorem forEachId {f g : String → Operation Entry} (h : ∀ id, Trailing R (f id) (g id))
    (ids : List String) {d d' : Desk σ} (hd : Beside R d d') :
    List.Forall₂ BatchItem.Trails ((Service.forEachId f ids).run d).1
        ((Service.forEachId g ids).run d').1 ∧
      Beside R ((Service.forEachId f ids).run d).2 ((Service.forEachId g ids).run d').2 := by
  induction ids generalizing d d' with
  | nil => exact ⟨.nil, hd⟩
  | cons id ids ih =>
    obtain ⟨hitem, hafter⟩ := h id d d' hd
    obtain ⟨hitems, hend⟩ := ih hafter
    rw [run_forEachId_cons, run_forEachId_cons]
    exact ⟨.cons ⟨rfl, hitem⟩ hitems, hend⟩

end Trailing

theorem Request.trails (I : IgnoresTotals R) (policy : Policy) (r : Request) {d d' : Desk σ}
    (hd : Beside R d d') :
    r.Trails ((r.program { policy with resyncOnEdit := false }).run d).1
        ((r.program { policy with resyncOnEdit := true }).run d').1 ∧
      Beside R ((r.program { policy with resyncOnEdit := false }).run d).2
        ((r.program { policy with resyncOnEdit := true }).run d').2 := by
  have same (hr : r.program { policy with resyncOnEdit := true } =
      r.program { policy with resyncOnEdit := false }) :
      r.Trails ((r.program { policy with resyncOnEdit := false }).run d).1
          ((r.program { policy with resyncOnEdit := true }).run d').1 ∧
        Beside R ((r.program { policy with resyncOnEdit := false }).run d).2
          ((r.program { policy with resyncOnEdit := true }).run d').2 := by
    obtain ⟨hsame, hafter⟩ := I.run (r.program { policy with resyncOnEdit := false }) hd
    rw [hr, hsame]
    exact ⟨.same r _, hafter⟩
  cases r with
  | update id patch now =>
    obtain ⟨h, hafter⟩ := Trailing.update I policy id patch now d d' hd
    simp only [program, Program.run_map]
    refine ⟨?_, hafter⟩
    rcases h with h | ⟨e, cause, hx, hy⟩
    · rw [h]
      exact .same _ _
    · rw [hx, hy]
      exact .update
  | delete id now =>
    obtain ⟨h, hafter⟩ := Trailing.delete I policy id now d d' hd
    simp only [program, Program.run_map]
    refine ⟨?_, hafter⟩
    rcases h with h | ⟨e, cause, hx, hy⟩
    · rw [h]
      exact .same _ _
    · rw [hx, hy]
      exact .delete
  | updateBatch ids patch now =>
    obtain ⟨h, hafter⟩ := Trailing.forEachId
      (fun id => Trailing.update I policy id patch now) (parseIdList ids) hd
    simp only [program, Program.run_map]
    exact ⟨.updateBatch h, hafter⟩
  | _ => exact same rfl

theorem IgnoresTotals.session (I : IgnoresTotals R) (policy : Policy) (rs : List Request)
    {d t : Desk σ} (hd : Beside R d t) :
    Request.AllTrail rs ((session { policy with resyncOnEdit := false } rs).run d).1
        ((session { policy with resyncOnEdit := true } rs).run t).1 ∧
      Beside R ((session { policy with resyncOnEdit := false } rs).run d).2
        ((session { policy with resyncOnEdit := true } rs).run t).2 := by
  induction rs generalizing d t with
  | nil => exact ⟨.nil, hd⟩
  | cons r rs ih =>
    obtain ⟨hreply, hafter⟩ := r.trails I policy hd
    obtain ⟨hreplies, hend⟩ := ih hafter
    simp only [Timesheet.session, Program.run_bind, bind_pure_comp, Program.run_map]
    exact ⟨.cons hreply hreplies, hend⟩

/-- Wherever a session ends, the same identifiers have been drawn and the stores hold the same
entries, whether totals follow changes or not: what differs is totals, when they were last written,
and replies that tell of totals left behind. -/
theorem session_trails (policy : Policy) (rs : List Request) (ids : IdSource) :
    (∀ m : Memory,
      let off := (session { policy with resyncOnEdit := false } rs).run ⟨m, ids⟩
      let on := (session { policy with resyncOnEdit := true } rs).run ⟨m, ids⟩
      Request.AllTrail rs off.1 on.1 ∧ on.2.ids = off.2.ids ∧
        off.2.store.RecountsTo on.2.store) ∧
    ∀ d : Database,
      let off := (session { policy with resyncOnEdit := false } rs).run ⟨d, ids⟩
      let on := (session { policy with resyncOnEdit := true } rs).run ⟨d, ids⟩
      Request.AllTrail rs off.1 on.1 ∧ on.2.ids = off.2.ids ∧
        off.2.store.RecountsTo on.2.store := by
  constructor
  · intro m
    obtain ⟨hreplies, hafter⟩ := Memory.ignoresTotals.session policy rs
      (d := ⟨m, ids⟩) (t := ⟨m, ids⟩) ⟨rfl, .refl m⟩
    exact ⟨hreplies, hafter.ids, hafter.store⟩
  · intro d
    obtain ⟨hreplies, hafter⟩ := Database.ignoresTotals.session policy rs
      (d := ⟨d, ids⟩) (t := ⟨d, ids⟩) ⟨rfl, .refl d⟩
    exact ⟨hreplies, hafter.ids, hafter.store⟩

end Timesheet
