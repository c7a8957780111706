import Timesheet.Proofs.Outcome
import Timesheet.Proofs.Pairing

/-!
Identifiers that cannot be read. A request is refused for one before the store is asked anything, and
so on every store alike; only an update reads the identifiers of its patch after it has loaded its
entry.
-/

namespace Timesheet

open Service

variable {α β σ τ : Type}

namespace Entry

section Patched

variable {kind : IdentifierKind} {current : Identifier kind} (other : Identifier kind)
  {read : String → Except InvalidIdentifier (Identifier kind)} {text : Option String}

theorem patchedIdentifier_of_error {g : Refusal}
    (h : patchedIdentifier current read text = .error g) :
    patchedIdentifier other read text = .error g := by
  cases text with
  | none => cases h
  | some t => exact h

theorem patchedIdentifier_of_ok {id : Identifier kind}
    (h : patchedIdentifier current read text = .ok id) :
    ∃ id', patchedIdentifier other read text = .ok id' := by
  cases text with
  | none => exact ⟨other, rfl⟩
  | some t => exact ⟨id, h⟩

end Patched

theorem applyPatch_of_misnamed {e : Entry} {p : Patch} {now : Instant} {g : InvalidIdentifier}
    (h : e.applyPatch p now = .error (.identifier g)) (e' : Entry) (now' : Instant) :
    e'.applyPatch p now' = .error (.identifier g) := by
  unfold applyPatch at h ⊢
  simp only [bind_eq_error] at h ⊢
  rcases h with h | ⟨workspace, hworkspace, h⟩
  · exact .inl (patchedIdentifier_of_error _ h)
  obtain ⟨workspace', hworkspace'⟩ := patchedIdentifier_of_ok e'.workspace hworkspace
  refine .inr ⟨workspace', hworkspace', ?_⟩
  rcases h with h | ⟨project, hproject, h⟩
  · exact .inl (patchedIdentifier_of_error _ h)
  obtain ⟨project', hproject'⟩ := patchedIdentifier_of_ok e'.project hproject
  refine .inr ⟨project', hproject', ?_⟩
  rcases h with h | ⟨task, htask, h⟩
  · exact .inl (patchedIdentifier_of_error _ h)
  -- All identifiers of the patch were read, and the interval has none.
  rcases h with h | ⟨interval, -, ⟨⟩⟩
  obtain ⟨g', -, ⟨⟩⟩ := mapError_eq_error.mp h

end Entry

theorem NewEntry.validate_of_misnamed {input : NewEntry} {id : EntryId} {user : UserId}
    {now : Instant} {g : InvalidIdentifier}
    (h : input.entry id user now = .error (.identifier g)) :
    input.fields.validate = .error (.identifier g) := by
  have hrequire {γ : Type} {field : Field} {x : Option γ} :
      require field x ≠ .error (.identifier g) := by
    cases x <;> simp [require]
  unfold entry at h
  simp only [bind_eq_error] at h
  rcases h with h | ⟨details, -, h | ⟨start, -, h | ⟨duration, -, h⟩⟩⟩
  · exact h
  · cases hrequire h
  · cases hrequire h
  · obtain ⟨g', -, ⟨⟩⟩ := mapError_eq_error.mp h

section Unrefused

variable [Store σ]

def Unrefused (σ : Type) [Store σ] (op : Operation α) : Prop :=
  ∀ (d : Desk σ) (g : Refusal), (op.run.run d).1 ≠ .error (.refused g)

theorem unrefused_pure (a : α) : Unrefused σ (pure a) := by
  rintro d g ⟨⟩

theorem unrefused_asking (action : Action) (c : Call) : Unrefused σ (asking action c) := by
  intro d g h
  obtain ⟨g', -, ⟨⟩⟩ := mapError_eq_error.mp h

theorem unrefused_addressing {kind : IdentifierKind} (action : Action) (id : Identifier kind)
    (c : Call) : Unrefused σ (addressing action id c) := by
  intro d g h
  obtain ⟨g', -, hg⟩ := mapError_eq_error.mp h
  cases g' <;> cases hg

theorem Unrefused.bind {op : Operation α} {f : α → Operation β} (hop : Unrefused σ op)
    (hf : ∀ a, Unrefused σ (f a)) : Unrefused σ (op >>= f) := by
  intro d g
  rw [ExceptT.run_bind, Program.run_bind]
  cases h : (op.run.run d).1 with
  | ok a => exact hf a _ g
  | error f =>
    rintro ⟨⟩
    exact hop d g h

theorem unrefused_ite {c : Prop} [Decidable c] {op op' : Operation α} (h : Unrefused σ op)
    (h' : Unrefused σ op') : Unrefused σ (if c then op else op') := by
  split
  · exact h
  · exact h'

end Unrefused

namespace Request

variable {policy : Policy} {r : Request} {g : InvalidIdentifier}

def Rejects (policy : Policy) (r : Request) (g : InvalidIdentifier) : Prop :=
  ∃ reply, r.program policy = pure reply ∧ reply.fault? = some (.refused (.identifier g))

/-- A request is an update of the entry `id`, and its patch has an identifier that cannot be read. -/
def Mispatches (r : Request) (id : EntryId) (g : InvalidIdentifier) : Prop :=
  ∃ text patch now, r = .update text patch now ∧ Identifier.parse .entry text = .ok id ∧
    ∀ e : Entry, e.applyPatch patch now = .error (.identifier g)

theorem rejects_of_run {wrap : Except ServiceFault α → Reply} {op : Operation α}
    (hr : r.program policy = wrap <$> op.run)
    (hwrap : (wrap (.error (.refused (.identifier g)))).fault? = some (.refused (.identifier g)))
    (h : op.run = pure (.error (.refused (.identifier g)))) : r.Rejects policy g :=
  ⟨_, by rw [hr, h, map_pure], hwrap⟩

section Arguments

variable {kind : IdentifierKind} {x : Except InvalidIdentifier (Identifier kind)}
  {f : Identifier kind → Operation α} {wrap : Except ServiceFault α → Reply}

theorem rejects_of_identified (hr : r.program policy = wrap <$> (identified x >>= f).run)
    (hwrap : (wrap (.error (.refused (.identifier g)))).fault? = some (.refused (.identifier g)))
    (h : x = .error g) : r.Rejects policy g := by
  subst h
  exact rejects_of_run hr hwrap rfl

theorem rejects_of_fault [Store σ] {d : Desk σ}
    (hr : r.program policy = wrap <$> (identified x >>= f).run)
    (hok : ∀ a, (wrap (.ok a)).fault? = none) (herror : ∀ e, (wrap (.error e)).fault? = some e)
    (hf : ∀ id, Unrefused σ (f id))
    (h : ((r.program policy).run d).1.fault? = some (.refused (.identifier g))) :
    r.Rejects policy g := by
  cases hx : x with
  | error g' =>
    subst hx
    have hrun : ((r.program policy).run d).1 = wrap (.error (.refused (.identifier g'))) := by
      rw [hr, Program.run_map]
      rfl
    rw [hrun, herror] at h
    obtain ⟨⟩ := h
    exact rejects_of_identified hr (herror _) rfl
  | ok id =>
    subst hx
    rw [hr, Program.run_map] at h
    cases hrun : ((identified (.ok id) >>= f).run.run d).1 with
    | ok a =>
      rw [hrun, hok] at h
      cases h
    | error e =>
      rw [hrun, herror] at h
      obtain ⟨⟩ := h
      exact absurd hrun (hf id d _)

end Arguments

theorem rejects_of_fails [Store σ] {d : Desk σ} {f : ServiceFault} (h : r.Fails policy d f)
    (hf : f = .refused (.identifier g)) : r.Rejects policy g ∨ ∃ id, r.Mispatches id g := by
  cases h with
  | unnamed hr hid =>
    obtain ⟨⟩ := hf
    left
    cases r <;> cases hr <;> exact rejects_of_identified rfl rfl hid
  | @unloaded _ _ _ cause => cases cause <;> cases hf
  | unedited hr hid hfetch h =>
    obtain ⟨⟩ := hf
    right
    cases r <;> cases hr
    · obtain ⟨g', -, ⟨⟩⟩ := mapError_eq_error.mp h
    · exact ⟨_, _, _, _, rfl, hid, fun e => Entry.applyPatch_of_misnamed h e _⟩
    · cases h
  | @unsaved _ _ _ cause => cases cause <;> cases hf
  | @unerased _ _ _ _ cause => cases cause <;> cases hf
  | unowned hr howner =>
    obtain ⟨⟩ := hf
    left
    cases r <;> cases hr <;> exact rejects_of_identified rfl rfl howner
  | uncreated howner h =>
    obtain ⟨⟩ := hf
    have hfields := NewEntry.validate_of_misnamed h
    refine .inl (rejects_of_run rfl rfl ?_)
    rw [Service.create, howner, hfields]
    rfl
  | unstarted howner hfields =>
    obtain ⟨⟩ := hf
    refine .inl (rejects_of_run rfl rfl ?_)
    rw [Service.start, howner, hfields]
    rfl
  | _ => cases hf

theorem rejects_or_mispatches [Store σ] {d : Desk σ}
    (h : ((r.program policy).run d).1.fault? = some (.refused (.identifier g))) :
    r.Rejects policy g ∨ ∃ id, r.Mispatches id g := by
  obtain ⟨now, hnow, -⟩ := r.exists_clock
  cases hop : r.operation? policy with
  | some op =>
    rw [program_of_operation? hop, Program.run_map, Reply.fault?_entry] at h
    cases performed (d := d) hop hnow with
    | failed hfails hran hstore hquiet =>
      rw [hran.run] at h
      exact rejects_of_fails hfails (Except.error.inj h)
    | kept hmade he hedited hsame hquiet hran =>
      rw [hran.run] at h
      cases h
    | synced hmade he hedited htasks hprojects hsync ha hran =>
      rw [hran.run] at h
      obtain ⟨rfl, -⟩ | ⟨cause, rfl⟩ := ha <;> cases h
  | none =>
    left
    cases r with
    | syncTaskTime text i =>
      exact rejects_of_fault rfl (fun _ => rfl) (fun _ => rfl) (fun id =>
        (unrefused_addressing _ _ _).bind fun n => (unrefused_addressing _ _ _).bind fun _ =>
          unrefused_pure _) h
    | syncProjectTime text i =>
      exact rejects_of_fault rfl (fun _ => rfl) (fun _ => rfl) (fun id =>
        (unrefused_addressing _ _ _).bind fun n => (unrefused_addressing _ _ _).bind fun b =>
          unrefused_pure _) h
    | get text =>
      exact rejects_of_fault rfl (fun _ => rfl) (fun _ => rfl)
        (fun id => unrefused_addressing _ _ _) h
    | running owner page =>
      exact rejects_of_fault rfl (fun _ => rfl) (fun _ => rfl) (fun id => unrefused_asking _ _) h
    | range owner page first last =>
      exact rejects_of_fault rfl (fun _ => rfl) (fun _ => rfl) (fun id =>
        unrefused_ite (unrefused_pure _) (unrefused_asking _ _)) h
    | dashboard owner i =>
      exact rejects_of_fault rfl (fun _ => rfl) (fun _ => rfl) (fun id =>
        (unrefused_asking _ _).bind fun es => (unrefused_asking _ _).bind fun es' =>
          unrefused_pure _) h
    | updateBatch ids patch i =>
      rw [program, Program.run_map] at h
      cases h
    | updateTagsBatch ids tags mode i =>
      rw [program, Program.run_map] at h
      cases h
    | _ => cases hop

theorem Mispatches.ran [Store σ] {id : EntryId} (h : r.Mispatches id g) (policy : Policy)
    (d : Desk σ) :
    ∃ f, Ran d (r.program policy) (.entry (.error f)) d [(d.store, .fetch id)] ∧
      (∀ e, Store.fetch d.store id = .ok e → f = .refused (.identifier g)) ∧
      ∀ cause, Store.fetch d.store id = .error cause → f = addressFault .loadEntry id cause := by
  obtain ⟨text, patch, now, rfl, hid, hpatch⟩ := h
  have hload := Operation.ran_addressing d .loadEntry id (.fetch id)
  have hran {f : ServiceFault}
      (h : Ran d (load id >>= fun e => checked (e.applyPatch patch now) >>= fun e' =>
        save e' >>= fun _ => if policy.resyncOnEdit then
          resync e.id [e.task, e'.task] [e.project, e'.project] now >>= fun _ => pure e'
        else pure e').run (.error f) d [(d.store, .fetch id)]) :
      Ran d ((Request.update text patch now).program policy) (.entry (.error f)) d
        [(d.store, .fetch id)] := by
    rw [program, Service.update, hid]
    exact Ran.map Reply.entry h
  cases hfetch : Store.fetch d.store id with
  | error cause =>
    simp only [Call.perform, hfetch, Except.mapError] at hload
    refine ⟨_, hran (Operation.ran_bind_error hload), fun e he => ?_, fun cause' h => ?_⟩
    · cases he
    · obtain ⟨⟩ := h
      rfl
  | ok e =>
    simp only [Call.perform, hfetch, Except.mapError] at hload
    have hcheck : Ran d (checked (e.applyPatch patch now)).run
        (.error (.refused (.identifier g))) d [] := by
      rw [hpatch e]
      exact ⟨rfl, rfl⟩
    refine ⟨_, hran (Operation.ran_bind_ok hload (Operation.ran_bind_error hcheck)),
      fun e' h => rfl, fun cause h => ?_⟩
    cases h

end Request

/-- A request that is refused for an identifier on one store is refused for it on every store, with
nothing asked and nothing drawn. Of an update whose own identifier can be read the entry is loaded
first, and a store that cannot answer this decides the fault. -/
theorem request_misnamed [Store σ] [Store τ] (policy : Policy) (r : Request)
    (g : InvalidIdentifier) (d : Desk σ)
    (h : ((r.program policy).run d).1.fault? = some (.refused (.identifier g))) :
    (∀ d' : Desk τ,
      ((r.program policy).run d').1.fault? = some (.refused (.identifier g)) ∧
        ((r.program policy).run d').2 = d' ∧ (r.program policy).trace d' = []) ∨
      ∃ id, r.Mispatches id g ∧ ∀ d' : Desk τ,
        ((r.program policy).run d').1.fault? = some (match Store.fetch d'.store id with
          | .ok _ => .refused (.identifier g)
          | .error cause => addressFault .loadEntry id cause) ∧
        ((r.program policy).run d').2 = d' ∧
          (r.program policy).trace d' = [(d'.store, .fetch id)] := by
  rcases Request.rejects_or_mispatches h with ⟨reply, hprogram, hfault⟩ | ⟨id, hpatch⟩
  · left
    intro d'
    rw [hprogram]
    exact ⟨hfault, rfl, rfl⟩
  · right
    refine ⟨id, hpatch, fun d' => ?_⟩
    obtain ⟨f, hran, hok, herror⟩ := hpatch.ran policy d'
    rw [hran.run, hran.trace]
    refine ⟨?_, rfl, rfl⟩
    cases hfetch : Store.fetch d'.store id with
    | ok e => exact congrArg some (hok e hfetch)
    | error cause => exact congrArg some (herror cause hfetch)

def misplaceFirst : Request :=
  .update "00000000-0000-0000-0000-000000000001" { workspace := some "x" } .epoch

theorem request_misnamed_misplaceFirst :
    ((misplaceFirst.program {}).run
      ⟨({ entries := Shelf.empty.put (timerFrom .epoch) } : Memory), .after 1⟩).1.fault? =
        some (.refused (.identifier ⟨.workspace, "x"⟩)) ∧
    ((misplaceFirst.program {}).run ⟨({} : Database), .after 1⟩).1.fault? =
      some (.notFound .entry (.ofNat 1)) := by
  have hfault : ((misplaceFirst.program {}).run
      ⟨({ entries := Shelf.empty.put (timerFrom .epoch) } : Memory), .after 1⟩).1.fault? =
        some (.refused (.identifier ⟨.workspace, "x"⟩)) := by decide +kernel
  refine ⟨hfault, ?_⟩
  rcases @request_misnamed Memory Database _ _ {} misplaceFirst _ _ hfault with
    hall | ⟨id, hpatch, h⟩
  · exact absurd (hall ⟨{}, .after 1⟩).2.2 (by decide +kernel)
  · obtain ⟨text, patch, now, ⟨⟩, hid, -⟩ := hpatch
    have hfirst : Identifier.parse .entry "00000000-0000-0000-0000-000000000001" =
        .ok ⟨.ofNat 1⟩ := by decide +kernel
    obtain ⟨⟩ := hid.symm.trans hfirst
    exact (h ⟨{}, .after 1⟩).1

end Timesheet
