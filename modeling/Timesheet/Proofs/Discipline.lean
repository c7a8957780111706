import Timesheet.Proofs.Entry
import Timesheet.Proofs.Program

/-!
Disciplines: which calls a program may make, judged by what it learned from its draws and from the
answers it got. What the service calls is followed through once here; a discipline is heeded if it
allows the entries that requests make of their arguments and of the entry they loaded.
-/

namespace Timesheet

open Service

def Call.IsFree : Call → Prop
  | fetch _ => True
  | erase _ => True
  | running _ _ => True
  | recent _ _ => True
  | taskTotal _ => True
  | projectTotal _ => True
  | _ => False

/-- What is known after a draw and after an answer, which calls may be made then, and which answers
are counted on. -/
structure Discipline (κ : Type) where
  drew : κ → EntryId → κ
  heard : κ → (c : Call) → Except StoreFault c.Answer → κ
  Allows : κ → Call → Prop
  Trusts : (c : Call) → Except StoreFault c.Answer → Prop
  free {w : κ} {c : Call} : c.IsFree → Allows w c

namespace Program

variable {κ α β : Type}

/-- Every call of a program is allowed by what is known before it, as long as the answers are as
counted on. Its result and what is known at its end have the property `post`. -/
def Heeds (D : Discipline κ) (post : α → κ → Prop) : κ → Program α → Prop
  | w, done a => post a w
  | w, draw next => ∀ id, (next id).Heeds D post (D.drew w id)
  | w, call c next => D.Allows w c ∧ ∀ r, D.Trusts c r → (next r).Heeds D post (D.heard w c r)

variable {D : Discipline κ} {w : κ} {p : Program α}

theorem Heeds.bind {post : α → κ → Prop} {post' : β → κ → Prop} {f : α → Program β}
    (hp : p.Heeds D post w) (hf : ∀ a w, post a w → (f a).Heeds D post' w) :
    (p >>= f).Heeds D post' w := by
  change (p.bind f).Heeds D post' w
  induction p generalizing w with
  | done a => exact hf a w hp
  | draw next ih => exact fun id => ih id (hp id)
  | call c next ih => exact ⟨hp.1, fun r hr => ih r (hp.2 r hr)⟩

theorem Heeds.mono {post post' : α → κ → Prop} (hp : p.Heeds D post w)
    (h : ∀ a w, post a w → post' a w) : p.Heeds D post' w := by
  induction p generalizing w with
  | done a => exact h a w hp
  | draw next ih => exact fun id => ih id (hp id)
  | call c next ih => exact ⟨hp.1, fun r hr => ih r (hp.2 r hr)⟩

theorem Heeds.map {post : α → κ → Prop} (f : α → β) (hp : p.Heeds D post w) :
    (f <$> p).Heeds D (fun _ _ => True) w := by
  rw [map_eq_pure_bind]
  exact hp.bind fun _ _ _ => trivial

end Program

namespace Operation

variable {κ α β : Type} {D : Discipline κ} {w : κ}

def Heeds (D : Discipline κ) (post : α → κ → Prop) (w : κ) (op : Operation α) : Prop :=
  op.run.Heeds D (fun r w => ∀ a, r = .ok a → post a w) w

variable {post : α → κ → Prop} {post' : β → κ → Prop}

theorem heeds_pure {a : α} (h : post a w) : Heeds D post w (pure a) := by
  rintro b ⟨⟩
  exact h

theorem heeds_throw {e : ServiceFault} : Heeds D post w (throw e) := by
  rintro b ⟨⟩

theorem heeds_bind {op : Operation α} {f : α → Operation β} (hp : Heeds D post w op)
    (hf : ∀ a w, post a w → Heeds D post' w (f a)) : Heeds D post' w (op >>= f) := by
  change ((op >>= f).run).Heeds D _ w
  rw [ExceptT.run_bind]
  apply Program.Heeds.bind hp
  intro r w hr
  cases r with
  | ok a => exact hf a w (hr a rfl)
  | error e => rintro b ⟨⟩

theorem heeds_ite {c : Prop} [Decidable c] {op op' : Operation α} (h : Heeds D post w op)
    (h' : Heeds D post w op') : Heeds D post w (if c then op else op') := by
  split
  · exact h
  · exact h'

theorem heeds_checked_bind {r : Except Refusal α} {f : α → Operation β}
    (hf : ∀ a, r = .ok a → Heeds D post' w (f a)) : Heeds D post' w (checked r >>= f) := by
  change ((checked r >>= f).run).Heeds D _ w
  rw [ExceptT.run_bind]
  cases r with
  | ok a => exact hf a rfl
  | error e => rintro b ⟨⟩

theorem heeds_draw_bind {f : EntryId → Operation β}
    (hf : ∀ id, Heeds D post' (D.drew w id) (f id)) : Heeds D post' w (draw >>= f) :=
  fun id => hf id

theorem heeds_addressing {kind : IdentifierKind} (action : Action) (id : Identifier kind) (c : Call)
    (hc : D.Allows w c) :
    Heeds D (fun a w' => w' = D.heard w c (.ok a) ∧ D.Trusts c (.ok a)) w
      (addressing action id c) := by
  refine ⟨hc, fun r hr a ha => ?_⟩
  obtain rfl := mapError_eq_ok.mp ha
  exact ⟨rfl, hr⟩

theorem heeds_asking (action : Action) (c : Call) (hc : D.Allows w c) :
    Heeds D (fun a w' => w' = D.heard w c (.ok a) ∧ D.Trusts c (.ok a)) w (asking action c) := by
  refine ⟨hc, fun r hr a ha => ?_⟩
  obtain rfl := mapError_eq_ok.mp ha
  exact ⟨rfl, hr⟩

end Operation

namespace Discipline

variable {κ : Type} (D : Discipline κ)

structure Syncs (now : Instant) : Prop where
  tracked (w : κ) (id : TaskId) (n : Int) : D.Allows w (.writeTracked id n now.wholeSecond)
  estimate (w : κ) (id : ProjectId) (n : Int) : D.Trusts (.projectTotal id) (.ok n) →
    D.Allows w (.writeEstimate id (hoursOfSeconds n) now.wholeSecond)

def Saves (f : Entry → Except Refusal Entry) : Prop :=
  ∀ w id e e', D.Trusts (.fetch id) (.ok e) → f e = .ok e' →
    D.Allows (D.heard w (.fetch id) (.ok e)) (.replace e')

def Creates (input : NewEntry) (now : Instant) : Prop :=
  ∀ w id user details start duration e, input.start = some start → input.duration = some duration →
    Entry.finished id user details start duration now = .ok e →
      D.Allows (D.drew w id) (.insert e)

def Starts (policy : Policy) (now : Instant) : Prop :=
  ∀ w id user details, (policy.singleRunningTimer = true →
      ∃ w', w = D.heard w' (.running user Page.single) (.ok ([] : List Entry))) →
    D.Allows (D.drew w id) (.insert (Entry.running id user details now))

end Discipline

namespace Service

open Operation

variable {κ : Type} {D : Discipline κ} {w : κ} {now : Instant}

theorem heeds_load (id : EntryId) :
    Heeds D (fun e w' => w' = D.heard w (.fetch id) (.ok e) ∧ D.Trusts (.fetch id) (.ok e)) w
      (load id) :=
  heeds_addressing .loadEntry id (.fetch id) (D.free trivial)

theorem heeds_syncTask (id : TaskId) (hs : D.Syncs now) :
    Heeds D (fun _ _ => True) w (syncTask id now) := by
  apply heeds_bind (heeds_addressing _ _ (.taskTotal id) (D.free trivial))
  intro seconds w _
  apply heeds_bind (heeds_addressing _ _ (.writeTracked id seconds now.wholeSecond)
    (hs.tracked w id seconds))
  exact fun _ _ _ => heeds_pure trivial

theorem heeds_syncProject (id : ProjectId) (hs : D.Syncs now) :
    Heeds D (fun _ _ => True) w (syncProject id now) := by
  apply heeds_bind (heeds_addressing _ _ (.projectTotal id) (D.free trivial))
  rintro seconds w ⟨-, htotal⟩
  apply heeds_bind (heeds_addressing _ _
    (.writeEstimate id (hoursOfSeconds seconds) now.wholeSecond) (hs.estimate w id seconds htotal))
  exact fun _ _ _ => heeds_pure trivial

theorem heeds_syncTasks (hs : D.Syncs now) (ids : List TaskId) :
    Heeds D (fun _ _ => True) w (syncTasks now ids) := by
  induction ids generalizing w with
  | nil => exact heeds_pure trivial
  | cons id ids ih => exact heeds_bind (heeds_syncTask id hs) fun _ _ _ => ih

theorem heeds_syncProjects (hs : D.Syncs now) (ids : List ProjectId) :
    Heeds D (fun _ _ => True) w (syncProjects now ids) := by
  induction ids generalizing w with
  | nil => exact heeds_pure trivial
  | cons id ids ih => exact heeds_bind (heeds_syncProject id hs) fun _ _ _ => ih

theorem heeds_resync (hs : D.Syncs now) (entry : EntryId) (tasks : List TaskId)
    (projects : List ProjectId) : Heeds D (fun _ _ => True) w (resync entry tasks projects now) := by
  have hsync : Heeds D (fun _ _ => True) w (syncAll tasks projects now) :=
    heeds_bind (heeds_syncTasks hs _) fun _ _ _ => heeds_syncProjects hs _
  change (Except.mapError (ServiceFault.stale entry) <$>
    (syncAll tasks projects now).run).Heeds D _ w
  rw [map_eq_pure_bind]
  exact hsync.bind fun _ _ _ _ _ => trivial

theorem heeds_create {input : NewEntry} {owner : String} (hs : D.Syncs now)
    (hb : D.Creates input now) : Heeds D (fun _ _ => True) w (create input owner now) := by
  apply heeds_checked_bind
  intro user _
  apply heeds_checked_bind
  intro details _
  apply heeds_checked_bind
  intro start hstart
  apply heeds_checked_bind
  intro duration hduration
  apply heeds_draw_bind
  intro id
  apply heeds_checked_bind
  intro e he
  have hinsert := hb w _ _ _ _ _ _ (require_eq_ok.mp hstart) (require_eq_ok.mp hduration)
    (mapError_eq_ok.mp he)
  apply heeds_bind (heeds_asking _ (.insert e) hinsert)
  intro _ _ _
  apply heeds_bind (heeds_resync hs _ _ _)
  exact fun _ _ _ => heeds_pure trivial

theorem heeds_refuseSecondTimer (user : UserId) :
    Heeds D (fun _ w' => w' = D.heard w (.running user Page.single) (.ok ([] : List Entry))) w
      (refuseSecondTimer user) := by
  apply heeds_bind (heeds_asking _ (.running user Page.single) (D.free trivial))
  rintro entries w' ⟨hw, -⟩
  cases entries with
  | nil => exact heeds_pure hw
  | cons e es => exact heeds_throw

theorem heeds_start {policy : Policy} {fields : EntryFields} {owner : String}
    (hb : D.Starts policy now) :
    Heeds D (fun _ _ => True) w (start policy fields owner now) := by
  have hinsert (user : UserId) (details : EntryDetails) (w : κ)
      (hw : policy.singleRunningTimer = true →
        ∃ w', w = D.heard w' (.running user Page.single) (.ok ([] : List Entry))) :
      Heeds D (fun _ _ => True) w (do
        let entry := Entry.running (← draw) user details now
        asking .insertEntry (.insert entry)
        return entry) := by
    apply heeds_draw_bind
    intro id
    apply heeds_bind (heeds_asking _ (.insert (Entry.running id user details now))
      (hb w id user details hw))
    exact fun _ _ _ => heeds_pure trivial
  apply heeds_checked_bind
  intro user _
  apply heeds_checked_bind
  intro details _
  dsimp only
  split
  · apply heeds_bind (heeds_refuseSecondTimer user)
    exact fun _ w' hw => hinsert user details w' fun _ => ⟨w, hw⟩
  · exact hinsert user details w fun h => absurd h ‹_›

theorem heeds_load_save {text : String} {f : Entry → Except Refusal Entry} (hb : D.Saves f)
    {cont : Entry → Entry → Operation Entry}
    (hcont : ∀ e e' w, Heeds D (fun _ _ => True) w (cont e e')) :
    Heeds D (fun _ _ => True) w (do
      let e ← load (← identified (Identifier.parse .entry text))
      let e' ← checked (f e)
      save e'
      cont e e') := by
  apply heeds_checked_bind
  intro id _
  apply heeds_bind (heeds_load id)
  rintro e _ ⟨rfl, htrusts⟩
  apply heeds_checked_bind
  intro e' he'
  apply heeds_bind (heeds_addressing .updateEntry e'.id (.replace e') (hb w id e e' htrusts he'))
  exact fun _ w _ => hcont e e' w

theorem heeds_stop {id : String} (hs : D.Syncs now)
    (hb : D.Saves fun e => (e.stopAt now).mapError .invalid) :
    Heeds D (fun _ _ => True) w (stop id now) := by
  apply heeds_load_save hb
  intro e e' w
  apply heeds_bind (heeds_resync hs _ _ _)
  exact fun _ _ _ => heeds_pure trivial

theorem heeds_update {policy : Policy} {id : String} {patch : Patch} (hs : D.Syncs now)
    (hb : D.Saves fun e => e.applyPatch patch now) :
    Heeds D (fun _ _ => True) w (update policy id patch now) := by
  apply heeds_load_save hb
  intro e e' w
  split
  · apply heeds_bind (heeds_resync hs _ _ _)
    exact fun _ _ _ => heeds_pure trivial
  · exact heeds_pure trivial

theorem heeds_updateTags {id : String} {tags : List String} {mode : TagMode}
    (hb : D.Saves fun e => .ok (e.editTags tags mode now)) :
    Heeds D (fun _ _ => True) w (updateTags id tags mode now) :=
  heeds_load_save hb fun _ _ _ => heeds_pure trivial

theorem heeds_delete {policy : Policy} {id : String} (hs : D.Syncs now) :
    Heeds D (fun _ _ => True) w (delete policy id now) := by
  apply heeds_checked_bind
  intro id _
  apply heeds_bind (heeds_load id)
  intro e w _
  apply heeds_bind (heeds_addressing _ _ (.erase id) (D.free trivial))
  intro _ _ _
  split
  · apply heeds_bind (heeds_resync hs _ _ _)
    exact fun _ _ _ => heeds_pure trivial
  · exact heeds_pure trivial

theorem heeds_forEachId {apply : String → Operation Entry}
    (h : ∀ id w, Heeds D (fun _ _ => True) w (apply id)) (ids : List String) :
    (forEachId apply ids).Heeds D (fun _ _ => True) w := by
  induction ids generalizing w with
  | nil => trivial
  | cons id ids ih =>
    apply Program.Heeds.bind (h id w)
    intro r w _
    apply Program.Heeds.bind ih
    exact fun _ _ _ => trivial

theorem heeds_get {id : String} : Heeds D (fun _ _ => True) w (get id) := by
  apply heeds_checked_bind
  intro id _
  exact (heeds_load id).mono fun _ _ _ _ _ => trivial

theorem heeds_running {owner : String} {page : Page} :
    Heeds D (fun _ _ => True) w (running owner page) := by
  apply heeds_checked_bind
  intro user _
  apply Program.Heeds.mono (heeds_asking _ (.running user page) (D.free trivial))
  exact fun _ _ _ _ _ => trivial

theorem heeds_range {owner : String} {page : Page} {first last : Instant}
    (hb : ∀ w user, D.Allows w (.createdBetween user page first.clampStorable last.clampStorable)) :
    Heeds D (fun _ _ => True) w (range owner page first last) := by
  apply heeds_checked_bind
  intro user _
  apply heeds_ite
  · exact heeds_pure trivial
  · apply Program.Heeds.mono (heeds_asking _ (.createdBetween user page _ _) (hb w user))
    exact fun _ _ _ _ _ => trivial

theorem heeds_dashboard {owner : String}
    (hb : ∀ w user, D.Allows w (.stoppedBetween user (dashboardStart now) now 5)) :
    Heeds D (fun _ _ => True) w (dashboard owner now) := by
  apply heeds_checked_bind
  intro user _
  apply heeds_bind (heeds_asking _ (.stoppedBetween user (dashboardStart now) now 5) (hb w user))
  intro _ _ _
  apply heeds_bind (heeds_asking _ (.recent user 20) (D.free trivial))
  exact fun _ _ _ => heeds_pure trivial

end Service

def Request.Permitted {κ : Type} (D : Discipline κ) (policy : Policy) : Request → Prop
  | create input _ now => D.Syncs now ∧ D.Creates input now
  | start _ _ now => D.Starts policy now
  | stop _ now => D.Syncs now ∧ D.Saves fun e => (e.stopAt now).mapError .invalid
  | update _ patch now => D.Syncs now ∧ D.Saves fun e => e.applyPatch patch now
  | updateBatch _ patch now => D.Syncs now ∧ D.Saves fun e => e.applyPatch patch now
  | updateTags _ tags mode now => D.Saves fun e => .ok (e.editTags tags mode now)
  | updateTagsBatch _ tags mode now => D.Saves fun e => .ok (e.editTags tags mode now)
  | delete _ now => D.Syncs now
  | syncTaskTime _ now => D.Syncs now
  | syncProjectTime _ now => D.Syncs now
  | range _ page first last =>
    ∀ w user, D.Allows w (.createdBetween user page first.clampStorable last.clampStorable)
  | dashboard _ now => ∀ w user, D.Allows w (.stoppedBetween user (dashboardStart now) now 5)
  | get _ => True
  | running _ _ => True

theorem Request.heeds {κ : Type} {D : Discipline κ} {policy : Policy} {r : Request}
    (h : r.Permitted D policy) (w : κ) : (r.program policy).Heeds D (fun _ _ => True) w := by
  cases r with
  | create input owner now => exact (heeds_create h.1 h.2).map _
  | start fields owner now => exact (heeds_start h).map _
  | stop id now => exact (heeds_stop h.1 h.2).map _
  | update id patch now => exact (heeds_update h.1 h.2).map _
  | delete id now => exact (heeds_delete h).map _
  | updateTags id tags mode now => exact (heeds_updateTags h).map _
  | updateBatch ids patch now => exact (heeds_forEachId (fun _ _ => heeds_update h.1 h.2) _).map _
  | updateTagsBatch ids tags mode now =>
    exact (heeds_forEachId (fun _ _ => heeds_updateTags h) _).map _
  | syncTaskTime id now =>
    exact (Operation.heeds_checked_bind fun _ _ => heeds_syncTask _ h).map _
  | syncProjectTime id now =>
    exact (Operation.heeds_checked_bind fun _ _ => heeds_syncProject _ h).map _
  | get id => exact heeds_get.map _
  | running owner page => exact heeds_running.map _
  | range owner page first last => exact (heeds_range h).map _
  | dashboard owner now => exact (heeds_dashboard h).map _

theorem session_heeds {κ : Type} {D : Discipline κ} {policy : Policy} {rs : List Request}
    (h : ∀ r ∈ rs, r.Permitted D policy) (w : κ) :
    (session policy rs).Heeds D (fun _ _ => True) w := by
  induction rs generalizing w with
  | nil => trivial
  | cons r rs ih =>
    apply (r.heeds (h r List.mem_cons_self) w).bind
    intro reply w _
    apply (ih (fun r hr => h r (List.mem_cons_of_mem _ hr)) w).bind
    exact fun _ _ _ => trivial

end Timesheet
