import Timesheet.Proofs.Handling

namespace Timesheet

open Service

variable {α σ : Type} [Store σ]

def NewEntry.entry (input : NewEntry) (id : EntryId) (user : UserId) (now : Instant) :
    Except Refusal Entry := do
  let details ← input.fields.validate
  let start ← require .start input.start
  let duration ← require .duration input.duration
  (Entry.finished id user details start duration now).mapError .invalid

namespace Request

def address? : Request → Option String
  | stop id _ => some id
  | update id _ _ => some id
  | delete id _ => some id
  | updateTags id _ _ _ => some id
  | _ => none

def edit? : Request → Option (String × (Entry → Except Refusal Entry))
  | stop id now => some (id, fun e => (e.stopAt now).mapError .invalid)
  | update id patch now => some (id, fun e => e.applyPatch patch now)
  | updateTags id tags mode now => some (id, fun e => .ok (e.editTags tags mode now))
  | _ => none

def owner? : Request → Option String
  | create _ owner _ => some owner
  | start _ owner _ => some owner
  | _ => none

/-- The totals of the entry's task and project follow the request. -/
def Recounts (policy : Policy) : Request → Prop
  | create _ _ _ => True
  | stop _ _ => True
  | update _ _ _ => policy.resyncOnEdit = true
  | delete _ _ => policy.resyncOnEdit = true
  | _ => False

/-- A request makes the entry `new` of the entry `old`, where one of them may be missing. -/
inductive Makes (policy : Policy) (d : Desk σ) : Request → Option Entry → Option Entry → Prop
  | create {input : NewEntry} {owner : String} {now : Instant} {user : UserId} {e : Entry}
      (howner : Identifier.parse .user owner = .ok user)
      (h : input.entry d.ids.next user now = .ok e) :
      Makes policy d (.create input owner now) none (some e)
  | start {fields : EntryFields} {owner : String} {now : Instant} {user : UserId}
      {details : EntryDetails} (howner : Identifier.parse .user owner = .ok user)
      (hfields : fields.validate = .ok details)
      (hfree : policy.singleRunningTimer = true →
        Store.running d.store user Page.single = .ok []) :
      Makes policy d (.start fields owner now) none
        (some (Entry.running d.ids.next user details now))
  | edit {r : Request} {text : String} {f : Entry → Except Refusal Entry} {id : EntryId}
      {e e' : Entry} (hr : r.edit? = some (text, f)) (hid : Identifier.parse .entry text = .ok id)
      (hfetch : Store.fetch d.store id = .ok e) (h : f e = .ok e') :
      Makes policy d r (some e) (some e')
  | delete {text : String} {now : Instant} {id : EntryId} {e : Entry}
      (hid : Identifier.parse .entry text = .ok id) (hfetch : Store.fetch d.store id = .ok e) :
      Makes policy d (.delete text now) (some e) none

/-- A request fails before it has changed anything. -/
inductive Fails (policy : Policy) (d : Desk σ) : Request → ServiceFault → Prop
  | unnamed {r : Request} {text : String} {g : InvalidIdentifier} (hr : r.address? = some text)
      (hid : Identifier.parse .entry text = .error g) : Fails policy d r (.refused (.identifier g))
  | unloaded {r : Request} {text : String} {id : EntryId} {g : StoreFault}
      (hr : r.address? = some text) (hid : Identifier.parse .entry text = .ok id)
      (hfetch : Store.fetch d.store id = .error g) : Fails policy d r (addressFault .loadEntry id g)
  | unedited {r : Request} {text : String} {f : Entry → Except Refusal Entry} {id : EntryId}
      {e : Entry} {g : Refusal} (hr : r.edit? = some (text, f))
      (hid : Identifier.parse .entry text = .ok id) (hfetch : Store.fetch d.store id = .ok e)
      (h : f e = .error g) : Fails policy d r (.refused g)
  | unsaved {r : Request} {e e' : Entry} {g : StoreFault}
      (hmade : r.Makes policy d (some e) (some e')) (h : Store.replace d.store e' = .error g) :
      Fails policy d r (addressFault .updateEntry e'.id g)
  | unerased {text : String} {now : Instant} {id : EntryId} {e : Entry} {g : StoreFault}
      (hid : Identifier.parse .entry text = .ok id) (hfetch : Store.fetch d.store id = .ok e)
      (h : Store.erase d.store id = .error g) :
      Fails policy d (.delete text now) (addressFault .deleteEntry id g)
  | unowned {r : Request} {owner : String} {g : InvalidIdentifier} (hr : r.owner? = some owner)
      (howner : Identifier.parse .user owner = .error g) :
      Fails policy d r (.refused (.identifier g))
  | uncreated {input : NewEntry} {owner : String} {now : Instant} {user : UserId} {g : Refusal}
      (howner : Identifier.parse .user owner = .ok user)
      (h : input.entry d.ids.next user now = .error g) :
      Fails policy d (.create input owner now) (.refused g)
  | unstarted {fields : EntryFields} {owner : String} {now : Instant} {user : UserId} {g : Refusal}
      (howner : Identifier.parse .user owner = .ok user) (hfields : fields.validate = .error g) :
      Fails policy d (.start fields owner now) (.refused g)
  | unlisted {fields : EntryFields} {owner : String} {now : Instant} {user : UserId}
      {details : EntryDetails} {g : StoreFault} (hpolicy : policy.singleRunningTimer = true)
      (howner : Identifier.parse .user owner = .ok user) (hfields : fields.validate = .ok details)
      (h : Store.running d.store user Page.single = .error g) :
      Fails policy d (.start fields owner now) (.store .listRunning g)
  | busy {fields : EntryFields} {owner : String} {now : Instant} {user : UserId}
      {details : EntryDetails} {e : Entry} {es : List Entry}
      (hpolicy : policy.singleRunningTimer = true)
      (howner : Identifier.parse .user owner = .ok user) (hfields : fields.validate = .ok details)
      (h : Store.running d.store user Page.single = .ok (e :: es)) :
      Fails policy d (.start fields owner now) (.alreadyRunning user e.id)
  | uninserted {r : Request} {e : Entry} {g : StoreFault}
      (hmade : r.Makes policy d none (some e)) (h : Store.insert d.store e = .error g) :
      Fails policy d r (.store .insertEntry g)

variable {policy : Policy} {now : Instant} {d : Desk σ} {r : Request}

theorem Fails.not_isStale {f : ServiceFault} (h : r.Fails policy d f) : ¬f.IsStale := by
  cases h with
  | unnamed hr hid => exact not_isStale_refused
  | unloaded hr hid hfetch => exact isStale_addressFault
  | unedited hr hid hfetch h => exact not_isStale_refused
  | unsaved hmade h => exact isStale_addressFault
  | unerased hid hfetch h => exact isStale_addressFault
  | unowned hr howner => exact not_isStale_refused
  | uncreated howner h => exact not_isStale_refused
  | unstarted howner hfields => exact not_isStale_refused
  | unlisted hpolicy howner hfields h => rintro ⟨id, cause, ⟨⟩⟩
  | busy hpolicy howner hfields h => rintro ⟨id, cause, ⟨⟩⟩
  | uninserted hmade h => rintro ⟨id, cause, ⟨⟩⟩

theorem Makes.unique {old new old' new' : Option Entry} (h : r.Makes policy d old new)
    (h' : r.Makes policy d old' new') : old = old' ∧ new = new' := by
  have same {α ε : Type} {x : Except ε α} {a b : α} (ha : x = .ok a) (hb : x = .ok b) : a = b :=
    Except.ok.inj (ha.symm.trans hb)
  cases h with
  | create howner h =>
    cases h' with
    | create howner' h' =>
      obtain rfl := same howner howner'
      exact ⟨rfl, congrArg some (same h h')⟩
    | edit hr => cases hr
  | start howner hfields hfree =>
    cases h' with
    | start howner' hfields' hfree' =>
      obtain rfl := same howner howner'
      obtain rfl := same hfields hfields'
      exact ⟨rfl, rfl⟩
    | edit hr => cases hr
  | edit hr hid hfetch h =>
    cases h' with
    | edit hr' hid' hfetch' h' =>
      obtain ⟨⟩ := hr.symm.trans hr'
      obtain rfl := same hid hid'
      obtain rfl := same hfetch hfetch'
      exact ⟨rfl, congrArg some (same h h')⟩
    | _ => cases hr
  | delete hid hfetch =>
    cases h' with
    | delete hid' hfetch' =>
      obtain rfl := same hid hid'
      obtain rfl := same hfetch hfetch'
      exact ⟨rfl, rfl⟩
    | edit hr => cases hr

variable {text : String} {f : Entry → Except Refusal Entry} {e e' : Entry}

theorem address?_of_edit? (hr : r.edit? = some (text, f)) : r.address? = some text := by
  cases r <;> cases hr <;> rfl

theorem id_of_edit? (hr : r.edit? = some (text, f)) (h : f e = .ok e') : e'.id = e.id := by
  cases r <;> cases hr
  · obtain ⟨-, -, rfl⟩ := Entry.stopAt_eq_ok.mp (mapError_eq_ok.mp h)
    rfl
  · exact (Entry.applyPatch_eq_ok h).2.1
  · obtain ⟨⟩ := h
    rfl

theorem writtenAt_of_edit? (hr : r.edit? = some (text, f)) (hnow : ∀ i ∈ r.clock?, i = now)
    (h : f e = .ok e') : e'.WrittenAt now (some e) := by
  cases r <;> cases hr <;> obtain rfl := hnow _ rfl
  · exact Entry.stopAt_writtenAt (mapError_eq_ok.mp h)
  · exact Entry.applyPatch_writtenAt h
  · obtain ⟨⟩ := h
    exact e.editTags_writtenAt _ _ _

end Request

theorem NewEntry.entry_eq_ok {input : NewEntry} {id : EntryId} {user : UserId} {now : Instant}
    {e : Entry} : input.entry id user now = .ok e ↔ ∃ details start duration,
      input.fields.validate = .ok details ∧ input.start = some start ∧
        input.duration = some duration ∧
        Entry.finished id user details start duration now = .ok e := by
  unfold entry
  simp only [bind_eq_ok, require_eq_ok, mapError_eq_ok]
  constructor
  · rintro ⟨details, hdetails, start, hstart, duration, hduration, h⟩
    exact ⟨details, start, duration, hdetails, hstart, hduration, h⟩
  · rintro ⟨details, start, duration, hdetails, hstart, hduration, h⟩
    exact ⟨details, hdetails, start, hstart, duration, hduration, h⟩

/-- What an operation on an entry comes to, as its request has it. -/
inductive Performed (policy : Policy) (now : Instant) (d : Desk σ) (r : Request)
    (p : Program (Except ServiceFault Entry)) : Prop
  | failed {f : ServiceFault} {d' : Desk σ} {t : List (σ × Call)} (hf : r.Fails policy d f)
      (hran : Ran d p (.error f) d' t) (hstore : d'.store = d.store) (hquiet : recorded t = [])
  | kept {old new : Option Entry} {e : Entry} {d' : Desk σ} {q t : List (σ × Call)}
      (hmade : r.Makes policy d old new) (he : new.or old = some e)
      (h : Edited now d old new d'.store t) (hsame : policy.resyncOnEdit = true → Unmoved old new)
      (hquiet : recorded q = []) (hran : Ran d p (.ok e) d' (q ++ t))
  | synced {old new : Option Entry} {e : Entry} {a : Except ServiceFault Entry} {s : σ}
      {d' : Desk σ} {tasks ts : List TaskId} {projects ps : List ProjectId} {t u : List (σ × Call)}
      (hmade : r.Makes policy d old new) (he : new.or old = some e)
      (h : Edited now d old new s t)
      (htasks : ∀ id, id ∈ tasks ↔ ∃ e, (e ∈ old ∨ e ∈ new) ∧ e.task = id)
      (hprojects : ∀ id, id ∈ projects ↔ ∃ e, (e ∈ old ∨ e ∈ new) ∧ e.project = id)
      (hsync : Synced now s ts ps d'.store u)
      (ha : (a = .ok e ∧ ts = targets tasks ∧ ps = targets projects) ∨
        ∃ cause, a = .error (.stale e.id cause))
      (hran : Ran d p a d' (t ++ u)) (hrecounts : r.Recounts policy) (hts : ts ⊆ targets tasks)
      (hps : ps ⊆ targets projects)

section Performed

variable {policy : Policy} {now : Instant} {d : Desk σ} {r : Request}

theorem Performed.handled {p : Program (Except ServiceFault Entry)}
    (h : Performed policy now d r p) : Handled policy now d p := by
  cases h with
  | failed hf hran hstore hquiet => exact .failed hran hstore hf.not_isStale hquiet
  | kept hmade he h hsame hquiet hran => exact .kept h hsame hquiet hran
  | synced hmade he h htasks hprojects hsync ha hran =>
    exact .synced h htasks hprojects hsync ha (Option.or_eq_some_iff.mp he |>.symm.imp And.right id)
      hran

theorem performed_checked_bind {x : Except Refusal α} {f : α → Operation Entry}
    (herror : ∀ g, x = .error g → r.Fails policy d (.refused g))
    (hok : ∀ a, x = .ok a → Performed policy now d r (f a).run) :
    Performed policy now d r (checked x >>= f).run := by
  rcases Operation.ran_checked d x with ⟨g, hx, hran⟩ | ⟨a, rfl, -⟩
  · exact .failed (herror g hx) (Operation.ran_bind_error hran) rfl rfl
  · have hbind : (checked (.ok a) >>= f).run = (f a).run := rfl
    rw [hbind]
    exact hok a rfl

theorem performed_identified_bind {kind : IdentifierKind}
    {x : Except InvalidIdentifier (Identifier kind)} {f : Identifier kind → Operation Entry}
    (herror : ∀ g, x = .error g → r.Fails policy d (.refused (.identifier g)))
    (hok : ∀ id, x = .ok id → Performed policy now d r (f id).run) :
    Performed policy now d r (identified x >>= f).run := by
  apply performed_checked_bind
  · intro g hg
    cases x with
    | error e =>
      obtain ⟨⟩ := hg
      exact herror e rfl
    | ok id => cases hg
  · exact fun id hid => hok id (mapError_eq_ok.mp hid)

theorem performed_load_bind {text : String} {id : EntryId} {f : Entry → Operation Entry}
    (hr : r.address? = some text) (hid : Identifier.parse .entry text = .ok id)
    (h : ∀ e, Store.fetch d.store id = .ok e →
      (∃ g t, r.Fails policy d g ∧ recorded t = [] ∧ Ran d (f e).run (.error g) d t) ∨
        Performed policy now d r (load id >>= f).run) :
    Performed policy now d r (load id >>= f).run := by
  have hran := Operation.ran_addressing d .loadEntry id (.fetch id)
  cases hfetch : Store.fetch d.store id with
  | error e =>
    simp only [Call.perform, hfetch, Except.mapError] at hran
    refine .failed (.unloaded hr hid hfetch) (Operation.ran_bind_error hran) rfl ?_
    simp [recorded, Call.recorded]
  | ok e =>
    simp only [Call.perform, hfetch, Except.mapError] at hran
    rcases h e hfetch with ⟨g, t, hf, hquiet, hg⟩ | h
    · refine .failed hf (Operation.ran_bind_ok hran hg) rfl ?_
      simpa [recorded, Call.recorded] using hquiet
    · exact h

theorem performed_of_resync {p : Program (Except ServiceFault Entry)} {old new : Option Entry}
    {e : Entry} {s : σ} (ids : IdSource) (tasks : List TaskId) (projects : List ProjectId)
    {t : List (σ × Call)} (hrecounts : r.Recounts policy) (hmade : r.Makes policy d old new)
    (he : new.or old = some e) (h : Edited now d old new s t)
    (htasks : ∀ id, id ∈ tasks ↔ ∃ e, (e ∈ old ∨ e ∈ new) ∧ e.task = id)
    (hprojects : ∀ id, id ∈ projects ↔ ∃ e, (e ∈ old ∨ e ∈ new) ∧ e.project = id)
    (hran : ∀ a d' u, Ran ⟨s, ids⟩ (resync e.id tasks projects now >>= fun _ => pure e).run a d' u →
      Ran d p a d' (t ++ u)) : Performed policy now d r p := by
  obtain ⟨a, s', ts, ps, u, hresync, hsync, hts, hps, ha⟩ :=
    ran_resync e.id tasks projects now ⟨s, ids⟩
  rcases ha with ⟨rfl, hall⟩ | ⟨cause, rfl⟩
  · have htail := hran _ _ _ (Operation.ran_bind_ok hresync (Operation.ran_ok _ e))
    rw [List.append_nil] at htail
    exact .synced hmade he h htasks hprojects hsync (.inl ⟨rfl, hall⟩) htail hrecounts hts hps
  · have htail := hran _ _ _ (Operation.ran_bind_error hresync)
    exact .synced hmade he h htasks hprojects hsync (.inr ⟨cause, rfl⟩) htail hrecounts hts hps

def Finishes (policy : Policy) (now : Instant) (r : Request) (e e' : Entry)
    (op : Operation Entry) : Prop :=
  (op = pure e' ∧ (policy.resyncOnEdit = true → Unmoved (some e) (some e'))) ∨
    r.Recounts policy ∧
      ∃ tasks projects, op = (resync e'.id tasks projects now >>= fun _ => pure e') ∧
      (∀ id, id ∈ tasks ↔ id = e.task ∨ id = e'.task) ∧
        ∀ id, id ∈ projects ↔ id = e.project ∨ id = e'.project

theorem performed_edit {text : String} {f : Entry → Except Refusal Entry}
    {k : Entry → Entry → Operation Entry} (hr : r.edit? = some (text, f))
    (hnow : ∀ i ∈ r.clock?, i = now)
    (hk : ∀ e e', f e = .ok e' → Finishes policy now r e e' (k e e')) :
    Performed policy now d r (identified (Identifier.parse .entry text) >>= fun id =>
      load id >>= fun e => checked (f e) >>= fun e' => save e' >>= fun _ => k e e').run := by
  have haddress := Request.address?_of_edit? hr
  apply performed_identified_bind (fun g hg => .unnamed haddress hg)
  intro id hid
  apply performed_load_bind haddress hid
  intro e hfetch
  have hload := Operation.ran_addressing d .loadEntry id (.fetch id)
  simp only [Call.perform, hfetch, Except.mapError] at hload
  -- Only the save writes, so whatever fails up to it leaves nothing behind.
  rcases Operation.ran_checked d (f e) with ⟨g, hg, hcheck⟩ | ⟨e', hf, hcheck⟩
  · exact .inl ⟨_, _, .unedited hr hid hfetch hg, rfl, Operation.ran_bind_error hcheck⟩
  · have hmade : r.Makes policy d (some e) (some e') := .edit hr hid hfetch hf
    have hsave := Operation.ran_addressing d .updateEntry e'.id (.replace e')
    cases hreplace : Store.replace d.store e' with
    | error g =>
      simp only [Call.perform, hreplace, changed, Except.mapError] at hsave
      refine .inl ⟨_, _, .unsaved hmade hreplace, ?_,
        Operation.ran_bind_ok hcheck (Operation.ran_bind_error hsave)⟩
      simp [recorded, Call.recorded, Call.perform, hreplace, changed]
    | ok s =>
      right
      simp only [Call.perform, hreplace, changed, Except.mapError] at hsave
      have hedited := Edited.replace hfetch (Request.id_of_edit? hr hf)
        (Request.writtenAt_of_edit? hr hnow hf) hreplace
      have hran {a : Except ServiceFault Entry} {d' : Desk σ} {u : List (σ × Call)}
          (h : Ran ⟨s, d.ids⟩ (k e e').run a d' u) : Ran d (load id >>= fun e => checked (f e) >>=
            fun e' => save e' >>= fun _ => k e e').run a d'
              ([(d.store, .fetch id), (d.store, .replace e')] ++ u) := by
        change Ran d _ a d' ([(d.store, .fetch id)] ++ ([] ++ ([(d.store, .replace e')] ++ u)))
        exact Operation.ran_bind_ok hload (Operation.ran_bind_ok hcheck
          (Operation.ran_bind_ok hsave h))
      rcases hk e e' hf with
        ⟨hpure, hsame⟩ | ⟨hrecounts, tasks, projects, hresync, htasks, hprojects⟩
      · rw [hpure] at hran
        exact .kept hmade rfl hedited hsame (q := []) rfl (hran (Operation.ran_ok ⟨s, d.ids⟩ e'))
      · rw [hresync] at hran
        refine performed_of_resync _ _ _ hrecounts hmade rfl hedited ?_ ?_ fun a d' u h => hran h
        · intro id
          rw [htasks]
          simp [or_and_right, exists_or, eq_comm]
        · intro id
          rw [hprojects]
          simp [or_and_right, exists_or, eq_comm]

theorem performed_stop (id : String) : Performed policy now d (.stop id now) (stop id now).run := by
  refine performed_edit (f := fun e => (e.stopAt now).mapError .invalid)
    (k := fun _ e' => resyncEntry e' now >>= fun _ => pure e') rfl ?_ ?_
  · exact fun i hi => (Option.some.inj hi).symm
  · intro e e' h
    obtain ⟨-, -, rfl⟩ := Entry.stopAt_eq_ok.mp (mapError_eq_ok.mp h)
    exact .inr ⟨trivial, _, _, rfl, by simp, by simp⟩

theorem performed_update (id : String) (patch : Patch) :
    Performed policy now d (.update id patch now) (update policy id patch now).run := by
  refine performed_edit (f := fun e => e.applyPatch patch now) (k := fun e e' =>
    if policy.resyncOnEdit then
      resync e.id [e.task, e'.task] [e.project, e'.project] now >>= fun _ => pure e'
    else pure e') rfl ?_ ?_
  · exact fun i hi => (Option.some.inj hi).symm
  · intro e e' h
    split
    · rename_i hsync
      rw [← (Entry.applyPatch_eq_ok h).2.1]
      exact .inr ⟨hsync, _, _, rfl, by simp, by simp⟩
    · exact .inl ⟨rfl, fun h => absurd h ‹_›⟩

theorem performed_updateTags (id : String) (tags : List String) (mode : TagMode) :
    Performed policy now d (.updateTags id tags mode now) (updateTags id tags mode now).run := by
  refine performed_edit (f := fun e => .ok (e.editTags tags mode now)) (k := fun _ e' => pure e')
    rfl ?_ ?_
  · exact fun i hi => (Option.some.inj hi).symm
  · rintro e e' ⟨⟩
    exact .inl ⟨rfl, fun _ => .inr ⟨e, _, rfl, rfl, rfl, rfl, rfl⟩⟩

theorem performed_delete (text : String) :
    Performed policy now d (.delete text now) (delete policy text now).run := by
  apply performed_identified_bind (fun g hg => .unnamed rfl hg)
  intro id hid
  apply performed_load_bind rfl hid
  intro e hfetch
  have hload := Operation.ran_addressing d .loadEntry id (.fetch id)
  simp only [Call.perform, hfetch, Except.mapError] at hload
  have herase := Operation.ran_addressing d .deleteEntry id (.erase id)
  cases h : Store.erase d.store id with
  | error g =>
    simp only [Call.perform, h, changed, Except.mapError] at herase
    refine .inl ⟨_, _, .unerased hid hfetch h, ?_, Operation.ran_bind_error herase⟩
    simp [recorded, Call.recorded]
  | ok s =>
    right
    simp only [Call.perform, h, changed, Except.mapError] at herase
    have hmade : (Request.delete text now).Makes policy d (some e) none := .delete hid hfetch
    have hedited : Edited now d (some e) none s [(d.store, .fetch id), (d.store, .erase id)] :=
      .erase hfetch h
    by_cases hsync : policy.resyncOnEdit = true
    · refine performed_of_resync d.ids [e.task] [e.project] hsync hmade rfl hedited ?_ ?_ ?_
      · simp [eq_comm]
      · simp [eq_comm]
      · intro a d' u htail
        change Ran d _ a d' ([(d.store, .fetch id)] ++ ([(d.store, .erase id)] ++ u))
        refine Operation.ran_bind_ok hload (Operation.ran_bind_ok herase ?_)
        rw [if_pos hsync]
        exact htail
    · have hedited' : Edited now d (some e) none ({ d with store := s } : Desk σ).store _ := hedited
      refine .kept hmade rfl hedited' (fun h => absurd h hsync) (q := []) rfl ?_
      change Ran d _ _ _ ([(d.store, .fetch id)] ++ ([(d.store, .erase id)] ++ []))
      refine Operation.ran_bind_ok hload (Operation.ran_bind_ok herase ?_)
      rw [if_neg hsync]
      exact Operation.ran_ok _ e

theorem ran_insert {e : Entry} (hmade : r.Makes policy d none (some e)) (hid : e.id = d.ids.next)
    (hwritten : e.WrittenAt now none) :
    (∃ g t, r.Fails policy d g ∧ recorded t = [] ∧
      Ran { d with ids := d.ids.advance } (asking .insertEntry (.insert e)).run (.error g)
        { d with ids := d.ids.advance } t) ∨
    ∃ s, Edited now d none (some e) s [(d.store, .insert e)] ∧
      Ran { d with ids := d.ids.advance } (asking .insertEntry (.insert e)).run (.ok ())
        ⟨s, d.ids.advance⟩ [(d.store, .insert e)] := by
  have hinsert := Operation.ran_asking { d with ids := d.ids.advance } .insertEntry (.insert e)
  cases h : Store.insert d.store e with
  | error g =>
    simp only [Call.perform, h, changed, Except.mapError] at hinsert
    refine .inl ⟨_, _, .uninserted hmade h, ?_, hinsert⟩
    simp [recorded, Call.perform, h, changed, Call.recorded]
  | ok s =>
    simp only [Call.perform, h, changed, Except.mapError] at hinsert
    exact .inr ⟨s, .insert hid hwritten h, hinsert⟩

theorem performed_create (input : NewEntry) (owner : String) :
    Performed policy now d (.create input owner now) (create input owner now).run := by
  apply performed_identified_bind (fun g hg => .unowned rfl hg)
  intro user howner
  have hrefused {g : Refusal} (h : input.entry d.ids.next user now = .error g) :
      (Request.create input owner now).Fails policy d (.refused g) := .uncreated howner h
  apply performed_checked_bind
  · intro g hg
    exact hrefused (by rw [NewEntry.entry, hg]; rfl)
  intro details hdetails
  apply performed_checked_bind
  · intro g hg
    exact hrefused (by rw [NewEntry.entry, hdetails, hg]; rfl)
  intro start hstart
  apply performed_checked_bind
  · intro g hg
    exact hrefused (by rw [NewEntry.entry, hdetails, hstart, hg]; rfl)
  intro duration hduration
  have hentry : input.entry d.ids.next user now =
      (Entry.finished d.ids.next user details start duration now).mapError .invalid := by
    rw [NewEntry.entry, hdetails, hstart, hduration]
    rfl
  have hdraw := Operation.ran_draw d
  rcases Operation.ran_checked { d with ids := d.ids.advance } ((Entry.finished d.ids.next user
    details start duration now).mapError .invalid) with ⟨g, hg, hcheck⟩ | ⟨e, hf, hcheck⟩
  · exact .failed (hrefused (hentry.trans hg))
      (Operation.ran_bind_ok hdraw (Operation.ran_bind_error hcheck)) rfl rfl
  · have hfinished := mapError_eq_ok.mp hf
    have hid : e.id = d.ids.next := by
      obtain ⟨-, -, stop, -, -, rfl⟩ := Entry.finished_eq_ok.mp hfinished
      rfl
    have hmade : (Request.create input owner now).Makes policy d none (some e) :=
      .create howner (hentry.trans hf)
    rcases ran_insert hmade hid (Entry.finished_writtenAt hfinished) with
      ⟨g, t, hfails, hquiet, hran⟩ | ⟨s, hedited, hran⟩
    · exact .failed hfails (Operation.ran_bind_ok hdraw (Operation.ran_bind_ok hcheck
        (Operation.ran_bind_error hran))) rfl hquiet
    · refine performed_of_resync d.ids.advance [e.task] [e.project] trivial hmade rfl hedited
        ?_ ?_ ?_
      · simp [eq_comm]
      · simp [eq_comm]
      · intro a d' u htail
        change Ran d _ a d' ([] ++ ([] ++ ([(d.store, .insert e)] ++ u)))
        exact Operation.ran_bind_ok hdraw (Operation.ran_bind_ok hcheck
          (Operation.ran_bind_ok hran htail))

theorem ran_refuseSecondTimer (user : UserId) (d : Desk σ) :
    ∃ t, recorded t = [] ∧
      ((Store.running d.store user Page.single = .ok [] ∧
        Ran d (refuseSecondTimer user).run (.ok ()) d t) ∨
      (∃ g, Store.running d.store user Page.single = .error g ∧
        Ran d (refuseSecondTimer user).run (.error (.store .listRunning g)) d t) ∨
      ∃ e es, Store.running d.store user Page.single = .ok (e :: es) ∧
        Ran d (refuseSecondTimer user).run (.error (.alreadyRunning user e.id)) d t) := by
  have hask := Operation.ran_asking d .listRunning (.running user Page.single)
  have hquiet : recorded [(d.store, Call.running user Page.single)] = [] := rfl
  refine ⟨[(d.store, .running user Page.single)], hquiet, ?_⟩
  cases h : Store.running d.store user Page.single with
  | error g =>
    simp only [Call.perform, h, Except.mapError] at hask
    exact .inr (.inl ⟨g, rfl, Operation.ran_bind_error hask⟩)
  | ok es =>
    simp only [Call.perform, h, Except.mapError] at hask
    cases es with
    | nil => exact .inl ⟨rfl, Operation.ran_bind_ok hask (Operation.ran_ok d ())⟩
    | cons e es =>
      have hthrow : Ran d (throw (.alreadyRunning user e.id) : Operation Unit).run
        (.error (.alreadyRunning user e.id)) d [] := ⟨rfl, rfl⟩
      exact .inr (.inr ⟨e, es, rfl, Operation.ran_bind_ok hask hthrow⟩)

theorem performed_start (fields : EntryFields) (owner : String) :
    Performed policy now d (.start fields owner now) (start policy fields owner now).run := by
  apply performed_identified_bind (fun g hg => .unowned rfl hg)
  intro user howner
  apply performed_checked_bind (fun g hg => .unstarted howner hg)
  intro details hfields
  have hinsert {p : Operation Entry} {t : List (σ × Call)} (hquiet : recorded t = [])
      (hfree : policy.singleRunningTimer = true → Store.running d.store user Page.single = .ok [])
      (h : ∀ a d' u, Ran d (do
        let entry := Entry.running (← draw) user details now
        asking .insertEntry (.insert entry)
        return entry : Operation Entry).run a d' u → Ran d p.run a d' (t ++ u)) :
      Performed policy now d (.start fields owner now) p.run := by
    have hdraw := Operation.ran_draw d
    have hmade : (Request.start fields owner now).Makes policy d none
        (some (Entry.running d.ids.next user details now)) := .start howner hfields hfree
    rcases ran_insert hmade rfl (Entry.running_writtenAt d.ids.next user details now) with
      ⟨g, u, hfails, hu, hran⟩ | ⟨s, hedited, hran⟩
    · refine .failed hfails
        (h _ _ _ (Operation.ran_bind_ok hdraw (Operation.ran_bind_error hran))) rfl ?_
      rw [recorded_append, hquiet]
      exact hu
    · have hend : Ran d p.run _ ⟨s, d.ids.advance⟩ _ := h _ _ _
        (Operation.ran_bind_ok hdraw (Operation.ran_bind_ok hran (Operation.ran_ok _ _)))
      exact .kept hmade rfl hedited (fun _ => .inl ⟨rfl, _, rfl, rfl⟩) hquiet hend
  dsimp only
  split
  · rename_i hpolicy
    obtain ⟨t, hquiet, ⟨hfree, hran⟩ | ⟨g, hg, hran⟩ | ⟨e, es, hes, hran⟩⟩ :=
      ran_refuseSecondTimer user d
    · exact hinsert hquiet (fun _ => hfree) fun a d' u h => Operation.ran_bind_ok hran h
    · exact .failed (.unlisted hpolicy howner hfields hg) (Operation.ran_bind_error hran) rfl hquiet
    · exact .failed (.busy hpolicy howner hfields hes) (Operation.ran_bind_error hran) rfl hquiet
  · rename_i hpolicy
    exact hinsert (t := []) rfl (fun h => absurd h hpolicy) fun a d' u h => h

end Performed

namespace Reply

def fault? : Reply → Option ServiceFault
  | entry (.error f) => some f
  | taskTotal (.error f) => some f
  | projectTotal (.error f) => some f
  | entries (.error f) => some f
  | dashboard (.error f) => some f
  | _ => none

theorem fault?_entry {x : Except ServiceFault Entry} {f : ServiceFault} :
    (entry x).fault? = some f ↔ x = .error f := by
  cases x <;> simp [fault?]

end Reply

namespace Request

variable {policy : Policy} {now : Instant} {d : Desk σ} {r : Request} {op : Operation Entry}

def operation? (policy : Policy) : Request → Option (Operation Entry)
  | create input owner now => some (Service.create input owner now)
  | start fields owner now => some (Service.start policy fields owner now)
  | stop id now => some (Service.stop id now)
  | update id patch now => some (Service.update policy id patch now)
  | delete id now => some (Service.delete policy id now)
  | updateTags id tags mode now => some (Service.updateTags id tags mode now)
  | _ => none

theorem program_of_operation? (h : r.operation? policy = some op) :
    r.program policy = Reply.entry <$> op.run := by
  cases r <;> cases h <;> rfl

theorem performed (h : r.operation? policy = some op) (hnow : ∀ i ∈ r.clock?, i = now) :
    Performed policy now d r op.run := by
  cases r <;> cases h <;> obtain rfl := hnow _ rfl
  · exact performed_create _ _
  · exact performed_start _ _
  · exact performed_stop _
  · exact performed_update _ _
  · exact performed_delete _
  · exact performed_updateTags _ _ _

theorem operation?_of_address? (policy : Policy) {text : String} (h : r.address? = some text) :
    ∃ op, r.operation? policy = some op := by
  cases r <;> cases h <;> exact ⟨_, rfl⟩

end Request

end Timesheet
