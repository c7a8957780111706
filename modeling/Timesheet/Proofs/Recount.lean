import Timesheet.Proofs.Effect
import Timesheet.Proofs.Holding

namespace Timesheet

variable {α σ : Type}

/-- The task with another total, as of another time. -/
def Task.RecountsTo (t t' : Task) : Prop :=
  t' = { t with trackedSeconds := t'.trackedSeconds, updated := t'.updated }

def Project.RecountsTo (p p' : Project) : Prop :=
  p' = { p with estimatedHours := p'.estimatedHours, updated := p'.updated }

def TaskRow.RecountsTo (r r' : TaskRow) : Prop :=
  r' = { r with trackedSeconds := r'.trackedSeconds, updated := r'.updated }

def ProjectRow.RecountsTo (r r' : ProjectRow) : Prop :=
  r' = { r with estimatedHours := r'.estimatedHours, updated := r'.updated }

section RecountsTo

theorem Task.RecountsTo.refl (t : Task) : t.RecountsTo t := rfl

theorem Task.RecountsTo.trans {t u v : Task} (h : t.RecountsTo u) (h' : u.RecountsTo v) :
    t.RecountsTo v := by
  rw [RecountsTo, h', h]

theorem Project.RecountsTo.refl (p : Project) : p.RecountsTo p := rfl

theorem Project.RecountsTo.trans {p q r : Project} (h : p.RecountsTo q) (h' : q.RecountsTo r) :
    p.RecountsTo r := by
  rw [RecountsTo, h', h]

theorem TaskRow.RecountsTo.refl (r : TaskRow) : r.RecountsTo r := rfl

theorem TaskRow.RecountsTo.trans {r s t : TaskRow} (h : r.RecountsTo s) (h' : s.RecountsTo t) :
    r.RecountsTo t := by
  rw [RecountsTo, h', h]

theorem ProjectRow.RecountsTo.refl (r : ProjectRow) : r.RecountsTo r := rfl

theorem ProjectRow.RecountsTo.trans {r s t : ProjectRow} (h : r.RecountsTo s)
    (h' : s.RecountsTo t) : r.RecountsTo t := by
  rw [RecountsTo, h', h]

end RecountsTo

structure Memory.RecountsOnly (T : TaskId → Prop) (P : ProjectId → Prop) (m m' : Memory) :
    Prop where
  tasks : m.tasks.Alters (fun id t t' => t' = t ∨ T id ∧ t.RecountsTo t') m'.tasks
  projects : m.projects.Alters
    (fun id p p' => p' = p ∨ P id ∧ p.autoEstimates = true ∧ p.RecountsTo p') m'.projects

structure Database.RecountsOnly (T : TaskId → Prop) (P : ProjectId → Prop) (d d' : Database) :
    Prop where
  tasks : d.tasks.Alters
    (fun k r r' => r' = r ∨ (∃ id, T id ∧ k = .named id.text) ∧ r.RecountsTo r') d'.tasks
  projects : d.projects.Alters
    (fun k r r' => r' = r ∨ (∃ id, P id ∧ k = .named id.text) ∧
      (∃ n, r.autoEstimates = .integer n ∧ n ≠ 0) ∧ r.RecountsTo r') d'.projects

structure Memory.RecountsTo (m m' : Memory) : Prop where
  entries : m'.entries = m.entries
  tasks : m.tasks.Alters (fun _ => Task.RecountsTo) m'.tasks
  projects : m.projects.Alters (fun _ => Project.RecountsTo) m'.projects

structure Database.RecountsTo (d d' : Database) : Prop where
  entries : d'.entries = d.entries
  tasks : d.tasks.Alters (fun _ => TaskRow.RecountsTo) d'.tasks
  projects : d.projects.Alters (fun _ => ProjectRow.RecountsTo) d'.projects

section RecountsOnly

variable {T : TaskId → Prop} {P : ProjectId → Prop}

namespace Memory

variable {m m' m'' : Memory}

theorem recountsOnly_of_eq (htasks : m'.tasks = m.tasks) (hprojects : m'.projects = m.projects) :
    m.RecountsOnly T P m' where
  tasks := htasks ▸ Shelf.alters_refl (fun _ _ => .inl rfl) _
  projects := hprojects ▸ Shelf.alters_refl (fun _ _ => .inl rfl) _

theorem RecountsOnly.trans (h : m.RecountsOnly T P m') (h' : m'.RecountsOnly T P m'') :
    m.RecountsOnly T P m'' where
  tasks := h.tasks.trans_or h'.tasks fun _ _ _ _ h h' => ⟨h.1, h.2.trans h'.2⟩
  projects := h.projects.trans_or h'.projects
    fun _ _ _ _ h h' => ⟨h.1, h.2.1, h.2.2.trans h'.2.2⟩

theorem recountsOnly_of_writeTracked {id : TaskId} {n : Int} {now : Instant} (hT : T id)
    (h : m.writeTracked id n now = .ok m') : m.RecountsOnly T P m' := by
  obtain ⟨t, ht, rfl⟩ := writeTracked_eq_ok.mp h
  obtain ⟨-, rfl⟩ := Shelf.find?_eq_some.mp ht
  exact ⟨Shelf.alters_put (fun _ _ => .inl rfl) ht (.inr ⟨hT, rfl⟩),
    Shelf.alters_refl (fun _ _ => .inl rfl) _⟩

theorem recountsOnly_of_writeEstimate {id : ProjectId} {hours : Binary64} {now : Instant} {b : Bool}
    (hP : P id) (h : m.writeEstimate id hours now = .ok (b, m')) : m.RecountsOnly T P m' := by
  obtain ⟨p, hp, rfl, rfl⟩ := writeEstimate_eq_ok.mp h
  obtain ⟨-, rfl⟩ := Shelf.find?_eq_some.mp hp
  split
  · rename_i hauto
    exact ⟨Shelf.alters_refl (fun _ _ => .inl rfl) _,
      Shelf.alters_put (fun _ _ => .inl rfl) hp (.inr ⟨hP, hauto, rfl⟩)⟩
  · exact recountsOnly_of_eq rfl rfl

theorem RecountsOnly.recountsTo (h : m.RecountsOnly T P m') (hentries : m'.entries = m.entries) :
    m.RecountsTo m' where
  entries := hentries
  tasks := h.tasks.mono fun _ t _ h => h.elim (fun h => h ▸ Task.RecountsTo.refl t) And.right
  projects := h.projects.mono fun _ p _ h =>
    h.elim (fun h => h ▸ Project.RecountsTo.refl p) fun h => h.2.2

end Memory

namespace Database

variable {d d' d'' : Database}

theorem recountsOnly_of_eq (htasks : d'.tasks = d.tasks) (hprojects : d'.projects = d.projects) :
    d.RecountsOnly T P d' where
  tasks := htasks ▸ Shelf.alters_refl (fun _ _ => .inl rfl) _
  projects := hprojects ▸ Shelf.alters_refl (fun _ _ => .inl rfl) _

theorem RecountsOnly.trans (h : d.RecountsOnly T P d') (h' : d'.RecountsOnly T P d'') :
    d.RecountsOnly T P d'' where
  tasks := h.tasks.trans_or h'.tasks fun _ _ _ _ h h' => ⟨h.1, h.2.trans h'.2⟩
  projects := h.projects.trans_or h'.projects
    fun _ _ _ _ h h' => ⟨h.1, h.2.1, h.2.2.trans h'.2.2⟩

theorem recountsOnly_of_writeTracked {id : TaskId} {n : Int} {now : Instant} (hT : T id)
    (h : d.writeTracked id n now = .ok d') : d.RecountsOnly T P d' := by
  obtain ⟨r, hr, rfl⟩ := writeTracked_eq_ok.mp h
  obtain ⟨-, hkey⟩ := Shelf.find?_eq_some.mp hr
  exact ⟨Shelf.alters_put (fun _ _ => .inl rfl) (hkey ▸ hr) (.inr ⟨⟨id, hT, hkey⟩, rfl⟩),
    Shelf.alters_refl (fun _ _ => .inl rfl) _⟩

theorem recountsOnly_of_writeEstimate {id : ProjectId} {hours : Binary64} {now : Instant} {b : Bool}
    (hP : P id) (h : d.writeEstimate id hours now = .ok (b, d')) : d.RecountsOnly T P d' := by
  obtain ⟨r, hr, ⟨n, hauto, hn⟩, h⟩ := writeEstimate_eq_ok.mp h
  obtain ⟨-, hkey⟩ := Shelf.find?_eq_some.mp hr
  split at h
  · rename_i hb
    obtain ⟨-, rfl⟩ := h
    have hne : n ≠ 0 := by simpa [hb] using hn
    exact ⟨Shelf.alters_refl (fun _ _ => .inl rfl) _,
      Shelf.alters_put (fun _ _ => .inl rfl) (hkey ▸ hr)
        (.inr ⟨⟨id, hP, hkey⟩, ⟨n, hauto, hne⟩, rfl⟩)⟩
  · obtain rfl := h
    exact recountsOnly_of_eq rfl rfl

theorem RecountsOnly.recountsTo (h : d.RecountsOnly T P d') (hentries : d'.entries = d.entries) :
    d.RecountsTo d' where
  entries := hentries
  tasks := h.tasks.mono fun _ r _ h => h.elim (fun h => h ▸ TaskRow.RecountsTo.refl r) And.right
  projects := h.projects.mono fun _ r _ h =>
    h.elim (fun h => h ▸ ProjectRow.RecountsTo.refl r) fun h => h.2.2

end Database

end RecountsOnly

structure IgnoresTotals [Store σ] (R : σ → σ → Prop) : Prop where
  refl (s : σ) : R s s
  trans {s t u : σ} (h : R s t) (h' : R t u) : R s u
  perform {s t : σ} (h : R s t) (c : Call) :
    (c.perform t).1 = (c.perform s).1 ∧ R (c.perform s).2 (c.perform t).2
  tracked {s t : σ} {id : TaskId} {n : Int} {now : Instant}
    (h : Store.writeTracked s id n now = .ok t) : R s t
  estimate {s t : σ} {id : ProjectId} {hours : Binary64} {now : Instant} {b : Bool}
    (h : Store.writeEstimate s id hours now = .ok (b, t)) : R s t

theorem changed_bind_congr {β : Type} {R : σ → σ → Prop} {s t : σ} (x : Except StoreFault β)
    {s' t' : σ} (h : R s t) (h' : R s' t') :
    (changed t (x >>= fun _ => pure t')).1 = (changed s (x >>= fun _ => pure s')).1 ∧
      R (changed s (x >>= fun _ => pure s')).2 (changed t (x >>= fun _ => pure t')).2 := by
  cases x with
  | error e => exact ⟨rfl, h⟩
  | ok b => exact ⟨rfl, h'⟩

namespace Memory

variable {m m' : Memory}

theorem RecountsTo.refl (m : Memory) : m.RecountsTo m :=
  ⟨rfl, Shelf.alters_refl (fun _ => Task.RecountsTo.refl) _,
    Shelf.alters_refl (fun _ => Project.RecountsTo.refl) _⟩

theorem RecountsTo.putEntry (h : m.RecountsTo m') (e : Entry) :
    { m with entries := m.entries.put e }.RecountsTo { m' with entries := m'.entries.put e } :=
  { h with entries := by rw [h.entries] }

theorem RecountsTo.eraseEntry (h : m.RecountsTo m') (id : EntryId) :
    { m with entries := m.entries.erase id }.RecountsTo
      { m' with entries := m'.entries.erase id } :=
  { h with entries := by rw [h.entries] }

theorem recountsTo_of_writeTracked {id : TaskId} {n : Int} {now : Instant}
    (h : m.writeTracked id n now = .ok m') : m.RecountsTo m' := by
  have honly : m.RecountsOnly (· = id) (fun _ => False) m' := recountsOnly_of_writeTracked rfl h
  obtain ⟨t, -, rfl⟩ := writeTracked_eq_ok.mp h
  exact honly.recountsTo rfl

theorem recountsTo_of_writeEstimate {id : ProjectId} {hours : Binary64} {now : Instant} {b : Bool}
    (h : m.writeEstimate id hours now = .ok (b, m')) : m.RecountsTo m' := by
  have honly : m.RecountsOnly (fun _ => False) (· = id) m' := recountsOnly_of_writeEstimate rfl h
  obtain ⟨p, -, -, rfl⟩ := writeEstimate_eq_ok.mp h
  refine honly.recountsTo ?_
  split <;> rfl

theorem RecountsTo.writeTracked (h : m.RecountsTo m') (id : TaskId) (n : Int) (now : Instant) :
    (changed m' (m'.writeTracked id n now)).1 = (changed m (m.writeTracked id n now)).1 ∧
      (changed m (m.writeTracked id n now)).2.RecountsTo
        (changed m' (m'.writeTracked id n now)).2 := by
  unfold Memory.writeTracked
  cases ht : m.tasks.find? id with
  | none =>
    rw [(h.tasks.keys id).mp ht]
    exact ⟨rfl, h⟩
  | some t =>
    obtain ⟨u, hu, htu⟩ := h.tasks.exists_right ht
    have hid : u.id = t.id := by rw [htu]
    rw [hu]
    refine ⟨rfl, { h with tasks := h.tasks.put hid ?_ }⟩
    rw [Task.RecountsTo, htu]

theorem RecountsTo.writeEstimate (h : m.RecountsTo m') (id : ProjectId) (hours : Binary64)
    (now : Instant) :
    (changedIf m' (m'.writeEstimate id hours now)).1 =
        (changedIf m (m.writeEstimate id hours now)).1 ∧
      (changedIf m (m.writeEstimate id hours now)).2.RecountsTo
        (changedIf m' (m'.writeEstimate id hours now)).2 := by
  unfold Memory.writeEstimate
  cases hp : m.projects.find? id with
  | none =>
    rw [(h.projects.keys id).mp hp]
    exact ⟨rfl, h⟩
  | some p =>
    obtain ⟨q, hq, hpq⟩ := h.projects.exists_right hp
    have hauto : q.autoEstimates = p.autoEstimates := by rw [hpq]
    have hid : q.id = p.id := by rw [hpq]
    rw [hq]
    simp only [found, bind, Except.bind, hauto]
    split
    · refine ⟨rfl, { h with projects := h.projects.put hid ?_ }⟩
      rw [Project.RecountsTo, hpq]
    · exact ⟨rfl, h⟩

theorem RecountsTo.perform (h : m.RecountsTo m') (c : Call) :
    (c.perform m').1 = (c.perform m).1 ∧ (c.perform m).2.RecountsTo (c.perform m').2 := by
  obtain ⟨entries, tasks, projects⟩ := m
  obtain ⟨entries', tasks', projects'⟩ := m'
  obtain rfl : entries' = entries := h.entries
  cases c with
  | insert e => exact ⟨rfl, h.putEntry e⟩
  | replace e => exact changed_bind_congr (found (entries'.find? e.id)) h (h.putEntry e)
  | erase id => exact changed_bind_congr (found (entries'.find? id)) h (h.eraseEntry id)
  | writeTracked id n now => exact h.writeTracked id n now
  | writeEstimate id hours now => exact h.writeEstimate id hours now
  | _ => exact ⟨rfl, h⟩

theorem ignoresTotals : IgnoresTotals RecountsTo where
  refl := RecountsTo.refl
  trans h h' := {
    entries := h'.entries.trans h.entries
    tasks := h.tasks.trans h'.tasks fun _ _ _ _ => Task.RecountsTo.trans
    projects := h.projects.trans h'.projects fun _ _ _ _ => Project.RecountsTo.trans }
  perform := RecountsTo.perform
  tracked := recountsTo_of_writeTracked
  estimate := recountsTo_of_writeEstimate

end Memory

namespace Database

variable {d d' : Database}

theorem RecountsTo.refl (d : Database) : d.RecountsTo d :=
  ⟨rfl, Shelf.alters_refl (fun _ => TaskRow.RecountsTo.refl) _,
    Shelf.alters_refl (fun _ => ProjectRow.RecountsTo.refl) _⟩

theorem RecountsTo.putEntry (h : d.RecountsTo d') (e : Entry) :
    { d with entries := d.entries.put (.ofEntry e) }.RecountsTo
      { d' with entries := d'.entries.put (.ofEntry e) } :=
  { h with entries := by rw [h.entries] }

theorem RecountsTo.eraseEntry (h : d.RecountsTo d') (id : EntryId) :
    { d with entries := d.entries.erase (.named id.text) }.RecountsTo
      { d' with entries := d'.entries.erase (.named id.text) } :=
  { h with entries := by rw [h.entries] }

theorem recountsTo_of_writeTracked {id : TaskId} {n : Int} {now : Instant}
    (h : d.writeTracked id n now = .ok d') : d.RecountsTo d' := by
  have honly : d.RecountsOnly (· = id) (fun _ => False) d' := recountsOnly_of_writeTracked rfl h
  obtain ⟨r, -, rfl⟩ := writeTracked_eq_ok.mp h
  exact honly.recountsTo rfl

theorem recountsTo_of_writeEstimate {id : ProjectId} {hours : Binary64} {now : Instant} {b : Bool}
    (h : d.writeEstimate id hours now = .ok (b, d')) : d.RecountsTo d' := by
  have honly : d.RecountsOnly (fun _ => False) (· = id) d' := recountsOnly_of_writeEstimate rfl h
  obtain ⟨r, -, -, h⟩ := writeEstimate_eq_ok.mp h
  split at h
  · obtain ⟨-, rfl⟩ := h
    exact honly.recountsTo rfl
  · obtain rfl := h
    exact honly.recountsTo rfl

theorem RecountsTo.writeTracked (h : d.RecountsTo d') (id : TaskId) (n : Int) (now : Instant) :
    (changed d' (d'.writeTracked id n now)).1 = (changed d (d.writeTracked id n now)).1 ∧
      (changed d (d.writeTracked id n now)).2.RecountsTo
        (changed d' (d'.writeTracked id n now)).2 := by
  unfold Database.writeTracked
  cases hr : d.tasks.find? (.named id.text) with
  | none =>
    rw [(h.tasks.keys _).mp hr]
    exact ⟨rfl, h⟩
  | some r =>
    obtain ⟨s, hs, hrs⟩ := h.tasks.exists_right hr
    have hkey : s.key = r.key := by rw [hrs]
    rw [hs]
    refine ⟨rfl, { h with tasks := h.tasks.put hkey ?_ }⟩
    rw [TaskRow.RecountsTo, hrs]

theorem RecountsTo.writeEstimate (h : d.RecountsTo d') (id : ProjectId) (hours : Binary64)
    (now : Instant) :
    (changedIf d' (d'.writeEstimate id hours now)).1 =
        (changedIf d (d.writeEstimate id hours now)).1 ∧
      (changedIf d (d.writeEstimate id hours now)).2.RecountsTo
        (changedIf d' (d'.writeEstimate id hours now)).2 := by
  unfold Database.writeEstimate
  cases hr : d.projects.find? (.named id.text) with
  | none =>
    rw [(h.projects.keys _).mp hr]
    exact ⟨rfl, h⟩
  | some r =>
    obtain ⟨s, hs, hrs⟩ := h.projects.exists_right hr
    have hauto : s.autoEstimates = r.autoEstimates := by rw [hrs]
    have hkey : s.key = r.key := by rw [hrs]
    rw [hs]
    simp only [found, bind, Except.bind, hauto]
    cases r.autoEstimates.readBool 0 "auto_estimates" with
    | error e => exact ⟨rfl, h⟩
    | ok auto =>
      cases auto with
      | false => exact ⟨rfl, h⟩
      | true =>
        cases hoursCell hours with
        | error e => exact ⟨rfl, h⟩
        | ok cell =>
          refine ⟨rfl, { h with projects := h.projects.put hkey ?_ }⟩
          rw [ProjectRow.RecountsTo, hrs]

theorem RecountsTo.perform (h : d.RecountsTo d') (c : Call) :
    (c.perform d').1 = (c.perform d).1 ∧ (c.perform d).2.RecountsTo (c.perform d').2 := by
  obtain ⟨entries, tasks, projects⟩ := d
  obtain ⟨entries', tasks', projects'⟩ := d'
  obtain rfl : entries' = entries := h.entries
  cases c with
  | insert e =>
    change (changed _ (Database.insert _ e)).1 = (changed _ (Database.insert _ e)).1 ∧
      (changed _ (Database.insert _ e)).2.RecountsTo (changed _ (Database.insert _ e)).2
    unfold Database.insert
    split
    · exact ⟨rfl, h⟩
    · exact ⟨rfl, h.putEntry e⟩
  | replace e =>
    exact changed_bind_congr (found (entries'.find? (.named e.id.text))) h (h.putEntry e)
  | erase id =>
    exact changed_bind_congr (found (entries'.find? (.named id.text))) h (h.eraseEntry id)
  | writeTracked id n now => exact h.writeTracked id n now
  | writeEstimate id hours now => exact h.writeEstimate id hours now
  | _ => exact ⟨rfl, h⟩

theorem ignoresTotals : IgnoresTotals RecountsTo where
  refl := RecountsTo.refl
  trans h h' := {
    entries := h'.entries.trans h.entries
    tasks := h.tasks.trans h'.tasks fun _ _ _ _ => TaskRow.RecountsTo.trans
    projects := h.projects.trans h'.projects fun _ _ _ _ => ProjectRow.RecountsTo.trans }
  perform := RecountsTo.perform
  tracked := recountsTo_of_writeTracked
  estimate := recountsTo_of_writeEstimate

end Database

structure Beside (R : σ → σ → Prop) (d d' : Desk σ) : Prop where
  ids : d'.ids = d.ids
  store : R d.store d'.store

namespace IgnoresTotals

variable [Store σ] {R : σ → σ → Prop}

theorem run (I : IgnoresTotals R) (p : Program α) {d d' : Desk σ} (h : Beside R d d') :
    (p.run d').1 = (p.run d).1 ∧ Beside R (p.run d).2 (p.run d').2 := by
  induction p generalizing d d' with
  | done a => exact ⟨rfl, h⟩
  | draw next ih =>
    change ((next d'.ids.next).run _).1 = ((next d.ids.next).run _).1 ∧
      Beside R ((next d.ids.next).run _).2 ((next d'.ids.next).run _).2
    rw [congrArg IdSource.next h.ids]
    exact ih _ ⟨congrArg IdSource.advance h.ids, h.store⟩
  | call c next ih =>
    obtain ⟨hsame, hafter⟩ := I.perform h.store c
    change ((next (c.perform d'.store).1).run _).1 = ((next (c.perform d.store).1).run _).1 ∧
      Beside R ((next (c.perform d.store).1).run _).2 ((next (c.perform d'.store).1).run _).2
    rw [hsame]
    exact ih _ ⟨h.ids, hafter⟩

theorem synced (I : IgnoresTotals R) {now : Instant} {s s' : σ} {ts : List TaskId}
    {ps : List ProjectId} {t : List (σ × Call)} (h : Synced now s ts ps s' t) : R s s' := by
  induction h with
  | done s => exact I.refl s
  | task hsum hwrite h ih => exact I.trans (I.tracked hwrite) ih
  | project hsum hwrite h ih => exact I.trans (I.estimate hwrite) ih
  | quiet hstore hnone h ih => exact ih

end IgnoresTotals

end Timesheet
