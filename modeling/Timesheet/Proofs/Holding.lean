import Timesheet.Database
import Timesheet.Proofs.Program
import Timesheet.Proofs.Row
import Timesheet.Proofs.Shelf
import Timesheet.Store.Memory

namespace Timesheet

theorem changed_snd {σ : Type} {P : σ → Prop} {s : σ} {r : Except StoreFault σ} (hs : P s)
    (h : ∀ t, r = .ok t → P t) : P (changed s r).2 := by
  cases r with
  | ok t => exact h t rfl
  | error e => exact hs

theorem changedIf_snd {σ : Type} {P : σ → Prop} {s : σ} {r : Except StoreFault (Bool × σ)}
    (hs : P s) (h : ∀ b t, r = .ok (b, t) → P t) : P (changedIf s r).2 := by
  cases r with
  | ok t => exact h t.1 t.2 rfl
  | error e => exact hs

namespace Memory

variable {m t : Memory}

theorem found_eq_ok {α : Type} {x : Option α} {a : α} : found x = .ok a ↔ x = some a := by
  cases x <;> simp [found]

theorem replace_eq_ok {e : Entry} : m.replace e = .ok t ↔
    (∃ old, m.entries.find? e.id = some old) ∧ t = { m with entries := m.entries.put e } := by
  unfold replace fetch
  simp only [bind_eq_ok, found_eq_ok, pure, Except.pure, Except.ok.injEq]
  constructor
  · rintro ⟨old, h, rfl⟩
    exact ⟨⟨old, h⟩, rfl⟩
  · rintro ⟨⟨old, h⟩, rfl⟩
    exact ⟨old, h, rfl⟩

theorem erase_eq_ok {id : EntryId} : m.erase id = .ok t ↔
    (∃ old, m.entries.find? id = some old) ∧ t = { m with entries := m.entries.erase id } := by
  unfold erase fetch
  simp only [bind_eq_ok, found_eq_ok, pure, Except.pure, Except.ok.injEq]
  constructor
  · rintro ⟨old, h, rfl⟩
    exact ⟨⟨old, h⟩, rfl⟩
  · rintro ⟨⟨old, h⟩, rfl⟩
    exact ⟨old, h, rfl⟩

theorem writeTracked_eq_ok {id : TaskId} {seconds : Int} {now : Instant} :
    m.writeTracked id seconds now = .ok t ↔ ∃ r, m.tasks.find? id = some r ∧
      t = { m with tasks := m.tasks.put { r with trackedSeconds := seconds, updated := now } } := by
  unfold writeTracked
  simp only [bind_eq_ok, found_eq_ok, pure, Except.pure, Except.ok.injEq]
  exact exists_congr fun r => and_congr_right fun _ => eq_comm

theorem writeEstimate_eq_ok {id : ProjectId} {hours : Binary64} {now : Instant} {b : Bool} :
    m.writeEstimate id hours now = .ok (b, t) ↔ ∃ r, m.projects.find? id = some r ∧
      b = r.autoEstimates ∧ t = if b then
        { m with projects := m.projects.put { r with estimatedHours := hours, updated := now } }
      else m := by
  unfold writeEstimate
  simp only [bind_eq_ok, found_eq_ok]
  apply exists_congr
  intro r
  apply and_congr_right
  intro _
  cases r.autoEstimates <;> cases b <;> simp [pure, Except.pure, eq_comm]

theorem perform_holds {k : Contract} {drawn : Option EntryId} {c : Call}
    (htotal : ∀ n, k.total n) (hI : m.entries.Holds k.entry) (hc : c.Obeys k drawn) :
    c.Hands k (c.perform m).1 ∧ (c.perform m).2.entries.Holds k.entry := by
  have keep {r : Except StoreFault Memory} (h : ∀ t, r = .ok t → t.entries.Holds k.entry) :
      (changed m r).2.entries.Holds k.entry :=
    changed_snd (P := fun t : Memory => t.entries.Holds k.entry) hI h
  cases c with
  | insert e => exact ⟨trivial, hI.put hc.1⟩
  | fetch id => exact ⟨fun e he => hI.of_find? (found_eq_ok.mp he), hI⟩
  | replace e =>
    refine ⟨trivial, keep fun t ht => ?_⟩
    obtain ⟨-, rfl⟩ := replace_eq_ok.mp ht
    exact hI.put hc
  | erase id =>
    refine ⟨trivial, keep fun t ht => ?_⟩
    obtain ⟨-, rfl⟩ := erase_eq_ok.mp ht
    exact hI.erase id
  | writeTracked id seconds now =>
    refine ⟨trivial, keep fun t ht => ?_⟩
    obtain ⟨r, -, rfl⟩ := writeTracked_eq_ok.mp ht
    exact hI
  | writeEstimate id hours now =>
    refine ⟨trivial,
      changedIf_snd (P := fun t : Memory => t.entries.Holds k.entry) hI fun b t ht => ?_⟩
    obtain ⟨r, -, -, rfl⟩ := writeEstimate_eq_ok.mp ht
    split <;> exact hI
  | taskTotal id => exact ⟨fun n _ => htotal n, hI⟩
  | projectTotal id => exact ⟨fun n _ => htotal n, hI⟩
  | _ => exact ⟨trivial, hI⟩

theorem run_holds {α : Type} {k : Contract} {post : α → Prop} {drawn : Option EntryId}
    {p : Program α} (hp : p.Keeps k post drawn) (htotal : ∀ n, k.total n) (ids : IdSource)
    (hm : m.entries.Holds k.entry) :
    (p.run ⟨m, ids⟩).2.store.entries.Holds k.entry :=
  (hp.run_invariant (I := fun m : Memory => m.entries.Holds k.entry) (d := ⟨m, ids⟩)
    (fun _ _ _ hI hc => perform_holds htotal hI hc) hm).2

end Memory

namespace Database

variable {d t : Database}

theorem found_eq_ok {α : Type} {x : Option α} {a : α} : found x = .ok a ↔ x = some a := by
  cases x <;> simp [found]

theorem fetch_eq_ok {id : EntryId} {e : Entry} : d.fetch id = .ok e ↔
    ∃ r, d.entries.find? (.named id.text) = some r ∧ r.Denotes e := by
  unfold fetch
  simp only [bind_eq_ok, found_eq_ok, mapError_eq_ok, EntryRow.entry_eq_ok]

theorem readRows_eq_ok {rows : List EntryRow} {s : List Entry} :
    readRows rows = .ok s ↔ rows.map EntryRow.entry = s.map .ok := by
  have hread {r : EntryRow} {e : Entry} :
      r.entry = .ok e ↔ ∃ t, r.texts = .ok t ∧ t.entry = .ok e := by
    unfold EntryRow.entry
    simp only [bind_eq_ok, mapError_eq_ok]
  unfold readRows
  simp only [bind_eq_ok, mapError_eq_ok, mapM_eq_ok_iff]
  induction rows generalizing s with
  | nil => simp
  | cons r rows ih =>
    cases s with
    | nil => simp
    | cons e s =>
      simp only [List.map_cons, List.cons.injEq, hread, ← ih]
      constructor
      · rintro ⟨t | ⟨t, ts⟩, hts, hs⟩
        · cases hts
        · simp only [List.map_cons, List.cons.injEq] at hts hs
          exact ⟨⟨t, hts.1, hs.1⟩, ts, hts.2, hs.2⟩
      · rintro ⟨⟨t, ht, he⟩, ts, hts, hs⟩
        exact ⟨t :: ts, by simp [ht, hts], by simp [he, hs]⟩

theorem insert_eq_ok {e : Entry} : d.insert e = .ok t ↔
    d.entries.find? (.named e.id.text) = none ∧
      t = { d with entries := d.entries.put (.ofEntry e) } := by
  unfold insert Shelf.contains
  cases d.entries.find? (.named e.id.text) <;> simp [eq_comm]

theorem replace_eq_ok {e : Entry} : d.replace e = .ok t ↔
    (∃ old, d.entries.find? (.named e.id.text) = some old) ∧
      t = { d with entries := d.entries.put (.ofEntry e) } := by
  unfold replace
  simp only [bind_eq_ok, found_eq_ok, pure, Except.pure, Except.ok.injEq]
  constructor
  · rintro ⟨old, h, rfl⟩
    exact ⟨⟨old, h⟩, rfl⟩
  · rintro ⟨⟨old, h⟩, rfl⟩
    exact ⟨old, h, rfl⟩

theorem erase_eq_ok {id : EntryId} : d.erase id = .ok t ↔
    (∃ old, d.entries.find? (.named id.text) = some old) ∧
      t = { d with entries := d.entries.erase (.named id.text) } := by
  unfold erase
  simp only [bind_eq_ok, found_eq_ok, pure, Except.pure, Except.ok.injEq]
  constructor
  · rintro ⟨old, h, rfl⟩
    exact ⟨⟨old, h⟩, rfl⟩
  · rintro ⟨⟨old, h⟩, rfl⟩
    exact ⟨old, h, rfl⟩

theorem writeTracked_eq_ok {id : TaskId} {seconds : Int} {now : Instant} :
    d.writeTracked id seconds now = .ok t ↔ ∃ r, d.tasks.find? (.named id.text) = some r ∧
      t = { d with
        tasks := d.tasks.put { r with trackedSeconds := .integer seconds, updated := now.stamp } } := by
  unfold writeTracked
  simp only [bind_eq_ok, found_eq_ok, pure, Except.pure, Except.ok.injEq]
  exact exists_congr fun r => and_congr_right fun _ => eq_comm

theorem hoursCell_eq_ok {x : Binary64} {c : NumberCell} :
    hoursCell x = .ok c ↔ x.isNaN = false ∧ c = .ofFloat x := by
  unfold hoursCell
  cases x.isNaN <;> simp [eq_comm]

theorem writeEstimate_eq_ok {id : ProjectId} {hours : Binary64} {now : Instant} {b : Bool} :
    d.writeEstimate id hours now = .ok (b, t) ↔ ∃ r, d.projects.find? (.named id.text) = some r ∧
      (∃ n, r.autoEstimates = .integer n ∧ (n != 0) = b) ∧
        if b then hours.isNaN = false ∧ t = { d with
          projects := d.projects.put { r with
            estimatedHours := .ofFloat hours, updated := now.stamp } }
        else t = d := by
  unfold writeEstimate
  simp only [bind_eq_ok, found_eq_ok, mapError_eq_ok, NumberCell.readBool_eq_ok]
  apply exists_congr
  intro r
  apply and_congr_right
  intro _
  constructor
  · rintro ⟨auto, hauto, h⟩
    cases auto with
    | false =>
      obtain ⟨⟩ := h
      exact ⟨hauto, rfl⟩
    | true =>
      obtain ⟨cell, hcell, ⟨⟩⟩ := bind_eq_ok.mp h
      obtain ⟨hn, rfl⟩ := hoursCell_eq_ok.mp (mapError_eq_ok.mp hcell)
      exact ⟨hauto, hn, rfl⟩
  · rintro ⟨hauto, h⟩
    refine ⟨b, hauto, ?_⟩
    cases b with
    | false => rw [show t = d from h]; rfl
    | true =>
      obtain ⟨hn, rfl⟩ := h
      exact bind_eq_ok.mpr ⟨_, mapError_eq_ok.mpr (hoursCell_eq_ok.mpr ⟨hn, rfl⟩), rfl⟩

theorem isFinishedCell_integer (n : Int) : isFinishedCell (.integer n) = true ↔ 0 ≤ n := by
  simp [isFinishedCell, NumberCell.atMost, NumberCell.ratio]

theorem isRunningRow_ofEntry (e : Entry) : isRunningRow (.ofEntry e) = e.isRunning := by
  rw [Bool.eq_iff_iff]
  unfold isRunningRow Entry.isRunning
  rw [beq_iff_eq, beq_iff_eq]
  exact NumberCell.integer.injEq _ _ ▸ Iff.rfl

theorem perform_holds {k : Contract} {P : EntryRow → Prop} (htotal : ∀ n, k.total n)
    (hwrite : ∀ e, k.entry e → P (.ofEntry e)) (hread : ∀ r e, P r → r.Denotes e → k.entry e)
    {drawn : Option EntryId} {c : Call} (hI : d.entries.Holds P) (hc : c.Obeys k drawn) :
    c.Hands k (c.perform d).1 ∧ (c.perform d).2.entries.Holds P := by
  have keep {r : Except StoreFault Database} (h : ∀ t, r = .ok t → t.entries.Holds P) :
      (changed d r).2.entries.Holds P :=
    changed_snd (P := fun t : Database => t.entries.Holds P) hI h
  cases c with
  | insert e =>
    refine ⟨trivial, keep fun t ht => ?_⟩
    obtain ⟨-, rfl⟩ := insert_eq_ok.mp ht
    exact hI.put (hwrite e hc.1)
  | fetch id =>
    refine ⟨fun e he => ?_, hI⟩
    obtain ⟨r, hr, he⟩ := fetch_eq_ok.mp he
    exact hread r e (hI.of_find? hr) he
  | replace e =>
    refine ⟨trivial, keep fun t ht => ?_⟩
    obtain ⟨-, rfl⟩ := replace_eq_ok.mp ht
    exact hI.put (hwrite e hc)
  | erase id =>
    refine ⟨trivial, keep fun t ht => ?_⟩
    obtain ⟨-, rfl⟩ := erase_eq_ok.mp ht
    exact hI.erase _
  | writeTracked id seconds now =>
    refine ⟨trivial, keep fun t ht => ?_⟩
    obtain ⟨r, -, rfl⟩ := writeTracked_eq_ok.mp ht
    exact hI
  | writeEstimate id hours now =>
    refine ⟨trivial,
      changedIf_snd (P := fun t : Database => t.entries.Holds P) hI fun b t ht => ?_⟩
    obtain ⟨r, -, -, h⟩ := writeEstimate_eq_ok.mp ht
    split at h
    · rw [h.2]
      exact hI
    · rw [h]
      exact hI
  | taskTotal id => exact ⟨fun n _ => htotal n, hI⟩
  | projectTotal id => exact ⟨fun n _ => htotal n, hI⟩
  | _ => exact ⟨trivial, hI⟩

theorem run_holds {α : Type} {k : Contract} {P : EntryRow → Prop} {post : α → Prop}
    {drawn : Option EntryId} {p : Program α} (hp : p.Keeps k post drawn) (htotal : ∀ n, k.total n)
    (hwrite : ∀ e, k.entry e → P (.ofEntry e)) (hread : ∀ r e, P r → r.Denotes e → k.entry e)
    (ids : IdSource) (hd : d.entries.Holds P) : (p.run ⟨d, ids⟩).2.store.entries.Holds P :=
  (hp.run_invariant (I := fun d : Database => d.entries.Holds P) (d := ⟨d, ids⟩)
    (fun _ _ _ hI hc => perform_holds htotal hwrite hread hI hc) hd).2

end Database
end Timesheet
