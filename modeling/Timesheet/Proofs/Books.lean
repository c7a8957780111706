import Timesheet.Proofs.Hours
import Timesheet.Proofs.Settling
import Timesheet.Proofs.Sums
import Timesheet.Proofs.Table

namespace Timesheet

namespace Total

def overflow : StoreFault :=
  .backend (.engine .integerOverflow)

instance (t : Total) (e : Entry) : Decidable (t.Counts e) :=
  match t with
  | task id => inferInstanceAs (Decidable (e.task = id))
  | project id => inferInstanceAs (Decidable (e.project = id))

def takes : Total → EntryRow → Bool
  | task id, r => r.task = id.text
  | project id, r => r.project = id.text

theorem takes_ofEntry {t : Total} {e : Entry} : t.takes (.ofEntry e) = true ↔ t.Counts e := by
  cases t <;> simp [takes, EntryRow.ofEntry, Counts, Identifier.text_inj]

theorem counts_of_takes {t : Total} {r : EntryRow} {e : Entry} (h : r.Denotes e)
    (ht : t.takes r = true) : t.Counts e := by
  cases t with
  | task id =>
    have htext : r.task = id.text := of_decide_eq_true ht
    have htask := h.task
    rw [htext, Identifier.parse_text] at htask
    exact (Except.ok.inj htask).symm
  | project id =>
    have htext : r.project = id.text := of_decide_eq_true ht
    have hproject := h.project
    rw [htext, Identifier.parse_text] at hproject
    exact (Except.ok.inj hproject).symm

section Write

variable {σ : Type} [Store σ] {s s' : σ} {id : ProjectId} {n : Int} {now : Instant}

theorem write_project_eq_ok : (project id).write s n now = .ok s' ↔
    ∃ b, Store.writeEstimate s id (hoursOfSeconds n) now = .ok (b, s') := by
  cases h : Store.writeEstimate s id (hoursOfSeconds n) now with
  | error f => simp [write, h]
  | ok p => simp [write, h, Prod.ext_iff]

theorem write_project_eq_error {f : StoreFault} : (project id).write s n now = .error f ↔
    Store.writeEstimate s id (hoursOfSeconds n) now = .error f := by
  cases h : Store.writeEstimate s id (hoursOfSeconds n) now <;> simp [write, h]

end Write

end Total

theorem EntryView.entries_write {σ τ : Type} [Store σ] (V : EntryView σ τ) {s s' : σ} {t : Total}
    {n : Int} {now : Instant} (h : t.write s n now = .ok s') : V.entries s' = V.entries s := by
  cases t with
  | task id => exact V.entries_tracked h
  | project id =>
    obtain ⟨b, hwrite⟩ := Total.write_project_eq_ok.mp h
    exact V.entries_estimate hwrite

variable {σ κ ρ : Type} [KeyOrder κ] [DecidableEq κ] {key : ρ → κ}

structure Books (σ : Type) [Store σ] (key : ρ → κ) extends EntryTable σ key where
  Slot : Type
  Record : Type
  slot : Total → Slot
  look : σ → Slot → Option Record
  mark : Int → Instant → Record → Record
  trouble : σ → Total → Option ServiceFault
  slot_inj {t u : Total} (h : slot t = slot u) : t = u
  ext_look {s s' : σ} (hentries : entries s = entries s') (hlook : ∀ k, look s k = look s' k) : s = s'
  fetch_of_find? {s s' : σ} {id : EntryId}
    (h : (entries s).find? (name id) = (entries s').find? (name id)) :
    Store.fetch s id = Store.fetch s' id
  sum_congr {s s' : σ} (t : Total) (h : entries s = entries s') : t.sum s = t.sum s'
  sum_replace {s s' : σ} {t : Total} {e e' : Entry} (hfetch : Store.fetch s e'.id = .ok e)
    (h : Store.replace s e' = .ok s') (hold : ¬t.Counts e) (hnew : ¬t.Counts e') : t.sum s' = t.sum s
  look_replace {s s' : σ} {e : Entry} (h : Store.replace s e = .ok s') (k : Slot) :
    look s' k = look s k
  look_write {s s' : σ} {t : Total} {n : Int} {now : Instant} (h : t.write s n now = .ok s') :
    look s' (slot t) = (look s (slot t)).map (mark n now)
  look_write_of_ne {s s' : σ} {t : Total} {n : Int} {now : Instant} {k : Slot}
    (h : t.write s n now = .ok s') (hk : slot t ≠ k) : look s' k = look s k
  mark_mark (m n : Int) (now : Instant) (r : Record) : mark m now (mark n now r) = mark m now r
  trouble_unsummed {s : σ} {t : Total} {f : StoreFault} (h : t.sum s = .error f) :
    f = Total.overflow ∨ trouble s t = some (t.sumFault f)
  trouble_unwritten {s : σ} {t : Total} {n : Int} {now : Instant} {f : StoreFault}
    (hsum : t.sum s = .ok n) (h : t.write s n now = .error f) : trouble s t = some (t.writeFault f)
  trouble_written {s s' : σ} {t : Total} {n : Int} {now : Instant}
    (hsum : t.sum s = .ok n) (h : t.write s n now = .ok s') : trouble s t = none
  trouble_write {s s' : σ} {t : Total} {n : Int} {now : Instant} (h : t.write s n now = .ok s')
    (u : Total) : trouble s' u = trouble s u
  trouble_replace {s s' : σ} {e e' : Entry} (hfetch : Store.fetch s e'.id = .ok e)
    (h : Store.replace s e' = .ok s') (t : Total) : trouble s' t = trouble s t

namespace Memory

variable {m m' : Memory} {t : Total} {n : Int} {now : Instant}

def look (m : Memory) : Total → Option (Task ⊕ Project)
  | .task id => (m.tasks.find? id).map .inl
  | .project id => (m.projects.find? id).map .inr

def mark (n : Int) (now : Instant) : Task ⊕ Project → Task ⊕ Project
  | .inl t => .inl { t with trackedSeconds := n, updated := now }
  | .inr p =>
    .inr (if p.autoEstimates then { p with estimatedHours := hoursOfSeconds n, updated := now } else p)

theorem mark_mark (m n : Int) (now now' : Instant) (r : Task ⊕ Project) :
    mark m now' (mark n now r) = mark m now' r := by
  cases r with
  | inl t => rfl
  | inr p => cases h : p.autoEstimates <;> simp [mark, h]

def trouble (m : Memory) (t : Total) : Option ServiceFault :=
  if (m.look t).isNone then some (t.writeFault .missing) else none

theorem sum_eq (m : Memory) (t : Total) :
    t.sum m = .ok (finishedSum (m.entries.items.filter fun e => t.Counts e)) := by
  cases t <;> rfl

theorem written {t : Total} (h : t.write m n now = .ok m') : (∃ r, m.look t = some r) ∧
    m'.look t = (m.look t).map (mark n now) ∧ ∀ u, u ≠ t → m'.look u = m.look u := by
  cases t with
  | task id =>
    obtain ⟨r, hr, rfl⟩ := writeTracked_eq_ok.mp h
    obtain ⟨-, rfl⟩ := Shelf.find?_eq_some.mp hr
    have hnew := m.tasks.find?_put_self { r with trackedSeconds := n, updated := now }
    refine ⟨⟨.inl r, by simp [look, hr]⟩, by simp [look, hr, hnew, mark], fun u hu => ?_⟩
    cases u with
    | task id =>
      have hne : r.id ≠ id := fun h => hu (congrArg Total.task h.symm)
      exact congrArg (Option.map _) (m.tasks.find?_put_of_ne hne)
    | project id => rfl
  | project id =>
    obtain ⟨b, hwrite⟩ := Total.write_project_eq_ok.mp h
    obtain ⟨r, hr, rfl, rfl⟩ := writeEstimate_eq_ok.mp hwrite
    obtain ⟨-, rfl⟩ := Shelf.find?_eq_some.mp hr
    cases hauto : r.autoEstimates with
    | false => exact ⟨⟨.inr r, by simp [look, hr]⟩, by simp [look, hr, mark, hauto], fun _ _ => rfl⟩
    | true =>
      refine ⟨⟨.inr r, by simp [look, hr]⟩, ?_, fun u hu => ?_⟩
      · simp [look, hr, mark, hauto]
      · cases u with
        | task id => rfl
        | project id =>
          have hne : r.id ≠ id := fun h => hu (congrArg Total.project h.symm)
          exact congrArg (Option.map _) (m.projects.find?_put_of_ne hne)

theorem unwritten {f : StoreFault} (h : t.write m n now = .error f) :
    m.look t = none ∧ f = .missing := by
  cases t with
  | task id =>
    change m.writeTracked id n now = _ at h
    cases hr : m.tasks.find? id with
    | none =>
      rw [writeTracked, hr] at h
      exact ⟨by simp [look, hr], (Except.error.inj h).symm⟩
    | some r => cases h.symm.trans (writeTracked_eq_ok.mpr ⟨r, hr, rfl⟩)
  | project id =>
    replace h : m.writeEstimate id (hoursOfSeconds n) now = _ := Total.write_project_eq_error.mp h
    cases hr : m.projects.find? id with
    | none =>
      rw [writeEstimate, hr] at h
      exact ⟨by simp [look, hr], (Except.error.inj h).symm⟩
    | some r => cases h.symm.trans (writeEstimate_eq_ok.mpr ⟨r, hr, rfl, rfl⟩)

theorem ext_look (hentries : m.entries = m'.entries) (hlook : ∀ t, m.look t = m'.look t) :
    m = m' := by
  have htasks : m.tasks = m'.tasks := Shelf.ext_find? fun id =>
    Option.map_injective (fun _ _ h => Sum.inl.inj h) (hlook (.task id))
  have hprojects : m.projects = m'.projects := Shelf.ext_find? fun id =>
    Option.map_injective (fun _ _ h => Sum.inr.inj h) (hlook (.project id))
  cases m
  cases m'
  simp only [mk.injEq]
  exact ⟨hentries, htasks, hprojects⟩

theorem sum_replace {e e' : Entry} (hfetch : m.fetch e'.id = .ok e) (h : m.replace e' = .ok m')
    (hold : ¬t.Counts e) (hnew : ¬t.Counts e') : t.sum m' = t.sum m := by
  obtain ⟨-, rfl⟩ := replace_eq_ok.mp h
  rw [sum_eq, sum_eq, Shelf.filter_put (by simpa using hnew)]
  intro b hb
  obtain rfl := Option.some.inj (hb.symm.trans (found_eq_ok.mp hfetch))
  simpa using hold

theorem trouble_write (h : t.write m n now = .ok m') (u : Total) : m'.trouble u = m.trouble u := by
  have hlook : (m'.look u).isNone = (m.look u).isNone := by
    by_cases hu : u = t
    · subst hu
      rw [(written h).2.1, Option.isNone_map]
    · rw [(written h).2.2 u hu]
  rw [trouble, trouble, hlook]

def books : Books Memory Entry.id where
  toEntryTable := Memory.table
  Slot := Total
  Record := Task ⊕ Project
  slot t := t
  look := look
  mark := mark
  trouble := trouble
  slot_inj h := h
  ext_look := ext_look
  fetch_of_find? h := congrArg found h
  sum_congr {m m'} t h := by
    rw [sum_eq, sum_eq]
    exact congrArg (fun s : Shelf Entry.id => Except.ok (finishedSum (s.items.filter _))) h
  sum_replace := sum_replace
  look_replace h k := by
    obtain ⟨-, rfl⟩ := replace_eq_ok.mp h
    cases k <;> rfl
  look_write h := (written h).2.1
  look_write_of_ne h hk := (written h).2.2 _ hk.symm
  mark_mark m n now := mark_mark m n now now
  trouble_unsummed {m t f} h := by
    rw [sum_eq] at h
    cases h
  trouble_unwritten _ h := by
    obtain ⟨hnone, rfl⟩ := unwritten h
    rw [trouble, hnone]
    rfl
  trouble_written _ h := by
    obtain ⟨⟨r, hr⟩, -⟩ := written h
    rw [trouble, hr]
    rfl
  trouble_write := trouble_write
  trouble_replace _ h t := by
    obtain ⟨-, rfl⟩ := replace_eq_ok.mp h
    cases t <;> rfl

end Memory

namespace Database

variable {d d' : Database} {t : Total} {n : Int} {now : Instant}

def slot : Total → RowKey ⊕ RowKey
  | .task id => .inl (.named id.text)
  | .project id => .inr (.named id.text)

theorem slot_inj {t u : Total} (h : slot t = slot u) : t = u := by
  cases t <;> cases u <;> simp_all [slot, Identifier.text_inj]

def look (d : Database) : RowKey ⊕ RowKey → Option (TaskRow ⊕ ProjectRow)
  | .inl k => (d.tasks.find? k).map .inl
  | .inr k => (d.projects.find? k).map .inr

def follows (r : ProjectRow) : Bool :=
  match r.autoEstimates with
  | .integer n => n != 0
  | _ => false

def mark (n : Int) (now : Instant) : TaskRow ⊕ ProjectRow → TaskRow ⊕ ProjectRow
  | .inl r => .inl { r with trackedSeconds := .integer n, updated := now.stamp }
  | .inr r =>
    .inr (if follows r then
      { r with estimatedHours := .ofFloat (hoursOfSeconds n), updated := now.stamp } else r)

theorem mark_mark (m n : Int) (now now' : Instant) (r : TaskRow ⊕ ProjectRow) :
    mark m now' (mark n now r) = mark m now' r := by
  cases r with
  | inl r => rfl
  | inr r =>
    cases h : follows r with
    | false => simp [mark, h]
    | true =>
      have hkeep (c : NumberCell) (s : String) :
          follows { r with estimatedHours := c, updated := s } = true := h
      simp [mark, h, hkeep]

def strays (d : Database) (t : Total) : List EntryRow :=
  d.entries.items.filter fun r =>
    t.takes r && isFinishedCell r.duration && (integer? r.duration).isNone

def block : Option (TaskRow ⊕ ProjectRow) → Option StoreFault
  | none => some .missing
  | some (.inl _) => none
  | some (.inr r) =>
    match r.autoEstimates.readBool 0 "auto_estimates" with
    | .ok _ => none
    | .error e => some (.backend (.engine e))

def trouble (d : Database) (t : Total) : Option ServiceFault :=
  if d.strays t = [] then (block (d.look (slot t))).map t.writeFault
  else some (t.sumFault (.backend (.engine (.columnType "Real" 0 "COALESCE(SUM(duration), 0)"))))

theorem mapM_integer?_eq_none {cells : List NumberCell} :
    cells.mapM integer? = none ↔ ∃ c ∈ cells, integer? c = none := by
  induction cells with
  | nil => simp
  | cons c cells ih =>
    cases hc : integer? c with
    | none => simp [List.mapM_cons, hc]
    | some n => cases h : cells.mapM integer? <;> simp_all [List.mapM_cons]

theorem sumWords_eq_error {s : List Int} {total : Int} {f : EngineFault}
    (h : sumWords total s = .error f) : f = .integerOverflow := by
  induction s generalizing total with
  | nil => cases h
  | cons n s ih =>
    unfold sumWords at h
    split at h
    · exact ih h
    · exact (Except.error.inj h).symm

def cells (d : Database) (t : Total) : List NumberCell :=
  ((d.entries.items.filter t.takes).map EntryRow.duration).filter isFinishedCell

theorem sum_eq (d : Database) (t : Total) : t.sum d = sumCells (d.cells t) := by
  cases t <;> rfl

theorem strays_eq_nil : d.strays t = [] ↔ ∃ ns, (d.cells t).mapM integer? = some ns := by
  rw [← Option.isSome_iff_exists, ← Option.ne_none_iff_isSome, ne_eq, mapM_integer?_eq_none, strays,
    List.filter_eq_nil_iff]
  simp [cells]

theorem strays_of_sum (h : t.sum d = .ok n) : d.strays t = [] := by
  rw [sum_eq, sumCells] at h
  cases hcells : (d.cells t).mapM integer? with
  | none =>
    rw [hcells] at h
    cases h
  | some ns => exact strays_eq_nil.mpr ⟨ns, hcells⟩

theorem sum_eq_error {f : StoreFault} (h : t.sum d = .error f) :
    d.strays t = [] ∧ f = Total.overflow ∨ d.strays t ≠ [] ∧
      f = .backend (.engine (.columnType "Real" 0 "COALESCE(SUM(duration), 0)")) := by
  rw [sum_eq, sumCells] at h
  cases hcells : (d.cells t).mapM integer? with
  | none =>
    rw [hcells] at h
    refine .inr ⟨fun hnil => ?_, (Except.error.inj h).symm⟩
    obtain ⟨ns, hns⟩ := strays_eq_nil.mp hnil
    cases hcells.symm.trans hns
  | some ns =>
    rw [hcells] at h
    obtain ⟨g, hg, rfl⟩ := mapError_eq_error.mp h
    rw [sumWords_eq_error hg]
    exact .inl ⟨strays_eq_nil.mpr ⟨ns, hcells⟩, rfl⟩

theorem exists_cells (h : d.strays t = []) : ∃ s : List Int,
    d.cells t = s.map .integer ∧ (∀ n ∈ s, 0 ≤ n) ∧ s.sum = d.seconds t.takes := by
  have hrows : ∀ r ∈ d.entries.items.filter t.takes, isFinishedCell r.duration = true →
      ∃ n, r.duration = .integer n := by
    intro r hr hfinished
    obtain ⟨hmem, htakes⟩ := List.mem_filter.mp hr
    have hint := List.filter_eq_nil_iff.mp h r hmem
    cases hn : r.duration with
    | integer n => exact ⟨n, rfl⟩
    | _ =>
      rw [hn] at hfinished
      simp [htakes, hfinished, hn, integer?] at hint
  obtain ⟨s, hs, hpos, hsum⟩ := exists_finished hrows
  exact ⟨s, hs, hpos, hsum.trans (sum_filter _ _ _)⟩

theorem written {t : Total} (h : t.write d n now = .ok d') : block (d.look (slot t)) = none ∧
    d'.look (slot t) = (d.look (slot t)).map (mark n now) ∧
      ∀ k, slot t ≠ k → d'.look k = d.look k := by
  cases t with
  | task id =>
    obtain ⟨r, hr, rfl⟩ := writeTracked_eq_ok.mp h
    have hkey := (Shelf.find?_eq_some.mp hr).2
    have hnew := d.tasks.find?_put_of_eq
      (a := { r with trackedSeconds := .integer n, updated := now.stamp }) hkey
    refine ⟨by simp [look, slot, hr, block], by simp [look, slot, hr, hnew, mark], fun k hk => ?_⟩
    cases k with
    | inl k =>
      have hne : r.key ≠ k := fun h => hk (congrArg Sum.inl (hkey.symm.trans h))
      exact congrArg (Option.map _) (d.tasks.find?_put_of_ne hne)
    | inr k => rfl
  | project id =>
    obtain ⟨b, hwrite⟩ := Total.write_project_eq_ok.mp h
    obtain ⟨r, hr, ⟨m, hm, hb⟩, hd⟩ := writeEstimate_eq_ok.mp hwrite
    have hblock : block (d.look (slot (.project id))) = none := by
      simp [look, slot, hr, block, NumberCell.readBool_eq_ok.mpr ⟨m, hm, hb⟩]
    have hfollows : follows r = b := by rw [follows, hm, ← hb]
    have hkey := (Shelf.find?_eq_some.mp hr).2
    cases b with
    | false =>
      obtain rfl : d' = d := hd
      exact ⟨hblock, by simp [look, slot, hr, mark, hfollows], fun _ _ => rfl⟩
    | true =>
      obtain ⟨-, rfl⟩ := hd
      have hnew := d.projects.find?_put_of_eq
        (a := { r with estimatedHours := .ofFloat (hoursOfSeconds n), updated := now.stamp }) hkey
      refine ⟨hblock, by simp [look, slot, hr, hnew, mark, hfollows], fun k hk => ?_⟩
      cases k with
      | inl k => rfl
      | inr k =>
        have hne : r.key ≠ k := fun h => hk (congrArg Sum.inr (hkey.symm.trans h))
        exact congrArg (Option.map _) (d.projects.find?_put_of_ne hne)

theorem unwritten {f : StoreFault} (h : t.write d n now = .error f) :
    block (d.look (slot t)) = some f := by
  cases t with
  | task id =>
    change d.writeTracked id n now = _ at h
    cases hr : d.tasks.find? (.named id.text) with
    | none =>
      rw [writeTracked, hr] at h
      simpa [look, slot, hr, block] using Except.error.inj h
    | some r => cases h.symm.trans (writeTracked_eq_ok.mpr ⟨r, hr, rfl⟩)
  | project id =>
    replace h : d.writeEstimate id (hoursOfSeconds n) now = _ := Total.write_project_eq_error.mp h
    cases hr : d.projects.find? (.named id.text) with
    | none =>
      rw [writeEstimate, hr] at h
      simpa [look, slot, hr, block] using Except.error.inj h
    | some r =>
      rw [writeEstimate, hr] at h
      obtain ⟨⟨⟩⟩ | ⟨r, ⟨⟩, h⟩ := bind_eq_error.mp h
      rcases bind_eq_error.mp h with hauto | ⟨auto, -, hcell⟩
      · obtain ⟨e, he, rfl⟩ := mapError_eq_error.mp hauto
        simp [look, slot, hr, block, he]
      · have hok : hoursCell (hoursOfSeconds n) = .ok (.ofFloat (hoursOfSeconds n)) :=
          hoursCell_eq_ok.mpr ⟨hoursOfSeconds_isNaN n, rfl⟩
        rw [hok] at hcell
        cases auto <;> cases hcell

theorem block_mark (x : Option (TaskRow ⊕ ProjectRow)) :
    block (x.map (mark n now)) = block x := by
  rcases x with - | r | r
  · rfl
  · rfl
  · cases h : follows r <;> simp [block, mark, h]

theorem ext_look (hentries : d.entries = d'.entries) (hlook : ∀ k, d.look k = d'.look k) :
    d = d' := by
  have htasks : d.tasks = d'.tasks := Shelf.ext_find? fun k =>
    Option.map_injective (fun _ _ h => Sum.inl.inj h) (hlook (.inl k))
  have hprojects : d.projects = d'.projects := Shelf.ext_find? fun k =>
    Option.map_injective (fun _ _ h => Sum.inr.inj h) (hlook (.inr k))
  cases d
  cases d'
  simp only [mk.injEq]
  exact ⟨hentries, htasks, hprojects⟩

section Replace

variable {e e' : Entry}

theorem sum_replace (hfetch : d.fetch e'.id = .ok e) (h : d.replace e' = .ok d')
    (hold : ¬t.Counts e) (hnew : ¬t.Counts e') : t.sum d' = t.sum d := by
  obtain ⟨-, rfl⟩ := replace_eq_ok.mp h
  obtain ⟨r, hr, hread⟩ := fetch_eq_ok.mp hfetch
  rw [sum_eq, sum_eq, cells, cells, Shelf.filter_put]
  · exact Bool.eq_false_iff.mpr (mt Total.takes_ofEntry.mp hnew)
  · intro b hb
    obtain rfl := Option.some.inj (hb.symm.trans hr)
    exact Bool.eq_false_iff.mpr (mt (Total.counts_of_takes hread) hold)

theorem strays_replace (hfetch : d.fetch e'.id = .ok e) (h : d.replace e' = .ok d') (t : Total) :
    d'.strays t = d.strays t := by
  obtain ⟨-, rfl⟩ := replace_eq_ok.mp h
  obtain ⟨r, hr, hread⟩ := fetch_eq_ok.mp hfetch
  apply Shelf.filter_put
  · simp [EntryRow.ofEntry, integer?]
  · intro b hb
    obtain rfl := Option.some.inj (hb.symm.trans hr)
    simp [hread.duration, integer?]

theorem look_replace (h : d.replace e' = .ok d') (k : RowKey ⊕ RowKey) : d'.look k = d.look k := by
  obtain ⟨-, rfl⟩ := replace_eq_ok.mp h
  cases k <;> rfl

end Replace

theorem trouble_write (h : t.write d n now = .ok d') (u : Total) : d'.trouble u = d.trouble u := by
  have hentries : d'.entries = d.entries := Database.view.entries_write h
  have hblock : block (d'.look (slot u)) = block (d.look (slot u)) := by
    by_cases hu : slot t = slot u
    · rw [← hu, (written h).2.1, block_mark]
    · rw [(written h).2.2 _ hu]
  rw [trouble, trouble, strays, strays, hentries, hblock]

def books : Books Database EntryRow.key where
  toEntryTable := Database.table
  Slot := RowKey ⊕ RowKey
  Record := TaskRow ⊕ ProjectRow
  slot := slot
  look := look
  mark := mark
  trouble := trouble
  slot_inj := slot_inj
  ext_look := ext_look
  fetch_of_find? {d d' id} h := by
    change d.fetch id = d'.fetch id
    have hfind : d.entries.find? (.named id.text) = d'.entries.find? (.named id.text) := h
    rw [fetch, fetch, hfind]
  sum_congr {d d'} t h := by
    rw [sum_eq, sum_eq]
    exact congrArg (fun s : Shelf EntryRow.key =>
      sumCells (((s.items.filter t.takes).map EntryRow.duration).filter isFinishedCell)) h
  sum_replace := sum_replace
  look_replace := look_replace
  look_write h := (written h).2.1
  look_write_of_ne h hk := (written h).2.2 _ hk
  mark_mark m n now := mark_mark m n now now
  trouble_unsummed {d t f} h := by
    obtain ⟨-, rfl⟩ | ⟨hstrays, rfl⟩ := sum_eq_error h
    · exact .inl rfl
    · exact .inr (if_neg hstrays)
  trouble_unwritten {d t n now f} hsum h := by
    rw [trouble, if_pos (strays_of_sum hsum), unwritten h]
    rfl
  trouble_written {d d' t n now} hsum h := by
    rw [trouble, if_pos (strays_of_sum hsum), (written h).1]
    rfl
  trouble_write := trouble_write
  trouble_replace hfetch h t := by
    rw [trouble, trouble, strays_replace hfetch h, look_replace h]

end Database
end Timesheet
