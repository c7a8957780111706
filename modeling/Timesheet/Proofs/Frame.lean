import Timesheet.Proofs.Bookkeeping
import Timesheet.Proofs.Ledger
import Timesheet.Proofs.SingleTimer

/-!
What a request leaves as it was. Main statement: only the entry that a request adds or names can change,
and keeps its origin; of the tasks and projects only totals change, of those that the entry is for.
-/

namespace Timesheet

open Service

/-- The entry that a request adds, or the one that it names. -/
def Request.Addresses (r : Request) (ids : IdSource) (id : EntryId) : Prop :=
  (r.owner?.isSome = true ∧ id = ids.next) ∨
    ∃ text, r.address? = some text ∧ Identifier.parse .entry text = .ok id

def Reply.Commits : Reply → Prop
  | entry (.ok _) => True
  | reply => reply.IsStale

instance : DecidablePred Reply.Commits
  | .entry (.ok _) => isTrue trivial
  | .entry (.error f) => inferInstanceAs (Decidable f.IsStale)
  | .batch _ => isFalse not_false
  | .taskTotal _ => isFalse not_false
  | .projectTotal _ => isFalse not_false
  | .entries _ => isFalse not_false
  | .dashboard _ => isFalse not_false

section Makes

variable {σ : Type} [Store σ] {policy : Policy} {d : Desk σ} {r : Request}

theorem Request.owner?_of_edit? {text : String} {f : Entry → Except Refusal Entry}
    (hr : r.edit? = some (text, f)) : r.owner? = none := by
  cases r <;> cases hr <;> rfl

theorem Request.Makes.inserted {e : Entry} (h : r.Makes policy d none (some e)) :
    r.owner?.isSome = true ∧ e.id = d.ids.next := by
  cases h with
  | create howner h =>
    obtain ⟨details, start, duration, -, -, -, h⟩ := NewEntry.entry_eq_ok.mp h
    obtain ⟨-, -, stop, -, -, rfl⟩ := Entry.finished_eq_ok.mp h
    exact ⟨rfl, rfl⟩
  | start howner hfields hfree => exact ⟨rfl, rfl⟩

theorem Request.Makes.sameOrigin {e e' : Entry} (h : r.Makes policy d (some e) (some e')) :
    e.SameOrigin e' := by
  cases h with
  | edit hr hid hfetch h => exact Request.sameOrigin_of_edit? hr h

theorem Request.Makes.of_owner? {old new : Option Entry} (h : r.Makes policy d old new)
    (hr : r.owner?.isSome = true) : old = none ∧ ∃ e, new = some e := by
  cases h with
  | create howner h => exact ⟨rfl, _, rfl⟩
  | start howner hfields hfree => exact ⟨rfl, _, rfl⟩
  | edit hedit =>
    rw [Request.owner?_of_edit? hedit] at hr
    cases hr
  | delete hid hfetch => cases hr

theorem Request.Makes.of_edit? {old new : Option Entry} {text : String}
    {f : Entry → Except Refusal Entry} (h : r.Makes policy d old new)
    (hr : r.edit? = some (text, f)) : ∃ e e', old = some e ∧ new = some e' := by
  cases h with
  | edit hedit hid hfetch h => exact ⟨_, _, rfl, rfl⟩
  | _ => cases hr

theorem EntryView.addresses_of_makes {τ : Type} (V : EntryView σ τ) {old new : Option Entry}
    {e : Entry} (h : r.Makes policy d old new) (he : e ∈ old ∨ e ∈ new) :
    r.Addresses d.ids e.id := by
  cases h with
  | create howner h =>
    obtain rfl := Option.some.inj (he.resolve_left (by simp))
    have hmade : Request.Makes policy d _ none (some _) := .create howner h
    exact .inl hmade.inserted
  | start howner hfields hfree =>
    obtain rfl := Option.some.inj (he.resolve_left (by simp))
    exact .inl ⟨rfl, rfl⟩
  | edit hr hid hfetch h =>
    have hold := V.id_of_fetch hfetch
    refine .inr ⟨_, Request.address?_of_edit? hr, hid.trans (congrArg _ ?_)⟩
    rcases he with he | he
    · obtain rfl := Option.some.inj he
      exact hold.symm
    · obtain rfl := Option.some.inj he
      exact ((Request.id_of_edit? hr h).trans hold).symm
  | delete hid hfetch =>
    obtain rfl := Option.some.inj (he.resolve_right (by simp))
    exact .inr ⟨_, rfl, hid.trans (congrArg _ (V.id_of_fetch hfetch).symm)⟩

end Makes

namespace Ledger

variable {σ κ ρ : Type} [Store σ] [KeyOrder κ] [DecidableEq κ] {key : ρ → κ} (L : Ledger σ key)
  {policy : Policy} {r : Request} {d d' : Desk σ} {reply : Reply} {old new : Option Entry}
  {e : Entry}

/-- The record of an entry that the request adds or names, before the request or after it. -/
def Involves (r : Request) (d d' : Desk σ) (Q : ρ → Prop) : Prop :=
  ∃ id a, r.Addresses d.ids id ∧ ((L.entries d.store).find? (L.name id) = some a ∨
    (L.entries d'.store).find? (L.name id) = some a) ∧ Q a

/-- The total of the task is asked for, or follows the request: there is such a task, and the entry is
for it or was. -/
def CountsTask (policy : Policy) (r : Request) (d d' : Desk σ) (id : TaskId) : Prop :=
  r.SyncsTask id ∨
    r.Recounts policy ∧ id.isAbsent = false ∧ L.Involves r d d' fun a => L.ForTask a id

def CountsProject (policy : Policy) (r : Request) (d d' : Desk σ) (id : ProjectId) : Prop :=
  r.SyncsProject id ∨
    r.Recounts policy ∧ id.isAbsent = false ∧ L.Involves r d d' fun a => L.ForProject a id

/-- What a request leaves as it was, and what of the rest it changes. -/
structure Frame (policy : Policy) (r : Request) (d d' : Desk σ) (reply : Reply) : Prop where
  others : ∀ k, (∀ id, r.Addresses d.ids id → L.name id ≠ k) →
    (L.entries d'.store).find? k = (L.entries d.store).find? k
  kept : ∀ k a b, (L.entries d.store).find? k = some a → (L.entries d'.store).find? k = some b →
    L.SameOrigin a b
  refused : ¬reply.Commits → L.entries d'.store = L.entries d.store
  added : r.owner?.isSome = true → reply.Commits →
    ∃ a, (L.entries d'.store).find? (L.name d.ids.next) = some a
  edited : ∀ text f, r.edit? = some (text, f) → ∀ k,
    ((L.entries d.store).find? k = none ↔ (L.entries d'.store).find? k = none)
  erased : ∀ text now id, r = .delete text now → Identifier.parse .entry text = .ok id →
    reply.Commits → (∃ a, (L.entries d.store).find? (L.name id) = some a) ∧
      (L.entries d'.store).find? (L.name id) = none
  totals : L.RecountsOnly (L.CountsTask policy r d d') (L.CountsProject policy r d d')
    d.store d'.store

theorem reads_of_makes (h : r.Makes policy d (some e) new) :
    ∃ a, (L.entries d.store).find? (L.name e.id) = some a ∧ L.Reads a e := by
  cases h with
  | edit hr hid hfetch h =>
    obtain rfl := L.id_of_fetch hfetch
    exact L.reads_of_fetch hfetch
  | delete hid hfetch =>
    obtain rfl := L.id_of_fetch hfetch
    exact L.reads_of_fetch hfetch

theorem involves_of_makes (h : r.Makes policy d old new)
    (hentries : L.entries d'.store = L.written old new (L.entries d.store)) (he : e ∈ old ∨ e ∈ new) :
    L.Involves r d d' fun a => L.ForTask a e.task ∧ L.ForProject a e.project := by
  have haddress := L.addresses_of_makes h he
  rcases he with he | he
  · obtain rfl := Option.mem_def.mp he
    obtain ⟨a, ha, hread⟩ := L.reads_of_makes h
    exact ⟨e.id, a, haddress, .inl ha, L.forTask_of_reads hread, L.forProject_of_reads hread⟩
  · obtain rfl := Option.mem_def.mp he
    refine ⟨e.id, L.write e, haddress, .inr ?_, L.forTask_write e, L.forProject_write e⟩
    rw [hentries]
    exact L.find?_put_self _ e

theorem countsTask_of_makes (h : r.Makes policy d old new)
    (hentries : L.entries d'.store = L.written old new (L.entries d.store))
    (hrecounts : r.Recounts policy) (he : e ∈ old ∨ e ∈ new) (habsent : e.task.isAbsent = false) :
    L.CountsTask policy r d d' e.task := by
  obtain ⟨id, a, haddress, ha, hfor, -⟩ := L.involves_of_makes h hentries he
  exact .inr ⟨hrecounts, habsent, id, a, haddress, ha, hfor⟩

theorem countsProject_of_makes (h : r.Makes policy d old new)
    (hentries : L.entries d'.store = L.written old new (L.entries d.store))
    (hrecounts : r.Recounts policy) (he : e ∈ old ∨ e ∈ new)
    (habsent : e.project.isAbsent = false) : L.CountsProject policy r d d' e.project := by
  obtain ⟨id, a, haddress, ha, -, hfor⟩ := L.involves_of_makes h hentries he
  exact .inr ⟨hrecounts, habsent, id, a, haddress, ha, hfor⟩

theorem sameOrigin_of_makes (h : r.Makes policy d old (some e))
    (hfresh : r.owner?.isSome = true → (L.entries d.store).find? (L.name d.ids.next) = none)
    {a : ρ} (ha : (L.entries d.store).find? (L.name e.id) = some a) :
    L.SameOrigin a (L.write e) := by
  cases old with
  | none =>
    -- Nothing is stored under the name of an entry that is added.
    obtain ⟨howner, hid⟩ := h.inserted
    rw [hid, hfresh howner] at ha
    cases ha
  | some e₀ =>
    obtain ⟨b, hb, hread⟩ := L.reads_of_makes h
    rw [← h.sameOrigin.id, ha] at hb
    obtain rfl := Option.some.inj hb
    have hkey := (Shelf.find?_eq_some.mp ha).2
    exact L.sameOrigin_write hread (hkey.trans (congrArg _ h.sameOrigin.id)) h.sameOrigin

theorem kept_of_makes (h : r.Makes policy d old new)
    (hfresh : r.owner?.isSome = true → (L.entries d.store).find? (L.name d.ids.next) = none)
    {k : κ} {a b : ρ} (ha : (L.entries d.store).find? k = some a)
    (hb : (L.written old new (L.entries d.store)).find? k = some b) : L.SameOrigin a b := by
  have hsame (hb : (L.entries d.store).find? k = some b) : L.SameOrigin a b := by
    obtain rfl := Option.some.inj (ha.symm.trans hb)
    exact L.sameOrigin_refl a
  cases new with
  | some e =>
    change (L.put e _).find? k = some b at hb
    by_cases hk : L.name e.id = k
    · subst hk
      rw [L.find?_put_self] at hb
      obtain rfl := Option.some.inj hb
      exact L.sameOrigin_of_makes h hfresh ha
    · rw [L.find?_put_of_ne _ hk] at hb
      exact hsame hb
  | none =>
    cases old with
    | some e =>
      change (L.erase e.id _).find? k = some b at hb
      by_cases hk : L.name e.id = k
      · subst hk
        rw [L.find?_erase_self] at hb
        cases hb
      · rw [L.find?_erase_of_ne _ hk] at hb
        exact hsame hb
    | none => exact hsame hb

theorem frame_of_makes (h : r.Makes policy d old new)
    (hfresh : r.owner?.isSome = true → (L.entries d.store).find? (L.name d.ids.next) = none)
    (hcommits : reply.Commits)
    (hentries : L.entries d'.store = L.written old new (L.entries d.store))
    (htotals : L.RecountsOnly (L.CountsTask policy r d d') (L.CountsProject policy r d d')
      d.store d'.store) :
    L.Frame policy r d d' reply where
  others k hk := by
    rw [hentries]
    cases new with
    | some e => exact L.find?_put_of_ne _ (hk _ (L.addresses_of_makes h (.inr rfl)))
    | none =>
      cases old with
      | some e => exact L.find?_erase_of_ne _ (hk _ (L.addresses_of_makes h (.inl rfl)))
      | none => rfl
  kept k a b ha hb := L.kept_of_makes h hfresh ha (hentries ▸ hb)
  refused hnot := absurd hcommits hnot
  added howner _ := by
    obtain ⟨rfl, e, rfl⟩ := h.of_owner? howner
    rw [hentries, ← h.inserted.2]
    exact ⟨_, L.find?_put_self _ e⟩
  edited text f hr k := by
    obtain ⟨e, e', rfl, rfl⟩ := h.of_edit? hr
    rw [hentries]
    change _ ↔ (L.put e' _).find? k = none
    by_cases hk : L.name e'.id = k
    · subst hk
      obtain ⟨a, ha, -⟩ := L.reads_of_makes h
      rw [L.find?_put_self, h.sameOrigin.id, ha]
      simp
    · rw [L.find?_put_of_ne _ hk]
  erased text now id hr hid _ := by
    subst hr
    cases h with
    | edit hedit => cases hedit
    | delete hid' hfetch =>
      obtain rfl := Except.ok.inj (hid.symm.trans hid')
      obtain rfl := L.id_of_fetch hfetch
      obtain ⟨a, ha, -⟩ := L.reads_of_fetch hfetch
      rw [hentries]
      exact ⟨⟨a, ha⟩, L.find?_erase_self _ _⟩
  totals := htotals

theorem frame_of_entries (hentries : L.entries d'.store = L.entries d.store)
    (hidle : reply.Commits → r.operation? policy = none)
    (htotals : L.RecountsOnly (L.CountsTask policy r d d') (L.CountsProject policy r d d')
      d.store d'.store) :
    L.Frame policy r d d' reply where
  others k _ := by rw [hentries]
  kept k a b ha hb := by
    rw [hentries, ha] at hb
    obtain rfl := Option.some.inj hb
    exact L.sameOrigin_refl a
  refused _ := hentries
  added howner hcommits := by
    have hnone := hidle hcommits
    cases r <;> cases howner <;> cases hnone
  edited text f _ k := by rw [hentries]
  erased text now id hr _ hcommits := by
    subst hr
    cases hidle hcommits
  totals := htotals

theorem frame (hr : r.IsSingle) (policy : Policy) (d : Desk σ)
    (hfresh : r.owner?.isSome = true → (L.entries d.store).find? (L.name d.ids.next) = none) :
    L.Frame policy r d ((r.program policy).run d).2 ((r.program policy).run d).1 := by
  obtain ⟨now, hnow, -⟩ := r.exists_clock
  cases hop : r.operation? policy with
  | some op =>
    rw [Request.program_of_operation? hop]
    cases Request.performed (d := d) hop hnow with
    | failed hf hran hstore hquiet =>
      rw [(hran.map Reply.entry).run]
      refine L.frame_of_entries (congrArg L.entries hstore) (fun h => absurd h hf.not_isStale) ?_
      exact hstore ▸ L.recounts_refl _
    | kept hmade he h hsame hquiet hran =>
      rw [(hran.map Reply.entry).run]
      exact L.frame_of_makes hmade hfresh trivial (L.entries_of_edited h) (L.recounts_of_edited h)
    | @synced old new e a s d' tasks ts projects ps t u hmade he h htasks hprojects hsync ha hran
        hrecounts hts hps =>
      have hentries := (L.entries_of_synced hsync).trans (L.entries_of_edited h)
      rw [(hran.map Reply.entry).run]
      apply L.frame_of_makes hmade hfresh
      · rcases ha with ⟨rfl, -⟩ | ⟨cause, rfl⟩
        · trivial
        · exact ⟨_, cause, rfl⟩
      · exact hentries
      · refine L.recounts_trans (L.recounts_of_edited h) (L.recounts_of_synced hsync ?_ ?_)
        · intro id hid
          obtain ⟨hmem, habsent⟩ := mem_targets.mp (hts hid)
          obtain ⟨e, he, rfl⟩ := (htasks id).mp hmem
          exact L.countsTask_of_makes hmade hentries hrecounts he habsent
        · intro id hid
          obtain ⟨hmem, habsent⟩ := mem_targets.mp (hps hid)
          obtain ⟨e, he, rfl⟩ := (hprojects id).mp hmem
          exact L.countsProject_of_makes hmade hentries hrecounts he habsent
  | none =>
    obtain ⟨reply, s, ts, ps, t, hran, hsync, -, hts, hps⟩ := r.refreshes policy d hr hop hnow
    rw [hran.run]
    refine L.frame_of_entries (L.entries_of_synced hsync) (fun _ => hop) ?_
    exact L.recounts_of_synced hsync (fun id hid => .inl (hts id hid)) fun id hid =>
      .inl (hps id hid)

end Ledger

/-- A batch leaves what its items leave, one after the other. A single request changes no entry but the
one it adds or names, of which it leaves the origin, and of the other records totals alone. -/
theorem request_frame (policy : Policy) (r : Request) :
    (∀ d : Desk Memory,
      ((r.program policy).run d).2 = ((session policy r.parts).run d).2 ∧
      ∀ q ∈ r.parts,
        (q.owner?.isSome = true → d.store.entries.find? d.ids.next = none) →
          Memory.ledger.Frame policy q d ((q.program policy).run d).2
            ((q.program policy).run d).1) ∧
    ∀ d : Desk Database,
      ((r.program policy).run d).2 = ((session policy r.parts).run d).2 ∧
      ∀ q ∈ r.parts,
        (q.owner?.isSome = true → d.store.entries.find? (.named d.ids.next.text) = none) →
          Database.ledger.Frame policy q d ((q.program policy).run d).2
            ((q.program policy).run d).1 :=
  ⟨fun d => ⟨(alike_parts policy r d).1, fun _ hq =>
      Memory.ledger.frame (Request.isSingle_of_mem_parts hq) policy d⟩,
    fun d => ⟨(alike_parts policy r d).1, fun _ hq =>
      Database.ledger.frame (Request.isSingle_of_mem_parts hq) policy d⟩⟩

def minuteOfNoTask : Request :=
  .create { fields := timerFields, start := some .epoch, duration := some 60 }
    "00000000-0000-0000-0000-000000000002" .epoch

def noTask : Task :=
  ⟨.absent, .absent, "none", 5, .epoch, .epoch⟩

theorem request_frame_of_minute :
    (∃ e, ((minuteOfNoTask.program {}).run ⟨({} : Database), .after 0⟩).2.store.entries.find?
      (.named "00000000-0000-0000-0000-000000000001") = some e) ∧
    ((minuteOfNoTask.program {}).run
      ⟨({ tasks := Shelf.empty.put noTask } : Memory), .after 0⟩).2.store.tasks.find? .absent =
        some noTask := by
  obtain ⟨hmemory, hdatabase⟩ := request_frame {} minuteOfNoTask
  constructor
  · have h := (hdatabase ⟨{}, .after 0⟩).2 minuteOfNoTask List.mem_cons_self fun _ => rfl
    exact h.added rfl (by decide +kernel)
  · have h := (hmemory ⟨{ tasks := Shelf.empty.put noTask }, .after 0⟩).2 minuteOfNoTask
      List.mem_cons_self fun _ => rfl
    obtain ⟨t, ht, hsame⟩ := h.totals.tasks.exists_right (k := .absent) (a := noTask) rfl
    rcases hsame with rfl | ⟨hcounts, -⟩
    · exact ht
    · rcases hcounts with hsync | ⟨-, habsent, -⟩
      · cases hsync
      · cases habsent

def halfRow : EntryRow :=
  { firstTimer with created := "1970-01-01T00:00:00.500Z" }

def halfTimer : Entry :=
  { timerFrom .epoch with created := halfSecond }

theorem halfRow_denotes : halfRow.Denotes halfTimer :=
  firstTimer_denotes.of_created (by decide +kernel)

def tagFirst : Request :=
  .updateTags "00000000-0000-0000-0000-000000000001" ["a"] .add thirdSecond

/-- To tag an entry cuts its time of creation to the second. -/
theorem request_frame_not_always :
    ∃ a b i j, (Shelf.empty.put halfRow : Shelf EntryRow.key).find? halfRow.key = some a ∧
      ((tagFirst.program {}).run
        ⟨({ entries := Shelf.empty.put halfRow } : Database), .after 1⟩).2.store.entries.find?
          halfRow.key = some b ∧
      Instant.ofStamp? a.created = some i ∧ Instant.ofStamp? b.created = some j ∧ i ≠ j := by
  have hid : Identifier.parse .entry "00000000-0000-0000-0000-000000000001" = .ok ⟨.ofNat 1⟩ := by
    decide +kernel
  have hedit : tagFirst.edit? = some ("00000000-0000-0000-0000-000000000001",
      fun e => .ok (e.editTags ["a"] .add thirdSecond)) := rfl
  have hfetch : Store.fetch ({ entries := Shelf.empty.put halfRow } : Database) ⟨.ofNat 1⟩ =
      .ok halfTimer :=
    Database.fetch_eq_ok.mpr ⟨halfRow, Shelf.find?_put_self _ _, halfRow_denotes⟩
  have hput : ((tagFirst.program {}).run
      ⟨({ entries := Shelf.empty.put halfRow } : Database), .after 1⟩).2.store.entries =
        (Shelf.empty.put halfRow).put (.ofEntry (halfTimer.editTags ["a"] .add thirdSecond)) :=
    (Database.view.edit_answered hedit hid hfetch rfl).1
  have hstamp : Instant.ofStamp? halfSecond.stamp = some halfSecond.wholeSecond :=
    Instant.ofStamp?_stamp_eq_some.mpr ⟨by decide, rfl⟩
  refine ⟨halfRow, .ofEntry (halfTimer.editTags ["a"] .add thirdSecond), halfSecond,
    halfSecond.wholeSecond, Shelf.find?_put_self _ _, ?_, halfRow_denotes.created, hstamp, by decide⟩
  rw [hput]
  exact Shelf.find?_put_self _ _

end Timesheet
