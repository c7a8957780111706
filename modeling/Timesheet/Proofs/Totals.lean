import Timesheet.Proofs.Bookkeeping
import Timesheet.Proofs.Sums

/-!
Both stores keep their books. Main statement: with totals following every change, every total of a
task or project is, after any session, the sum of the finished durations that are stored then, unless
a stale fault left it behind.
-/

namespace Timesheet

def contribution (w : Entry → Int) (e : Option Entry) : Int :=
  e.elim 0 w

theorem contribution_eq {c : Entry → Bool} {f : Int → Int} {old new : Option Entry}
    (hc : ∀ e e', e'.task = e.task → e'.project = e.project → c e' = c e)
    (hf : f Entry.runningDuration = 0)
    (h : (∀ e, e ∈ old ∨ e ∈ new → c e = false) ∨ Unmoved old new) :
    contribution (fun e => if c e then f e.duration else 0) old =
      contribution (fun e => if c e then f e.duration else 0) new := by
  rcases h with h | ⟨rfl, e, rfl, he⟩ | ⟨e, e', rfl, rfl, ht, hp, hd⟩
  · have hzero (x : Option Entry) (hx : ∀ e ∈ x, c e = false) :
        contribution (fun e => if c e then f e.duration else 0) x = 0 := by
      cases x with
      | none => rfl
      | some e => simp [contribution, hx e rfl]
    rw [hzero old fun e he => h e (.inl he), hzero new fun e he => h e (.inr he)]
  · simp [contribution, he, hf]
  · simp [contribution, hc e e' ht hp, hd]

namespace Memory

theorem edited {now : Instant} {d : Desk Memory} {old new : Option Entry} {m : Memory}
    {t : List (Memory × Call)} (h : Edited now d old new m t) (hfresh : Inserts Unused t) :
    m.tasks = d.store.tasks ∧ m.projects = d.store.projects ∧
      ∀ counts : Entry → Bool,
        contribution (fun e => if counts e then countedSeconds e.duration else 0) old =
          contribution (fun e => if counts e then countedSeconds e.duration else 0) new →
            m.seconds counts = d.store.seconds counts := by
  cases h with
  | @insert e _ hid hwritten h =>
    have hnone : d.store.entries.find? e.id = none := hfresh _ List.mem_cons_self e rfl
    obtain rfl : { d.store with entries := d.store.entries.put e } = m := Except.ok.inj h
    refine ⟨rfl, rfl, fun counts heq => Shelf.sum_put_of_eq ?_⟩
    rw [hnone]
    exact heq
  | @replace id e e' _ hfetch hid hwritten h =>
    obtain ⟨-, rfl⟩ := replace_eq_ok.mp h
    refine ⟨rfl, rfl, fun counts heq => Shelf.sum_put_of_eq ?_⟩
    have hfind := found_eq_ok.mp hfetch
    rw [hid, (Shelf.find?_eq_some.mp hfind).2, hfind]
    exact heq
  | @erase id e _ hfetch h =>
    obtain ⟨-, rfl⟩ := erase_eq_ok.mp h
    refine ⟨rfl, rfl, fun counts heq => Shelf.sum_erase_of_eq ?_⟩
    rw [found_eq_ok.mp hfetch]
    exact heq

def TaskKept (m : Memory) (id : TaskId) : Prop :=
  ∀ t, m.tasks.find? id = some t → t.trackedSeconds = Word.wrap (m.taskSeconds id)

def ProjectKept (m : Memory) (id : ProjectId) : Prop :=
  ∀ p, m.projects.find? id = some p → p.autoEstimates = true →
    p.estimatedHours = hoursOfSeconds (Word.wrap (m.projectSeconds id))

theorem bookkeeping : Bookkeeping (fun _ => True) Unused TaskKept ProjectKept where
  edited {now d old new m t} _ h hfresh := by
    obtain ⟨htasks, hprojects, hseconds⟩ := edited h hfresh
    refine ⟨trivial, fun id hid hkept r hr => ?_, fun id hid hkept r hr hauto => ?_⟩
    · rw [taskSeconds, hseconds]
      · exact hkept r (htasks ▸ hr)
      · apply contribution_eq _ rfl
        · exact hid.imp_left fun h e he => decide_eq_false (h e he)
        · intro e e' ht _
          rw [ht]
    · rw [projectSeconds, hseconds]
      · exact hkept r (hprojects ▸ hr) hauto
      · apply contribution_eq _ rfl
        · exact hid.imp_left fun h e he => decide_eq_false (h e he)
        · intro e e' _ hp
          rw [hp]
  task {m m' id n now} _ hsum hwrite := by
    have hn : Word.wrap (m.taskSeconds id) = n :=
      (m.finishedSum_filter _).symm.trans (Except.ok.inj hsum)
    obtain ⟨r, hr, rfl⟩ := writeTracked_eq_ok.mp hwrite
    obtain ⟨hmem, rfl⟩ := Shelf.find?_eq_some.mp hr
    refine ⟨trivial, fun t ht => ?_, fun id hkept t ht => ?_, fun id hkept => hkept⟩
    · rcases Shelf.find?_put_eq_some ht with ⟨-, rfl⟩ | ⟨hne, -⟩
      · exact hn.symm
      · exact absurd rfl hne
    · rcases Shelf.find?_put_eq_some ht with ⟨rfl, rfl⟩ | ⟨-, ht⟩
      · exact hn.symm
      · exact hkept t ht
  project {m m' id n b now} _ hsum hwrite := by
    have hn : Word.wrap (m.projectSeconds id) = n :=
      (m.finishedSum_filter _).symm.trans (Except.ok.inj hsum)
    obtain ⟨r, hr, hb, rfl⟩ := writeEstimate_eq_ok.mp hwrite
    obtain ⟨hmem, rfl⟩ := Shelf.find?_eq_some.mp hr
    cases b with
    | false =>
      refine ⟨trivial, fun p hp hauto => ?_, fun id hkept => hkept, fun id hkept => hkept⟩
      obtain rfl := Option.some.inj (hr.symm.trans hp)
      exact absurd hauto (by simp [← hb])
    | true =>
      refine ⟨trivial, fun p hp _ => ?_, fun id hkept => hkept, fun id hkept p hp hauto => ?_⟩
      · rcases Shelf.find?_put_eq_some hp with ⟨-, rfl⟩ | ⟨hne, -⟩
        · exact congrArg hoursOfSeconds hn.symm
        · exact absurd rfl hne
      · rcases Shelf.find?_put_eq_some hp with ⟨rfl, rfl⟩ | ⟨-, hp⟩
        · exact congrArg hoursOfSeconds hn.symm
        · exact hkept p hp hauto

end Memory

namespace Database

theorem edited {now : Instant} {d : Desk Database} {old new : Option Entry} {s : Database}
    {t : List (Database × Call)} (h : Edited now d old new s t)
    (hd : d.store.entries.Holds EntryRow.IsCanonical) :
    s.entries.Holds EntryRow.IsCanonical ∧ s.tasks = d.store.tasks ∧
      s.projects = d.store.projects ∧ ∀ (c : Entry → Bool) (counts : EntryRow → Bool),
        (∀ r e, r.IsCanonical → r.Denotes e → counts r = c e) →
        (∀ e, counts (.ofEntry e) = c e) →
        contribution (fun e => if c e then countedSeconds e.duration else 0) old =
          contribution (fun e => if c e then countedSeconds e.duration else 0) new →
            s.seconds counts = d.store.seconds counts := by
  have hread (c : Entry → Bool) (counts : EntryRow → Bool)
      (h : ∀ r e, r.IsCanonical → r.Denotes e → counts r = c e) {r : EntryRow} {e : Entry}
      {k : RowKey} (hfind : d.store.entries.find? k = some r) (hr : r.Denotes e) :
      share counts r = if c e then countedSeconds e.duration else 0 := by
    simp [share, h r e (hd.of_find? hfind) hr, hr.duration, integer?]
  have hwrite (c : Entry → Bool) (counts : EntryRow → Bool)
      (h : ∀ e, counts (.ofEntry e) = c e) (e : Entry) :
      share counts (.ofEntry e) = if c e then countedSeconds e.duration else 0 := by
    unfold share
    rw [h e]
    rfl
  cases h with
  | @insert e _ hid hwritten h =>
    obtain ⟨hnone, rfl⟩ := insert_eq_ok.mp h
    refine ⟨hd.put (EntryRow.ofEntry_isCanonical e), rfl, rfl, fun c counts _ hc heq =>
      Shelf.sum_put_of_eq ?_⟩
    rw [show d.store.entries.find? (EntryRow.ofEntry e).key = none from hnone, hwrite c counts hc]
    exact heq
  | @replace id e e' _ hfetch hid hwritten h =>
    obtain ⟨-, rfl⟩ := replace_eq_ok.mp h
    obtain ⟨r, hfind, hr⟩ := fetch_eq_ok.mp hfetch
    refine ⟨hd.put (EntryRow.ofEntry_isCanonical e'), rfl, rfl, fun c counts hc hc' heq =>
      Shelf.sum_put_of_eq ?_⟩
    have hkey : (EntryRow.ofEntry e').key = .named id.text := by
      rw [← hr.id_eq (Shelf.find?_eq_some.mp hfind).2, ← hid]
      rfl
    rw [hkey, hfind, hwrite c counts hc']
    exact (hread c counts hc hfind hr).trans heq
  | @erase id e _ hfetch h =>
    obtain ⟨-, rfl⟩ := erase_eq_ok.mp h
    obtain ⟨r, hfind, hr⟩ := fetch_eq_ok.mp hfetch
    refine ⟨hd.erase _, rfl, rfl, fun c counts hc _ heq => Shelf.sum_erase_of_eq ?_⟩
    rw [hfind]
    exact (hread c counts hc hfind hr).trans heq

def TaskKept (d : Database) (id : TaskId) : Prop :=
  ∀ r, d.tasks.find? (.named id.text) = some r → r.trackedSeconds = .integer (d.taskSeconds id)

def ProjectKept (d : Database) (id : ProjectId) : Prop :=
  ∀ r, d.projects.find? (.named id.text) = some r → ∀ n, r.autoEstimates = .integer n → n ≠ 0 →
    r.estimatedHours.readFloat 4 "estimated_hours" = .ok (hoursOfSeconds (d.projectSeconds id))

theorem readFloat_hours (d : Database) (counts : EntryRow → Bool) :
    (NumberCell.ofFloat (hoursOfSeconds (d.seconds counts))).readFloat 4 "estimated_hours" =
      .ok (hoursOfSeconds (d.seconds counts)) :=
  congrArg Except.ok (hoursOfSeconds_unsigned (d.seconds_nonneg counts))

theorem bookkeeping : Bookkeeping (fun d : Database => d.entries.Holds EntryRow.IsCanonical)
    (fun _ _ => True) TaskKept ProjectKept where
  edited {now d old new s t} hd h _ := by
    obtain ⟨hgood, htasks, hprojects, hseconds⟩ := edited h hd
    refine ⟨hgood, fun id hid hkept r hr => ?_, fun id hid hkept r hr n hn hauto => ?_⟩
    · have heq : s.taskSeconds id = d.store.taskSeconds id := by
        refine hseconds (fun e => e.task = id) _ ?_ ?_ ?_
        · intro r e hr h
          rw [h.task_text hr]
          exact decide_eq_decide.mpr Identifier.text_inj
        · intro e
          exact decide_eq_decide.mpr Identifier.text_inj
        · apply contribution_eq _ rfl
          · exact hid.imp_left fun h e he => decide_eq_false (h e he)
          · intro e e' ht _
            rw [ht]
      rw [heq]
      exact hkept r (htasks ▸ hr)
    · have heq : s.projectSeconds id = d.store.projectSeconds id := by
        refine hseconds (fun e => e.project = id) _ ?_ ?_ ?_
        · intro r e hr h
          rw [h.project_text hr]
          exact decide_eq_decide.mpr Identifier.text_inj
        · intro e
          exact decide_eq_decide.mpr Identifier.text_inj
        · apply contribution_eq _ rfl
          · exact hid.imp_left fun h e he => decide_eq_false (h e he)
          · intro e e' _ hp
            rw [hp]
      rw [heq]
      exact hkept r (hprojects ▸ hr) n hn hauto
  task {d s id n now} hd hsum hwrite := by
    have hn : n = d.taskSeconds id := finishedSum_filter hd hsum
    obtain ⟨r, hr, rfl⟩ := writeTracked_eq_ok.mp hwrite
    have hkey := (Shelf.find?_eq_some.mp hr).2
    refine ⟨hd, fun r' hr' => ?_, fun id' hkept r' hr' => ?_, fun id' hkept => hkept⟩
    · rcases Shelf.find?_put_eq_some hr' with ⟨-, rfl⟩ | ⟨hne, -⟩
      · exact congrArg NumberCell.integer hn
      · exact absurd hkey hne
    · rcases Shelf.find?_put_eq_some hr' with ⟨hid, rfl⟩ | ⟨-, hr'⟩
      · obtain rfl := Identifier.text_inj.mp (RowKey.named.inj (hkey.symm.trans hid))
        exact congrArg NumberCell.integer hn
      · exact hkept r' hr'
  project {d s id n b now} hd hsum hwrite := by
    have hn : n = d.projectSeconds id := finishedSum_filter hd hsum
    obtain ⟨r, hr, ⟨m, hm, hb⟩, hs⟩ := writeEstimate_eq_ok.mp hwrite
    have hkey := (Shelf.find?_eq_some.mp hr).2
    cases b with
    | false =>
      obtain rfl : s = d := hs
      refine ⟨hd, fun r' hr' m' hm' hauto => ?_, fun id hkept => hkept, fun id hkept => hkept⟩
      obtain rfl := Option.some.inj (hr.symm.trans hr')
      obtain rfl := NumberCell.integer.inj (hm.symm.trans hm')
      exact absurd hb (by simpa using hauto)
    | true =>
      obtain ⟨-, rfl⟩ := hs
      have hhours := d.readFloat_hours fun r => r.project = id.text
      refine ⟨hd, fun r' hr' m' hm' hauto => ?_, fun id hkept => hkept,
        fun id' hkept r' hr' m' hm' hauto => ?_⟩
      · rcases Shelf.find?_put_eq_some hr' with ⟨-, rfl⟩ | ⟨hne, -⟩
        · rw [hn]
          exact hhours
        · exact absurd hkey hne
      · rcases Shelf.find?_put_eq_some hr' with ⟨hid, rfl⟩ | ⟨-, hr'⟩
        · obtain rfl := Identifier.text_inj.mp (RowKey.named.inj (hkey.symm.trans hid))
          rw [hn]
          exact hhours
        · exact hkept r' hr' m' hm' hauto

end Database

/-- Every total that fits a word is the sum of the finished durations, but for what is overdue and the
absent task and project. -/
structure Memory.IsBalanced (o : Overdue) (m : Memory) : Prop where
  tasks : ∀ t ∈ m.tasks.items, t.id.isAbsent = false → t.id ∉ o.tasks →
    Word.fits (m.taskSeconds t.id) = true → t.trackedSeconds = m.taskSeconds t.id
  projects : ∀ p ∈ m.projects.items, p.id.isAbsent = false → p.id ∉ o.projects →
    p.autoEstimates = true → Word.fits (m.projectSeconds p.id) = true →
      p.estimatedHours = hoursOfSeconds (m.projectSeconds p.id)

structure Memory.SumsFit (m : Memory) : Prop where
  tasks : ∀ t ∈ m.tasks.items, Word.fits (m.taskSeconds t.id) = true
  projects : ∀ p ∈ m.projects.items, Word.fits (m.projectSeconds p.id) = true

/-- Every total is the sum of the finished durations, but for what is overdue and the absent task and
project. -/
structure Database.IsBalanced (o : Overdue) (d : Database) : Prop where
  tasks : ∀ id r, d.tasks.find? (.named id.text) = some r → id.isAbsent = false → id ∉ o.tasks →
    r.trackedSeconds = .integer (d.taskSeconds id)
  projects : ∀ id r, d.projects.find? (.named id.text) = some r → id.isAbsent = false →
    id ∉ o.projects → ∀ n, r.autoEstimates = .integer n → n ≠ 0 →
      r.estimatedHours.readFloat 4 "estimated_hours" = .ok (hoursOfSeconds (d.projectSeconds id))

theorem Memory.isBalanced_of_upToDate {o : Overdue} {m : Memory}
    (h : UpToDate TaskKept ProjectKept o m) : m.IsBalanced o where
  tasks t ht habsent hid hfits := by
    rw [h.tasks t.id habsent hid t (Shelf.find?_eq_some.mpr ⟨ht, rfl⟩), Word.wrap_of_fits hfits]
  projects p hp habsent hid hauto hfits := by
    rw [h.projects p.id habsent hid p (Shelf.find?_eq_some.mpr ⟨hp, rfl⟩) hauto,
      Word.wrap_of_fits hfits]

theorem Memory.IsBalanced.upToDate {o : Overdue} {m : Memory} (h : m.IsBalanced o)
    (hfit : m.SumsFit) : UpToDate TaskKept ProjectKept o m where
  tasks id habsent hid t ht := by
    obtain ⟨hmem, rfl⟩ := Shelf.find?_eq_some.mp ht
    have hfits := hfit.tasks t hmem
    rw [Word.wrap_of_fits hfits]
    exact h.tasks t hmem habsent hid hfits
  projects id habsent hid p hp hauto := by
    obtain ⟨hmem, rfl⟩ := Shelf.find?_eq_some.mp hp
    have hfits := hfit.projects p hmem
    rw [Word.wrap_of_fits hfits]
    exact h.projects p hmem habsent hid hauto hfits

/-- With totals following every change, a balanced store is balanced after any session, but for the
totals that a stale fault left behind and that were not written since. -/
theorem session_totals (policy : Policy) (hpolicy : policy.resyncOnEdit = true) (rs : List Request)
    (ids : IdSource) :
    (∀ m : Memory, ids.IsFresh ((session policy rs).run ⟨m, ids⟩).2.ids.drawn m.Unused →
      m.SumsFit → m.IsBalanced .none → ((session policy rs).run ⟨m, ids⟩).2.store.IsBalanced
        (overdue policy (rs.flatMap Request.parts) ⟨m, ids⟩ .none)) ∧
    ∀ d : Database, d.entries.Holds EntryRow.IsCanonical → d.IsBalanced .none →
      ((session policy rs).run ⟨d, ids⟩).2.store.IsBalanced
        (overdue policy (rs.flatMap Request.parts) ⟨d, ids⟩ .none) := by
  have hsingle : ∀ q ∈ rs.flatMap Request.parts, q.IsSingle := by
    intro q hq
    obtain ⟨r, -, hq⟩ := List.mem_flatMap.mp hq
    exact Request.isSingle_of_mem_parts hq
  constructor
  · intro m hfresh hfit hm
    obtain ⟨hrun, htrace⟩ := alike_session_parts policy rs ⟨m, ids⟩
    have hinserts := Memory.session_inserts policy rs ⟨m, ids⟩ hfresh
    rw [htrace] at hinserts
    rw [hrun]
    exact Memory.isBalanced_of_upToDate (Memory.bookkeeping.session hpolicy hsingle trivial hinserts
      (hm.upToDate hfit))
  · intro d hcanonical hd
    obtain ⟨hrun, -⟩ := alike_session_parts policy rs ⟨d, ids⟩
    rw [hrun]
    obtain ⟨htasks, hprojects⟩ := Database.bookkeeping.session hpolicy hsingle (d := ⟨d, ids⟩)
      hcanonical (fun _ _ _ _ => trivial)
      ⟨fun id habsent hid r hr => hd.tasks id r hr habsent hid,
        fun id habsent hid r hr => hd.projects id r hr habsent hid⟩
    exact ⟨fun id r hr habsent hid => htasks id habsent hid r hr,
      fun id r hr habsent hid => hprojects id habsent hid r hr⟩

def following : Policy :=
  { resyncOnEdit := true }

def firstTask : Task :=
  .new ⟨.ofNat 0xa⟩ .absent "work" .epoch

def minuteOf (task : Option String) : Request :=
  .create
    { fields := { workspace := some "00000000-0000-0000-0000-000000000003", task
                  createdWith := some "test" }
      start := some .epoch, duration := some 60 }
    "00000000-0000-0000-0000-000000000002" .epoch

theorem session_totals_of_minute :
    ((session following [minuteOf (some firstTask.id.text)]).run
      ⟨({ tasks := Shelf.empty.put firstTask } : Memory), .after 0⟩).2.store.IsBalanced
        (overdue following ([minuteOf (some firstTask.id.text)].flatMap Request.parts)
          ⟨({ tasks := Shelf.empty.put firstTask } : Memory), .after 0⟩ .none) ∧
    ((session following [minuteOf (some firstTask.id.text)]).run
      ⟨({ tasks := Shelf.empty.put (.ofTask firstTask) } : Database), .after 0⟩).2.store.IsBalanced
        (overdue following ([minuteOf (some firstTask.id.text)].flatMap Request.parts)
          ⟨({ tasks := Shelf.empty.put (.ofTask firstTask) } : Database), .after 0⟩ .none) := by
  obtain ⟨hm, hd⟩ := session_totals following rfl [minuteOf (some firstTask.id.text)] (.after 0)
  constructor
  · apply hm
    · intro n _ hn
      have hlimit : ((session following [minuteOf (some firstTask.id.text)]).run
        ⟨({ tasks := Shelf.empty.put firstTask } : Memory), .after 0⟩).2.ids.drawn = 1 := by
        decide +kernel
      rw [hlimit] at hn ⊢
      exact ⟨rfl, fun m _ hm _ => by omega⟩
    · exact ⟨by decide +kernel, by decide +kernel⟩
    · have htotal : ∀ t ∈ (Shelf.empty.put firstTask : Shelf Task.id).items,
        t.trackedSeconds = 0 := by decide +kernel
      exact ⟨fun t ht _ _ _ => htotal t ht, fun p hp => by cases hp⟩
  · apply hd
    · exact Shelf.holds_empty
    · have htotal : ∀ r ∈ (Shelf.empty.put (.ofTask firstTask) : Shelf TaskRow.key).items,
        r.trackedSeconds = .integer 0 := by decide +kernel
      exact ⟨fun id r hr _ _ => htotal r (Shelf.find?_eq_some.mp hr).1,
        fun id r hr => absurd hr (by simp [Shelf.find?, Shelf.empty])⟩

def Database.readTaskSeconds (d : Database) (id : TaskId) : Int :=
  ((d.entries.items.filterMap fun r => r.entry.toOption).map fun e =>
    if e.task = id then countedSeconds e.duration else 0).sum

def minuteOfFirstTask : Entry where
  id := ⟨.ofNat 1⟩
  description := ""
  user := ⟨.ofNat 2⟩
  workspace := ⟨.ofNat 3⟩
  project := .absent
  task := firstTask.id
  billable := false
  start := .epoch
  stop := some (.ofSecond 60 (by decide))
  duration := 60
  createdWith := "test"
  tags := Shelf.empty
  durationOnly := false
  created := .epoch
  updated := .epoch

def capitalRow : EntryRow :=
  { EntryRow.ofEntry minuteOfFirstTask with task := "00000000-0000-0000-0000-00000000000A" }

theorem capitalRow_entry : capitalRow.entry = .ok minuteOfFirstTask := by
  have h : (EntryRow.ofEntry minuteOfFirstTask).Denotes minuteOfFirstTask :=
    EntryRow.ofEntry_denotes.mpr ⟨by decide, rfl⟩
  have htask : Identifier.parse .task capitalRow.task = .ok firstTask.id := by decide +kernel
  exact EntryRow.entry_eq_ok.mpr { h with task := htask }

theorem not_mem_overdue {policy : Policy} {r : Request} {d : Desk Database}
    (h : ¬((r.program policy).run d).1.IsStale) (id : TaskId) :
    id ∉ (overdue policy [r] d .none).tasks := by
  rintro ⟨hid | ⟨hstale, -⟩, -⟩
  · cases hid
  · exact h hstale

/-- The total of the task that stands for no task follows nothing, and neither does that of a task
whose entries were made to spell it otherwise. -/
theorem session_totals_not_always :
    (¬∀ (d : Database) (rs : List Request) (ids : IdSource),
      d.entries.Holds EntryRow.IsCanonical →
      (∀ id r, d.tasks.find? (.named id.text) = some r →
        r.trackedSeconds = .integer (d.taskSeconds id)) →
      ∀ id r, ((session following rs).run ⟨d, ids⟩).2.store.tasks.find? (.named id.text) = some r →
        id ∉ (overdue following (rs.flatMap Request.parts) ⟨d, ids⟩ .none).tasks →
          r.trackedSeconds =
            .integer (((session following rs).run ⟨d, ids⟩).2.store.taskSeconds id)) ∧
    ¬∀ (d : Database) (rs : List Request) (ids : IdSource),
      (∀ id r, d.tasks.find? (.named id.text) = some r → id.isAbsent = false →
        r.trackedSeconds = .integer (d.readTaskSeconds id)) →
      ∀ id r, ((session following rs).run ⟨d, ids⟩).2.store.tasks.find? (.named id.text) = some r →
        id.isAbsent = false →
          id ∉ (overdue following (rs.flatMap Request.parts) ⟨d, ids⟩ .none).tasks →
            r.trackedSeconds =
              .integer (((session following rs).run ⟨d, ids⟩).2.store.readTaskSeconds id) := by
  constructor
  · intro h
    let d : Database :=
      { tasks := Shelf.empty.put (.ofTask { firstTask with id := .absent }) }
    have htotal : ∀ r ∈ d.tasks.items, r.trackedSeconds = .integer 0 := by decide +kernel
    have hafter := h d [minuteOf none] (.after 0) Shelf.holds_empty
      (fun id r hr => htotal r (Shelf.find?_eq_some.mp hr).1) .absent
    have hfalse : ((((session following [minuteOf none]).run ⟨d, .after 0⟩).2.store.tasks.find?
        (.named (.absent : TaskId).text)).all fun r => r.trackedSeconds = .integer
          (((session following [minuteOf none]).run ⟨d, .after 0⟩).2.store.taskSeconds .absent)) =
            false := by
      decide +kernel
    rw [Option.all_eq_false] at hfalse
    obtain ⟨r, hr, hne⟩ := hfalse
    refine absurd (hafter r hr (not_mem_overdue ?_ _)) (of_decide_eq_false hne)
    decide +kernel
  · intro h
    let d : Database :=
      { entries := Shelf.empty.put capitalRow
        tasks := Shelf.empty.put { TaskRow.ofTask firstTask with trackedSeconds := .integer 60 } }
    let rs : List Request := [.syncTaskTime firstTask.id.text .epoch]
    have hseconds : d.readTaskSeconds firstTask.id = 60 := by
      change (([capitalRow].filterMap fun r => r.entry.toOption).map _).sum = _
      simp only [List.filterMap, capitalRow_entry, Except.toOption]
      decide
    have hentries : ((session following rs).run ⟨d, .after 0⟩).2.store.entries = d.entries := by
      decide +kernel
    have htotal : ∀ r ∈ d.tasks.items, r.key = .named firstTask.id.text ∧
        r.trackedSeconds = .integer 60 := by decide +kernel
    have hbefore : ∀ id r, d.tasks.find? (.named id.text) = some r → id.isAbsent = false →
        r.trackedSeconds = .integer (d.readTaskSeconds id) := by
      intro id r hr _
      obtain ⟨hmem, hkey⟩ := Shelf.find?_eq_some.mp hr
      obtain ⟨hfirst, htracked⟩ := htotal r hmem
      obtain rfl := Identifier.text_inj.mp (RowKey.named.inj (hkey.symm.trans hfirst))
      rw [htracked, hseconds]
    have hafter := h d rs (.after 0) hbefore firstTask.id
    have hfalse : ((((session following rs).run ⟨d, .after 0⟩).2.store.tasks.find?
        (.named firstTask.id.text)).all fun r => r.trackedSeconds = .integer 60) = false := by
      decide +kernel
    rw [Option.all_eq_false] at hfalse
    obtain ⟨r, hr, hne⟩ := hfalse
    have htracked := hafter r hr (by decide) (not_mem_overdue (by decide +kernel) _)
    rw [Database.readTaskSeconds, hentries, ← Database.readTaskSeconds, hseconds] at htracked
    exact of_decide_eq_false hne htracked

end Timesheet
