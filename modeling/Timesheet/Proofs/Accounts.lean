import Timesheet.Proofs.Syncing

namespace Timesheet

open Service

theorem Request.Makes.exists_entry {σ : Type} [Store σ] {policy : Policy} {d : Desk σ} {r : Request}
    {old new : Option Entry} (h : r.Makes policy d old new) : ∃ e, new.or old = some e := by
  cases h <;> exact ⟨_, rfl⟩

section Accounts

variable {κ ρ : Type} [KeyOrder κ] [DecidableEq κ] {key : ρ → κ}

/-- Books to which records can be added where there is none. A record is sound if its total can be
written; edits of entries leave the records alone. -/
structure Accounts (σ : Type) [Store σ] (key : ρ → κ) extends Books σ key where
  Sound : Record → Prop
  place : Task ⊕ Project → Slot
  record : Task ⊕ Project → Option Record
  add : Task ⊕ Project → σ → Option σ
  sound_mark {n : Int} {now : Instant} {r : Record} : Sound (mark n now r) ↔ Sound r
  mark_remark (m n : Int) (now now' : Instant) (r : Record) :
    mark m now' (mark n now r) = mark m now' r
  trouble_eq_none {s : σ} {t : Total} {n : Int} (h : t.sum s = .ok n) :
    trouble s t = none ↔ ∃ r, look s (slot t) = some r ∧ Sound r
  look_insert {s s' : σ} {e : Entry} (h : Store.insert s e = .ok s') (k : Slot) :
    look s' k = look s k
  look_erase {s s' : σ} {id : EntryId} (h : Store.erase s id = .ok s') (k : Slot) :
    look s' k = look s k
  inserts {s s' t : σ} {e : Entry} (h : Store.insert s e = .ok s') (hentries : entries t = entries s) :
    ∃ t', Store.insert t e = .ok t'
  add_eq_some {s s' : σ} {x : Task ⊕ Project} (h : add x s = some s') : entries s' = entries s ∧
    ∃ r, record x = some r ∧ look s (place x) = none ∧ look s' (place x) = some r ∧
      ∀ k, place x ≠ k → look s' k = look s k
  adds {s : σ} {x : Task ⊕ Project} {r : Record} (hr : record x = some r)
    (h : look s (place x) = none) : ∃ s', add x s = some s'

namespace Accounts

variable {σ : Type} [Store σ] (A : Accounts σ key) {policy : Policy} {now now' : Instant}
  {d : Desk σ} {r : Request} {old new : Option Entry} {s s' t t' : σ} {items : List (Task ⊕ Project)}

def addAll (A : Accounts σ key) (items : List (Task ⊕ Project)) (s : σ) : Option σ :=
  items.foldlM (fun s x => A.add x s) s

def Has (s : σ) (t : Total) : Prop :=
  ∃ r, A.look s (A.slot t) = some r ∧ A.Sound r

structure AlikeAdded (A : Accounts σ key) (s s' t t' : σ) : Prop where
  left : A.entries s' = A.entries s
  right : A.entries t' = A.entries t
  look : ∀ k, (A.look s k = none ∧ A.look t k = none ∧ A.look s' k = A.look t' k) ∨
    (A.look s' k = A.look s k ∧ A.look t' k = A.look t k)

variable {A}

theorem exists_addAll (hnone : ∀ k, A.look s k = none ↔ A.look t k = none)
    (h : A.addAll items s = some s') : ∃ t', A.addAll items t = some t' ∧ A.AlikeAdded s s' t t' := by
  induction items generalizing s t with
  | nil =>
    obtain ⟨⟩ := h
    exact ⟨t, rfl, rfl, rfl, fun _ => .inr ⟨rfl, rfl⟩⟩
  | cons x items ih =>
    obtain ⟨s₁, hs₁, hrest⟩ := Option.bind_eq_some_iff.mp h
    obtain ⟨hentries, r, hr, hslot, hlook, hothers⟩ := A.add_eq_some hs₁
    obtain ⟨t₁, ht₁⟩ := A.adds hr ((hnone _).mp hslot)
    obtain ⟨hentries', r', hr', hslot', hlook', hothers'⟩ := A.add_eq_some ht₁
    obtain ⟨⟩ := hr.symm.trans hr'
    have hnone₁ : ∀ k, A.look s₁ k = none ↔ A.look t₁ k = none := by
      intro k
      by_cases hk : A.place x = k
      · subst hk
        rw [hlook, hlook']
      · rw [hothers k hk, hothers' k hk]
        exact hnone k
    obtain ⟨t', ht', halike⟩ := ih hnone₁ hrest
    refine ⟨t', Option.bind_eq_some_iff.mpr ⟨t₁, ht₁, ht'⟩, halike.left.trans hentries,
      halike.right.trans hentries', fun k => ?_⟩
    by_cases hk : A.place x = k
    · subst hk
      rcases halike.look (A.place x) with ⟨h₁, -, -⟩ | ⟨h₁, h₂⟩
      · cases hlook.symm.trans h₁
      · exact .inl ⟨hslot, hslot', by rw [h₁, h₂, hlook, hlook']⟩
    · have hcase := halike.look k
      rwa [hothers k hk, hothers' k hk] at hcase

theorem look_change (h : change old new s = .ok s') (k : A.Slot) : A.look s' k = A.look s k := by
  match old, new, h with
  | none, none, h =>
    obtain ⟨⟩ := h
    rfl
  | none, some e, h => exact A.look_insert h k
  | some e, some e', h => exact A.look_replace h k
  | some e, none, h => exact A.look_erase h k

section Refreshed

variable {us ts : List Total} {u v : σ} {x : Total}

theorem map_mark_of_refreshed (h : A.Refreshed now us s s') (n : Int) (i : Instant) (k : A.Slot) :
    (A.look s' k).map (A.mark n i) = (A.look s k).map (A.mark n i) := by
  by_cases hk : ∃ t ∈ us, A.slot t = k
  · obtain ⟨t, ht, rfl⟩ := hk
    obtain ⟨m, -, hlook⟩ := h.marked t ht
    rw [hlook, Option.map_map]
    exact congrArg (Option.map · _) (funext (A.mark_remark n m _ i))
  · rw [h.others k fun t ht heq => hk ⟨t, ht, heq⟩]

theorem has_of_refreshed (h : A.Refreshed now us s s') (hx : A.Has s' x) : A.Has s x := by
  obtain ⟨r, hr, hsound⟩ := hx
  by_cases hmem : x ∈ us
  · obtain ⟨n, -, hlook⟩ := h.marked x hmem
    rw [hlook, Option.map_eq_some_iff] at hr
    obtain ⟨r', hr', rfl⟩ := hr
    exact ⟨r', hr', A.sound_mark.mp hsound⟩
  · exact ⟨r, (h.others _ (A.slot_ne_of_not_mem hmem)).symm.trans hr, hsound⟩

structure SameBut (A : Accounts σ key) (i j : Instant) (u v : σ) : Prop where
  entries : A.entries u = A.entries v
  look : ∀ k, A.look u k = A.look v k ∨
    ∃ b n, A.look u k = Option.map (A.mark n i) b ∧ A.look v k = Option.map (A.mark n j) b

theorem SameBut.eq (h : A.SameBut now now u v) : u = v := by
  refine A.ext_look h.entries fun k => ?_
  rcases h.look k with hk | ⟨b, n, hu, hv⟩
  · exact hk
  · rw [hu, hv]

theorem has_of_added {a b c b₀ s₀ : σ} (hchange : change old new a = .ok b)
    (hsome : A.Refreshed now us b c) (halike : A.AlikeAdded c s a s₀)
    (hchange₀ : change old new s₀ = .ok b₀) (hx : A.Has s x) : A.Has b₀ x := by
  unfold Has at hx ⊢
  rw [look_change hchange₀]
  rcases halike.look (A.slot x) with ⟨-, -, heq⟩ | ⟨hs, hs₀⟩
  · rwa [← heq]
  · rw [hs] at hx
    rw [hs₀, ← look_change hchange]
    exact has_of_refreshed hsome hx

theorem sameBut_of_added {a b c b₀ s₀ : σ} (hchange : change old new a = .ok b)
    (hsome : A.Refreshed now us b c) (hsub : us ⊆ ts) (halike : A.AlikeAdded c s a s₀)
    (hchange₀ : change old new s₀ = .ok b₀) (hentries : A.entries b₀ = A.entries b)
    (hall : A.Refreshed now ts b₀ v) (hhealed : A.Refreshed now' ts s u) :
    A.SameBut now'.wholeSecond now.wholeSecond u v := by
  have hsame : A.entries s = A.entries b₀ :=
    halike.left.trans (hsome.entries.trans hentries.symm)
  refine ⟨hhealed.entries.trans (hsame.trans hall.entries.symm), fun k => ?_⟩
  have hbefore : A.look b₀ k = A.look s₀ k := look_change hchange₀ k
  have hfirst : A.look b k = A.look a k := look_change hchange k
  by_cases hk : ∃ t ∈ ts, A.slot t = k
  · obtain ⟨t, ht, rfl⟩ := hk
    obtain ⟨n, hn, hlook⟩ := hall.marked t ht
    obtain ⟨m, hm, hlook'⟩ := hhealed.marked t ht
    obtain rfl : n = m := Except.ok.inj (hn.symm.trans ((A.sum_congr t hsame).symm.trans hm))
    refine .inr ⟨A.look b₀ (A.slot t), n, ?_, hlook⟩
    rw [hlook', hbefore]
    rcases halike.look (A.slot t) with ⟨-, -, heq⟩ | ⟨hs, hs₀⟩
    · rw [heq]
    · rw [hs, hs₀, map_mark_of_refreshed hsome, hfirst]
  · have hne : ∀ t ∈ ts, A.slot t ≠ k := fun t ht heq => hk ⟨t, ht, heq⟩
    left
    rw [hhealed.others k hne, hall.others k hne, hbefore]
    rcases halike.look k with ⟨-, -, heq⟩ | ⟨hs, hs₀⟩
    · exact heq
    · rw [hs, hs₀, hsome.others k fun t ht => hne t (hsub ht), hfirst]

theorem refreshed_of_stale (B : Books σ key) {id : EntryId} {cause : ServiceFault}
    (hnow : ∀ i ∈ r.clock?, i = now) (hmade : r.Makes policy d old new)
    (h : ((r.program policy).run d).1 = .entry (.error (.stale id cause))) : ∃ b us,
      change old new d.store = .ok b ∧ us ⊆ movedTotals old new ∧
        B.Refreshed now us b ((r.program policy).run d).2.store := by
  rcases B.change_of_makes hmade with ⟨b, hb⟩ | ⟨g, hg⟩
  · obtain ⟨e, he⟩ := hmade.exists_entry
    obtain ⟨x, d', hrun, hsettles⟩ :=
      B.run_recounting (Request.recounts_of_stale h) hnow hmade he hb
    obtain ⟨us, hpart, -, hrefreshed⟩ := B.exists_refreshed hsettles
    rw [hrun]
    exact ⟨b, us, hb, hpart.subset, hrefreshed⟩
  · cases hg.symm.trans h

theorem refreshed_of_has (hr : r.Recounts policy) (hnow : ∀ i ∈ r.clock?, i = now)
    (hmade : r.Makes policy d old new) {b : σ} (hb : change old new d.store = .ok b)
    (hhas : ∀ t ∈ movedTotals old new, A.Has b t ∧ ∃ n, t.sum b = .ok n) :
    (∃ e, ((r.program policy).run d).1 = .entry (.ok e)) ∧
      A.Refreshed now (movedTotals old new) b ((r.program policy).run d).2.store := by
  obtain ⟨e, he⟩ := hmade.exists_entry
  obtain ⟨x, d', hrun, hsettles⟩ := A.run_recounting hr hnow hmade he hb
  have hok : x = .ok () := by
    refine A.settles_ok hsettles (fun t ht => (hhas t ht).2) fun t ht => ?_
    obtain ⟨hr, n, hn⟩ := hhas t ht
    exact (A.trouble_eq_none hn).mpr hr
  subst hok
  obtain ⟨us, -, hall, hrefreshed⟩ := A.exists_refreshed hsettles
  obtain rfl := hall rfl
  rw [hrun]
  exact ⟨⟨e, rfl⟩, hrefreshed⟩

theorem makes_in (hmade : r.Makes policy d old new) {b : σ}
    (hentries : A.entries s = A.entries d.store) (hb : change old new d.store = .ok b) :
    r.Makes policy ⟨s, d.ids⟩ old new ∧
      ∃ b₀, change old new s = .ok b₀ ∧ A.entries b₀ = A.entries b := by
  have hmade₀ : r.Makes policy ⟨s, d.ids⟩ old new :=
    A.makes_congr (d := ⟨s, d.ids⟩) hentries.symm rfl hmade
  obtain ⟨b₀, hb₀⟩ := A.exists_change hmade₀ fun e he hold => by
    subst hold
    obtain ⟨⟩ := he
    exact A.inserts hb hentries
  refine ⟨hmade₀, b₀, hb₀, ?_⟩
  rw [A.entries_of_change (d := ⟨s, d.ids⟩) hb₀, A.entries_of_change hb, hentries]

/-- After a stale answer, the missing records are added and the totals that the change concerns brought up to
date: that is what the request does in a store that had the records. -/
theorem heals {id : EntryId} {cause : ServiceFault} {rs : List Request}
    (hnow : ∀ i ∈ r.clock?, i = now) (hmade : r.Makes policy d old new)
    (hstale : ((r.program policy).run d).1 = .entry (.error (.stale id cause)))
    (hadd : A.addAll items ((r.program policy).run d).2.store = some s)
    (hhas : ∀ t ∈ movedTotals old new, A.Has s t ∧ ∃ n, t.sum s = .ok n)
    (hrs : ∀ q ∈ rs, q.IsSync now') (hcover : ∀ t, Covers rs t ↔ t ∈ movedTotals old new) :
    ∃ s₀, A.addAll items d.store = some s₀ ∧
      (∃ e, ((r.program policy).run ⟨s₀, d.ids⟩).1 = .entry (.ok e)) ∧
      A.SameBut now'.wholeSecond now.wholeSecond
        ((session policy rs).run { ((r.program policy).run d).2 with store := s }).2.store
        ((r.program policy).run ⟨s₀, d.ids⟩).2.store := by
  obtain ⟨b, us, hb, hsub, hsome⟩ := refreshed_of_stale A.toBooks hnow hmade hstale
  have hnone (k : A.Slot) : A.look ((r.program policy).run d).2.store k = none ↔
      A.look d.store k = none := by
    have hmark := map_mark_of_refreshed hsome 0 now k
    rw [look_change hb] at hmark
    rw [← Option.map_eq_none_iff (f := A.mark 0 now), hmark, Option.map_eq_none_iff]
  obtain ⟨s₀, hs₀, halike⟩ := exists_addAll hnone hadd
  obtain ⟨hmade₀, b₀, hb₀, hentries⟩ := makes_in hmade halike.right hb
  have hsame : A.entries b₀ = A.entries s :=
    hentries.trans (hsome.entries.symm.trans halike.left.symm)
  have hhas₀ : ∀ t ∈ movedTotals old new, A.Has b₀ t ∧ ∃ n, t.sum b₀ = .ok n := by
    intro t ht
    obtain ⟨hrecord, n, hn⟩ := hhas t ht
    exact ⟨has_of_added hb hsome halike hb₀ hrecord, n, (A.sum_congr t hsame).trans hn⟩
  obtain ⟨hok, hall⟩ := refreshed_of_has (Request.recounts_of_stale hstale) hnow hmade₀ hb₀ hhas₀
  obtain ⟨vs, u, hrun, hhealed, hvs⟩ := refreshed_session A.toBooks hrs policy
    { ((r.program policy).run d).2 with store := s }
  have hmem (t : Total) : t ∈ movedTotals old new ↔ t ∈ vs := by
    rw [hvs, hcover, iff_self_and]
    intro ht
    obtain ⟨hrecord, n, hn⟩ := hhas t ht
    exact ⟨⟨n, hn⟩, (A.trouble_eq_none hn).mpr hrecord⟩
  rw [hrun]
  exact ⟨s₀, hs₀, hok,
    sameBut_of_added hb hsome hsub halike hb₀ hentries hall (hhealed.congr hmem)⟩

end Refreshed

end Accounts

end Accounts

namespace Memory

variable {m m' : Memory} {x : Task ⊕ Project}

def addRecord : Task ⊕ Project → Memory → Option Memory
  | .inl t, m => if m.tasks.find? t.id = none then some (m.putTask t) else none
  | .inr p, m => if m.projects.find? p.id = none then some (m.putProject p) else none

def recordTotal : Task ⊕ Project → Total
  | .inl t => .task t.id
  | .inr p => .project p.id

theorem addRecord_eq_some (h : addRecord x m = some m') : m'.entries = m.entries ∧
    m.look (recordTotal x) = none ∧ m'.look (recordTotal x) = some x ∧
      ∀ t, recordTotal x ≠ t → m'.look t = m.look t := by
  cases x with
  | inl k =>
    obtain ⟨hnone, hm⟩ := Option.ite_none_right_eq_some.mp h
    obtain rfl := Option.some.inj hm
    refine ⟨rfl, by simp [look, recordTotal, hnone], ?_, fun t ht => ?_⟩
    · exact congrArg (Option.map _) (m.tasks.find?_put_self k)
    · cases t with
      | task id => exact congrArg (Option.map _) (m.tasks.find?_put_of_ne fun h => ht (congrArg _ h))
      | project id => rfl
  | inr p =>
    obtain ⟨hnone, hm⟩ := Option.ite_none_right_eq_some.mp h
    obtain rfl := Option.some.inj hm
    refine ⟨rfl, by simp [look, recordTotal, hnone], ?_, fun t ht => ?_⟩
    · exact congrArg (Option.map _) (m.projects.find?_put_self p)
    · cases t with
      | task id => rfl
      | project id =>
        exact congrArg (Option.map _) (m.projects.find?_put_of_ne fun h => ht (congrArg _ h))

def accounts : Accounts Memory Entry.id where
  toBooks := books
  Sound _ := True
  place := recordTotal
  record x := some x
  add := addRecord
  sound_mark := Iff.rfl
  mark_remark := mark_mark
  trouble_eq_none {m t n} _ := by
    change m.trouble t = none ↔ ∃ r, m.look t = some r ∧ True
    cases h : m.look t <;> simp [trouble, h]
  look_insert h k := by
    obtain ⟨⟩ := h
    cases k <;> rfl
  look_erase h k := by
    obtain ⟨-, rfl⟩ := erase_eq_ok.mp h
    cases k <;> rfl
  inserts _ _ := ⟨_, rfl⟩
  add_eq_some h := by
    obtain ⟨hentries, hnone, hsome, hothers⟩ := addRecord_eq_some h
    exact ⟨hentries, _, rfl, hnone, hsome, hothers⟩
  adds {m x r} hr h := by
    cases x with
    | inl t => exact ⟨_, if_pos (Option.map_eq_none_iff.mp h)⟩
    | inr p => exact ⟨_, if_pos (Option.map_eq_none_iff.mp h)⟩

end Memory

namespace Database

variable {d d' : Database} {x : Task ⊕ Project}

def addRecord : Task ⊕ Project → Database → Option Database
  | .inl t, d => (d.insertTask t).toOption
  | .inr p, d => (d.insertProject p).toOption

def recordSlot : Task ⊕ Project → RowKey ⊕ RowKey
  | .inl t => .inl (.named t.id.text)
  | .inr p => .inr (.named p.id.text)

def recordRow : Task ⊕ Project → Option (TaskRow ⊕ ProjectRow)
  | .inl t => some (.inl (.ofTask t))
  | .inr p => (ProjectRow.ofProject p).toOption.map .inr

theorem insertProject_eq_ok {p : Project} : d.insertProject p = .ok d' ↔
    ∃ r, ProjectRow.ofProject p = .ok r ∧ d.projects.find? r.key = none ∧
      d' = { d with projects := d.projects.put r } := by
  unfold insertProject Shelf.contains
  cases ProjectRow.ofProject p with
  | error f => simp [bind, Except.bind]
  | ok r =>
    cases h : d.projects.find? r.key <;>
      simp [bind, Except.bind, pure, Except.pure, h, throw, throwThe, MonadExceptOf.throw, eq_comm]

theorem addRecord_eq_some (h : addRecord x d = some d') : d'.entries = d.entries ∧
    ∃ r, recordRow x = some r ∧ d.look (recordSlot x) = none ∧ d'.look (recordSlot x) = some r ∧
      ∀ k, recordSlot x ≠ k → d'.look k = d.look k := by
  cases x with
  | inl t =>
    obtain ⟨hnone, rfl⟩ := insertTask_eq_ok.mp (eq_ok_of_toOption h)
    refine ⟨rfl, _, rfl, by simp [look, recordSlot, hnone], ?_, fun k hk => ?_⟩
    · exact congrArg (Option.map _) (d.tasks.find?_put_self (.ofTask t))
    · cases k with
      | inl k => exact congrArg (Option.map _) (d.tasks.find?_put_of_ne fun h => hk (congrArg _ h))
      | inr k => rfl
  | inr p =>
    obtain ⟨r, hr, hnone, rfl⟩ := insertProject_eq_ok.mp (eq_ok_of_toOption h)
    have hkey : r.key = .named p.id.text := by
      obtain ⟨-, rfl⟩ := ProjectRow.ofProject_eq_ok.mp hr
      rfl
    rw [hkey] at hnone
    refine ⟨rfl, .inr r, by simp [recordRow, hr, Except.toOption],
      by simp [look, recordSlot, hnone], ?_, fun k hk => ?_⟩
    · exact congrArg (Option.map _) (d.projects.find?_put_of_eq hkey)
    · cases k with
      | inl k => rfl
      | inr k =>
        refine congrArg (Option.map _) (d.projects.find?_put_of_ne fun h => hk ?_)
        exact congrArg Sum.inr (hkey.symm.trans h)

theorem exists_addRecord {r : TaskRow ⊕ ProjectRow} (hr : recordRow x = some r)
    (h : d.look (recordSlot x) = none) : ∃ d', addRecord x d = some d' := by
  cases x with
  | inl t =>
    have hadd := insertTask_eq_ok.mpr ⟨Option.map_eq_none_iff.mp h, rfl⟩
    exact ⟨_, congrArg Except.toOption hadd⟩
  | inr p =>
    obtain ⟨row, hrow, -⟩ := Option.map_eq_some_iff.mp hr
    have hproject := eq_ok_of_toOption hrow
    obtain ⟨-, rfl⟩ := ProjectRow.ofProject_eq_ok.mp hproject
    have hadd := insertProject_eq_ok.mpr ⟨_, hproject, Option.map_eq_none_iff.mp h, rfl⟩
    exact ⟨_, congrArg Except.toOption hadd⟩

def IsSound : TaskRow ⊕ ProjectRow → Prop
  | .inl _ => True
  | .inr r => ∃ n, r.autoEstimates = .integer n

theorem block_eq_none {o : Option (TaskRow ⊕ ProjectRow)} :
    block o = none ↔ ∃ r, o = some r ∧ IsSound r := by
  rcases o with - | r | r
  · simp [block]
  · simp [block, IsSound]
  · cases h : r.autoEstimates.readBool 0 "auto_estimates" with
    | ok b =>
      obtain ⟨n, hn, -⟩ := NumberCell.readBool_eq_ok.mp h
      exact iff_of_true (by simp [block, h]) ⟨_, rfl, n, hn⟩
    | error e =>
      simp only [block, h, reduceCtorEq, false_iff]
      rintro ⟨_, ⟨⟩, n, hn⟩
      cases h.symm.trans (NumberCell.readBool_eq_ok.mpr ⟨n, hn, rfl⟩)

def accounts : Accounts Database EntryRow.key where
  toBooks := books
  Sound := IsSound
  place := recordSlot
  record := recordRow
  add := addRecord
  sound_mark {n now r} := by
    cases r with
    | inl r => exact Iff.rfl
    | inr r => cases h : follows r <;> simp [books, mark, IsSound, h]
  mark_remark := mark_mark
  trouble_eq_none {d t n} h := by
    change d.trouble t = none ↔ _
    rw [trouble, if_pos (strays_of_sum h), Option.map_eq_none_iff, block_eq_none]
    rfl
  look_insert h k := by
    obtain ⟨-, rfl⟩ := insert_eq_ok.mp h
    cases k <;> rfl
  look_erase h k := by
    obtain ⟨-, rfl⟩ := erase_eq_ok.mp h
    cases k <;> rfl
  inserts {s s' t e} h hentries := by
    have heq : t.entries = s.entries := hentries
    obtain ⟨hnone, -⟩ := insert_eq_ok.mp h
    exact ⟨_, insert_eq_ok.mpr ⟨heq ▸ hnone, rfl⟩⟩
  add_eq_some := addRecord_eq_some
  adds := exists_addRecord

end Database

end Timesheet
