import Timesheet.Proofs.Bounds

/-!
What leads a ranking. A stable sort of records that ascend in their keys ranks records that compare
alike by their keys, so that cutting it short leaves the first of them and no others. Main statement:
the two lists of a dashboard are the shortest of the entries that stopped in its seven days, and the
latest of all entries.
-/

namespace Timesheet

open Service

section Sorting

variable {α : Type} {r : α → α → Prop} {a b : α} {s : List α}

theorem not_sublist_of_nodup (hs : s.Nodup) (hab : [a, b].Sublist s) : ¬[b, a].Sublist s := by
  induction s with
  | nil => cases hab
  | cons c s ih =>
    obtain ⟨hc, hs⟩ := List.nodup_cons.mp hs
    have hmem {x y : α} (h : [x, y].Sublist s) : y ∈ s := h.subset (by simp)
    intro hba
    rcases List.sublist_cons_iff.mp hab with hab' | ⟨_, ⟨⟩, hb⟩
    · rcases List.sublist_cons_iff.mp hba with hba' | ⟨_, ⟨⟩, -⟩
      · exact ih hs hab' hba'
      · exact hc (hmem hab')
    · rcases List.sublist_cons_iff.mp hba with hba' | ⟨_, ⟨⟩, -⟩
      · exact hc (hmem hba')
      · exact hc (List.singleton_sublist.mp hb)

theorem pairwise_mergeSort_stable (le : α → α → Bool)
    (trans : ∀ a b c, le a b = true → le b c = true → le a c = true)
    (total : ∀ a b, (le a b || le b a) = true) (hnodup : s.Nodup) (hs : s.Pairwise r) :
    (s.mergeSort le).Pairwise fun a b => le a b = true ∧ (le b a = true → r a b) := by
  have hsorted := List.pairwise_mergeSort trans total s
  have hkept : (s.mergeSort le).Nodup := (List.mergeSort_perm s le).nodup_iff.mpr hnodup
  rw [List.pairwise_iff_forall_sublist] at hs hsorted ⊢
  intro a b hab
  refine ⟨hsorted hab, fun hba => ?_⟩
  have ha : a ∈ s := List.mem_mergeSort.mp (hab.subset (by simp))
  have hb : b ∈ s := List.mem_mergeSort.mp (hab.subset (by simp))
  have hne : a ≠ b := by
    rintro rfl
    have hpair := hkept.sublist hab
    simp at hpair
  -- One of the two came before the other, and sorting them anew would not have swapped them.
  have heither : s.Pairwise fun x y => [x, y].Sublist s ∨ [y, x].Sublist s :=
    List.pairwise_iff_forall_sublist.mpr .inl
  have : Std.Symm fun x y : α => [x, y].Sublist s ∨ [y, x].Sublist s := ⟨fun _ _ => Or.symm⟩
  rcases heither.forall ha hb hne with hin | hin
  · exact hs hin
  · exact absurd hab
      (not_sublist_of_nodup hkept (List.pair_sublist_mergeSort trans total hba hin))

end Sorting

/-- The first of the records in `s`, at most `limit` of them, in the order `r`. -/
structure Leads {α : Type} (r : α → α → Prop) (limit : Nat) (s listed : List α) : Prop where
  sorted : listed.Pairwise r
  nodup : listed.Nodup
  subset : listed ⊆ s
  length : listed.length = min limit s.length
  rest : ∀ a ∈ listed, ∀ b ∈ s, b ∉ listed → r a b

namespace Leads

variable {α : Type} {r : α → α → Prop} {limit : Nat} {s t listed other : List α}

theorem of_take (hperm : t.Perm s) (hnodup : s.Nodup) (hsorted : t.Pairwise r) :
    Leads r limit s (t.take limit) := by
  have happend := List.take_append_drop limit t
  refine ⟨hsorted.sublist (List.take_sublist _ _),
    (hperm.nodup_iff.mpr hnodup).sublist (List.take_sublist _ _),
    fun a ha => hperm.subset (List.mem_of_mem_take ha), ?_, fun a ha b hb hnot => ?_⟩
  · rw [List.length_take, hperm.length_eq]
  · rw [← happend] at hsorted
    refine (List.pairwise_append.mp hsorted).2.2 a ha b ?_
    have hmem := hperm.mem_iff.mpr hb
    rw [← happend] at hmem
    exact (List.mem_append.mp hmem).resolve_left hnot

theorem unique (hr : ∀ a b, r a b → ¬r b a) (h : Leads r limit s listed)
    (h' : Leads r limit s other) : listed = other := by
  have hsubset {u v : List α} (hu : Leads r limit s u) (hv : Leads r limit s v) : u ⊆ v := by
    intro a ha
    by_contra hnot
    -- Something else must be in the place of the record that is missing, and ranks behind it too.
    obtain ⟨b, hb, hbu⟩ : ∃ b ∈ v, b ∉ u := by
      by_contra hall
      push Not at hall
      have hle : u.length ≤ v.length := (hu.length.trans hv.length.symm).le
      have hperm := (List.subperm_of_subset hv.nodup hall).perm_of_length_le hle
      exact hnot (hperm.mem_iff.mpr ha)
    exact hr a b (hu.rest a ha b (hv.subset hb) hbu) (hv.rest b hb a (hu.subset ha) hnot)
  have hperm : listed.Perm other := (List.perm_ext_iff_of_nodup h.nodup h'.nodup).mpr
    fun a => ⟨fun ha => hsubset h h' ha, fun ha => hsubset h' h ha⟩
  exact hperm.eq_of_pairwise (fun a b _ _ hab hba => absurd hba (hr a b hab)) h.sorted h'.sorted

end Leads

namespace Entry

/-- A shorter entry ranks before a longer one, and the lower identifier before the higher one. -/
def RanksShorter (a b : Entry) : Prop :=
  a.duration < b.duration ∨ a.duration = b.duration ∧ a.id.uuid.number < b.id.uuid.number

/-- A later start ranks before an earlier one, and the lower identifier before the higher one. -/
def RanksLater (a b : Entry) : Prop :=
  b.start < a.start ∨ a.start = b.start ∧ a.id.uuid.number < b.id.uuid.number

def StoppedIn (first last : Instant) (e : Entry) : Prop :=
  ∃ stop ∈ e.stop, first ≤ stop ∧ stop ≤ last

theorem stoppedIn_iff {first last : Instant} {e : Entry} :
    Memory.stoppedIn first last e = true ↔ e.StoppedIn first last := by
  simp [StoppedIn, Memory.stoppedIn, Option.any_eq_true]

instance (first last : Instant) : DecidablePred (StoppedIn first last) :=
  fun _ => decidable_of_iff _ stoppedIn_iff

instance (a b : Entry) : Decidable (a.RanksShorter b) :=
  inferInstanceAs (Decidable (_ ∨ _))

instance (a b : Entry) : Decidable (a.RanksLater b) :=
  inferInstanceAs (Decidable (_ ∨ _))

theorem RanksShorter.asymm {a b : Entry} (h : a.RanksShorter b) : ¬b.RanksShorter a := by
  unfold RanksShorter at h ⊢
  omega

theorem RanksLater.asymm {a b : Entry} (h : a.RanksLater b) : ¬b.RanksLater a := by
  unfold RanksLater at h ⊢
  rw [Instant.lt_def, Instant.ext_iff] at h ⊢
  omega

end Entry

namespace Memory

variable (m : Memory) (user : UserId)

theorem nodup_entries : m.entries.items.Nodup :=
  m.entries.nodup_keys.of_map _

theorem ascending_filter (p : Entry → Bool) :
    (m.entries.items.filter p).Pairwise fun a b => a.id.uuid.number < b.id.uuid.number :=
  (m.entries.ascending.imp fun h => of_decide_eq_true h).filter _

theorem leads_noLonger (p : Entry → Bool) (limit : Nat) :
    Leads Entry.RanksShorter limit (m.entries.items.filter p)
      (((m.entries.items.filter p).mergeSort noLonger).take limit) := by
  have hnodup := (m.nodup_entries).filter p
  refine .of_take (List.mergeSort_perm _ _) hnodup ?_
  have hstable := pairwise_mergeSort_stable noLonger
    (fun a b c hab hbc => decide_eq_true ((of_decide_eq_true hab).trans (of_decide_eq_true hbc)))
    (fun a b => by simpa [noLonger] using le_total a.duration b.duration)
    hnodup (m.ascending_filter p)
  refine hstable.imp fun {a b} h => ?_
  rcases lt_or_eq_of_le (of_decide_eq_true h.1) with hlt | heq
  · exact .inl hlt
  · exact .inr ⟨heq, h.2 (decide_eq_true heq.ge)⟩

theorem leads_noEarlier (p : Entry → Bool) (limit : Nat) :
    Leads Entry.RanksLater limit (m.entries.items.filter p)
      (((m.entries.items.filter p).mergeSort noEarlier).take limit) := by
  have hnodup := (m.nodup_entries).filter p
  refine .of_take (List.mergeSort_perm _ _) hnodup ?_
  have hstable := pairwise_mergeSort_stable noEarlier
    (fun a b c hab hbc => decide_eq_true
      (Instant.le_trans (of_decide_eq_true hbc) (of_decide_eq_true hab)))
    (fun a b => by simpa [noEarlier] using Instant.le_total b.start a.start)
    hnodup (m.ascending_filter p)
  refine hstable.imp fun {a b} h => ?_
  by_cases heq : a.start = b.start
  · exact .inr ⟨heq, h.2 (decide_eq_true (heq ▸ Instant.le_refl _))⟩
  · have hle : b.start ≤ a.start := of_decide_eq_true h.1
    refine .inl ?_
    rw [Instant.ext_iff] at heq
    rw [Instant.le_def] at hle
    rw [Instant.lt_def]
    omega

theorem ofUser_filter (p : Entry → Bool) :
    (m.ofUser user).filter p = m.entries.items.filter fun e => p e && decide (e.user = user) :=
  List.filter_filter

end Memory

/-- A dashboard has the five shortest of the owner's entries that stopped in the last seven days, and
the twenty of all of them that started last; what it leaves out ranks behind what it has. -/
theorem dashboard_leads (policy : Policy) {owner : String} {user : UserId} {now first : Instant}
    (m : Memory) (ids : IdSource) (howner : Identifier.parse .user owner = .ok user)
    (hfirst : now.addSeconds? (-(7 * 86400)) = some first) :
    ∃ mostActive recent : List Entry,
      (((Request.dashboard owner now).program policy).run ⟨m, ids⟩).1 =
        .dashboard (.ok ⟨mostActive, recent⟩) ∧
      Leads Entry.RanksShorter 5
        (m.entries.items.filter fun e => e.StoppedIn first now ∧ e.user = user) mostActive ∧
      Leads Entry.RanksLater 20 (m.entries.items.filter fun e => e.user = user) recent := by
  have hstart : dashboardStart now = first := by
    rw [dashboardStart, dashboardSeconds, hfirst]
    rfl
  have hactive := m.leads_noLonger (fun e => e.StoppedIn first now ∧ e.user = user) 5
  have hrecent := m.leads_noEarlier (fun e => e.user = user) 20
  refine ⟨_, _, dashboard_reply policy howner ?_ ?_, hactive, hrecent⟩
  · rw [hstart]
    change Memory.stoppedBetween m user first now 5 = _
    have hstopped : (m.ofUser user).filter (Memory.stoppedIn first now) =
        m.entries.items.filter fun e => e.StoppedIn first now ∧ e.user = user := by
      rw [Memory.ofUser_filter]
      refine List.filter_congr fun e _ => ?_
      rw [Bool.decide_and, Bool.eq_iff_iff.mpr (Entry.stoppedIn_iff.trans decide_eq_true_iff.symm)]
    rw [Memory.stoppedBetween, hstopped]
  · rfl

def secondsLater (n : Nat) : Instant :=
  (Instant.epoch.addSeconds? n).getD .epoch

def lap (n : Nat) : Entry :=
  let seconds := if n % 2 = 0 then 30 else 60
  { timerFrom (secondsLater (100 * n)) with
    id := ⟨.ofNat n⟩, stop := some (secondsLater (100 * n + seconds)), duration := seconds }

def laps : Memory where
  entries := [lap 1, lap 2, lap 3, lap 4, lap 5, lap 6, lap 7].foldl Shelf.put Shelf.empty

theorem dashboard_leads_laps :
    (((Request.dashboard "00000000-0000-0000-0000-000000000002" (secondsLater 1000)).program
      {}).run ⟨laps, .after 7⟩).1 =
        .dashboard (.ok ⟨[lap 2, lap 4, lap 6, lap 1, lap 3],
          [lap 7, lap 6, lap 5, lap 4, lap 3, lap 2, lap 1]⟩) := by
  have howner : Identifier.parse .user "00000000-0000-0000-0000-000000000002" =
      .ok ⟨.ofNat 2⟩ := by decide +kernel
  have hfirst : (secondsLater 1000).addSeconds? (-(7 * 86400)) =
      some (.ofSecond (-603800) (by decide)) := by decide +kernel
  obtain ⟨mostActive, recent, hreply, hactive, hrecent⟩ :=
    dashboard_leads {} laps (.after 7) howner hfirst
  have hshort : mostActive = [lap 2, lap 4, lap 6, lap 1, lap 3] :=
    hactive.unique (fun _ _ => Entry.RanksShorter.asymm)
      ⟨by decide +kernel, by decide +kernel, by decide +kernel, by decide +kernel,
        by decide +kernel⟩
  have hlate : recent = [lap 7, lap 6, lap 5, lap 4, lap 3, lap 2, lap 1] :=
    hrecent.unique (fun _ _ => Entry.RanksLater.asymm)
      ⟨by decide +kernel, by decide +kernel, by decide +kernel, by decide +kernel,
        by decide +kernel⟩
  rw [hreply, hshort, hlate]

end Timesheet
