import Timesheet.Proofs.Books
import Timesheet.Proofs.Totals

/-!
Batches in another order. Each item changes the record of its own entry, and the last item that moves a
total leaves it at the sum over all of them. Main statement: whatever the order, a batch leaves the same
entries and gives every identifier the same result, and the same totals unless one is left stale.
-/

namespace Timesheet

open Service

variable {σ κ ρ : Type} [Store σ] [KeyOrder κ] [DecidableEq κ] {key : ρ → κ}

namespace Service.BatchItem

def IsStale (i : BatchItem) : Prop :=
  (Reply.entry i.result).IsStale

instance : DecidablePred IsStale :=
  fun i => inferInstanceAs (Decidable (Reply.entry i.result).IsStale)

def Overflows (i : BatchItem) : Prop :=
  ∃ e a, i.result = .error (.stale e (.store a Total.overflow))

end Service.BatchItem

def Overflowed (σ : Type) [Store σ] (f : ServiceFault) : Prop :=
  ∃ (s : σ) (t : Total), t.sum s = .error Total.overflow ∧ f = t.sumFault Total.overflow

namespace Books

variable (B : Books σ key) {s s' : σ} {ts : List Total} {r : Except ServiceFault Unit} {now : Instant}

def settled (s : σ) (ts : List Total) : Except ServiceFault Unit :=
  (ts.findSome? (B.trouble s)).elim (.ok ()) .error

theorem settled_cons {t : Total} : B.settled s (t :: ts) =
    (B.trouble s t).elim (B.settled s ts) .error := by
  unfold settled
  rw [List.findSome?_cons]
  cases B.trouble s t <;> rfl

theorem settled_congr (h : ∀ t, B.trouble s' t = B.trouble s t) (ts : List Total) :
    B.settled s' ts = B.settled s ts := by
  rw [settled, settled, funext h]

theorem entries_settles (h : Settles now s ts r s') : B.entries s' = B.entries s := by
  induction h with
  | next hsum hwrite h ih => exact ih.trans (B.entries_write hwrite)
  | _ => rfl

theorem trouble_settles (h : Settles now s ts r s') (t : Total) : B.trouble s' t = B.trouble s t := by
  induction h with
  | next hsum hwrite h ih => exact ih.trans (B.trouble_write hwrite t)
  | _ => rfl

theorem result_settles (h : Settles now s ts r s') :
    r = B.settled s ts ∨ ∃ f, r = .error f ∧ Overflowed σ f := by
  induction h with
  | done s => exact .inl rfl
  | @unsummed s t ts f hsum =>
    rcases B.trouble_unsummed hsum with rfl | htrouble
    · exact .inr ⟨_, rfl, s, t, hsum, rfl⟩
    · exact .inl (by rw [settled_cons, htrouble, Option.elim_some])
  | unwritten hsum hwrite =>
    exact .inl (by rw [settled_cons, B.trouble_unwritten hsum hwrite, Option.elim_some])
  | next hsum hwrite h ih =>
    rwa [settled_cons, B.trouble_written hsum hwrite, Option.elim_none,
      ← B.settled_congr (B.trouble_write hwrite)]

theorem slot_ne_of_not_mem {t : Total} (h : t ∉ ts) : ∀ u ∈ ts, B.slot u ≠ B.slot t := by
  intro u hu heq
  obtain rfl := B.slot_inj heq
  exact h hu

theorem look_settles_of_ne (h : Settles now s ts r s') {k : B.Slot} (hk : ∀ t ∈ ts, B.slot t ≠ k) :
    B.look s' k = B.look s k := by
  induction h with
  | next hsum hwrite h ih =>
    rw [ih fun t ht => hk t (List.mem_cons_of_mem _ ht)]
    exact B.look_write_of_ne hwrite (hk _ List.mem_cons_self)
  | _ => rfl

theorem look_settles (h : Settles now s ts (.ok ()) s') {t : Total} (ht : t ∈ ts) :
    ∃ n, t.sum s = .ok n ∧
      B.look s' (B.slot t) = (B.look s (B.slot t)).map (B.mark n now.wholeSecond) := by
  generalize hr : Except.ok () = r at h
  induction h with
  | done s => cases ht
  | unsummed hsum => cases hr
  | unwritten hsum hwrite => cases hr
  | @next s s₁ s₂ u ts n r hsum hwrite h ih =>
    -- A total that comes again is marked again, with the same sum: no entry has changed since.
    by_cases htail : t ∈ ts
    · obtain ⟨m, hm, hlook⟩ := ih htail hr
      rw [B.sum_congr t (B.entries_write hwrite)] at hm
      refine ⟨m, hm, ?_⟩
      by_cases hu : B.slot u = B.slot t
      · obtain rfl := B.slot_inj hu
        rw [hlook, B.look_write hwrite, Option.map_map]
        exact congrArg (Option.map · _) (funext (B.mark_mark m n _))
      · rw [hlook, B.look_write_of_ne hwrite hu]
    · obtain rfl := (List.mem_cons.mp ht).resolve_right htail
      refine ⟨n, hsum, ?_⟩
      rw [B.look_settles_of_ne h (B.slot_ne_of_not_mem htail), B.look_write hwrite]

end Books

def Apart (s : σ) (a b : String) : Prop :=
  ∀ id e, Identifier.parse .entry a = .ok id → Store.fetch s id = .ok e →
    Identifier.parse .entry b ≠ .ok id

theorem Apart.symm {s : σ} {a b : String} (h : Apart s a b) : Apart s b a :=
  fun id e hb hfetch ha => h id e ha hfetch hb

theorem apart_of_parse_ne {s : σ} {a b : String}
    (h : Identifier.parse .entry a ≠ Identifier.parse .entry b) : Apart s a b :=
  fun _ _ ha _ hb => h (ha.trans hb.symm)

namespace Revision

variable (R : Revision) (B : Books σ key) {s₀ s s' : σ} {text : String} {texts done : List String}
  {e e' : Entry} {x : Except ServiceFault Entry}

def outcome (text : String) (s : σ) : Except ServiceFault Entry := do
  let (e, e') ← R.attempt text s
  if R.follows then
    (B.settled s (totals e e')).mapError (.stale e.id)
    return e'
  else return e'

def Moves (s : σ) (text : String) (t : Total) : Prop :=
  R.follows = true ∧ ∃ e e', R.attempt text s = .ok (e, e') ∧ t ∈ totals e e'

structure Revised (s₀ : σ) (done : List String) (s : σ) : Prop where
  edited : ∀ text ∈ done, ∀ e e', R.attempt text s₀ = .ok (e, e') →
    (B.entries s).find? (B.name e'.id) = some (B.write e')
  others : ∀ k, (∀ text ∈ done, ∀ e e', R.attempt text s₀ = .ok (e, e') → B.name e'.id ≠ k) →
    (B.entries s).find? k = (B.entries s₀).find? k
  trouble : ∀ t, B.trouble s t = B.trouble s₀ t

structure Marked (s₀ : σ) (done : List String) (s : σ) : Prop where
  moved : ∀ text ∈ done, ∀ t, R.Moves s₀ text t → ∃ n, t.sum s = .ok n ∧
    B.look s (B.slot t) = (B.look s₀ (B.slot t)).map (B.mark n R.now.wholeSecond)
  others : ∀ k, (∀ text ∈ done, ∀ t, R.Moves s₀ text t → B.slot t ≠ k) → B.look s k = B.look s₀ k

variable {R B}

theorem id_of_attempt (B : Books σ key) (h : R.attempt text s = .ok (e, e')) :
    Identifier.parse .entry text = .ok e'.id ∧ Store.fetch s e'.id = .ok e ∧ e'.id = e.id := by
  obtain ⟨id, hid, hfetch, happly⟩ := R.attempt_eq_ok.mp h
  have heq := R.id_of_apply happly
  obtain rfl := B.id_of_fetch hfetch
  rw [heq]
  exact ⟨hid, hfetch, rfl⟩

theorem not_unsaved (B : Books σ key) {f : StoreFault} (h : R.attempt text s = .ok (e, e')) :
    Store.replace s e' ≠ .error f := by
  intro hreplace
  obtain ⟨s₁, hs₁⟩ := B.replaces (id_of_attempt B h).2.1
  cases hreplace.symm.trans hs₁

section Tried

variable (B) (h : R.Tried text s x s')

include h

omit [DecidableEq κ] in
theorem tried_failed {f : ServiceFault} (hf : R.attempt text s = .error f) : s' = s := by
  cases h with
  | failed h => rfl
  | unsaved hattempt | saved hattempt | settled hattempt => cases hf.symm.trans hattempt

theorem entries_tried (hattempt : R.attempt text s = .ok (e, e')) :
    B.entries s' = B.put e' (B.entries s) := by
  cases h with
  | failed hf => cases hattempt.symm.trans hf
  | unsaved h hreplace => exact absurd hreplace (not_unsaved B h)
  | saved h hreplace hfollows =>
    obtain ⟨⟩ := hattempt.symm.trans h
    exact B.entries_replace hreplace
  | settled h hreplace hfollows hsettles =>
    obtain ⟨⟩ := hattempt.symm.trans h
    exact (B.entries_settles hsettles).trans (B.entries_replace hreplace)

theorem trouble_tried (t : Total) : B.trouble s' t = B.trouble s t := by
  cases h with
  | failed hf => rfl
  | unsaved h hreplace => rfl
  | saved h hreplace hfollows => exact B.trouble_replace (id_of_attempt B h).2.1 hreplace t
  | settled h hreplace hfollows hsettles =>
    exact (B.trouble_settles hsettles t).trans
      (B.trouble_replace (id_of_attempt B h).2.1 hreplace t)

theorem result_tried :
    x = R.outcome B text s ∨ ∃ e f, x = .error (.stale e f) ∧ Overflowed σ f := by
  cases h with
  | failed hf =>
    left
    rw [outcome, hf]
    rfl
  | unsaved h hreplace => exact absurd hreplace (not_unsaved B h)
  | saved h hreplace hfollows =>
    left
    rw [outcome, h, hfollows]
    rfl
  | @settled e e' s₁ _ r h hreplace hfollows hsettles =>
    have hcongr := B.settled_congr (B.trouble_replace (id_of_attempt B h).2.1 hreplace)
    rcases B.result_settles hsettles with rfl | ⟨f, rfl, hf⟩
    · left
      rw [hcongr, outcome, h, hfollows]
      rfl
    · exact .inr ⟨e.id, f, rfl, hf⟩

end Tried

theorem Revised.nil (R : Revision) (B : Books σ key) (s : σ) : R.Revised B s [] s :=
  ⟨fun _ h => absurd h List.not_mem_nil, fun _ _ => rfl, fun _ => rfl⟩

theorem Marked.nil (R : Revision) (B : Books σ key) (s : σ) : R.Marked B s [] s :=
  ⟨fun _ h => absurd h List.not_mem_nil, fun _ _ => rfl⟩

namespace Revised

theorem attempt_eq (h : R.Revised B s₀ done s) (hapart : ∀ a ∈ done, Apart s₀ a text) :
    R.attempt text s = R.attempt text s₀ := by
  unfold attempt
  cases hid : Identifier.parse .entry text with
  | error g => rfl
  | ok id =>
    have hfetch : Store.fetch s id = Store.fetch s₀ id := by
      apply B.fetch_of_find?
      apply h.others
      intro a ha e e' hattempt heq
      obtain ⟨hid', hfetch, -⟩ := id_of_attempt B hattempt
      rw [B.name_inj.mp heq] at hid' hfetch
      exact hapart a ha id e hid' hfetch hid
    change (Store.fetch s id).mapError _ >>= _ = (Store.fetch s₀ id).mapError _ >>= _
    rw [hfetch]

theorem outcome_eq (h : R.Revised B s₀ done s) (hapart : ∀ a ∈ done, Apart s₀ a text) :
    R.outcome B text s = R.outcome B text s₀ := by
  unfold outcome
  rw [h.attempt_eq hapart]
  simp only [B.settled_congr h.trouble]

theorem tried (h : R.Revised B s₀ done s) (hapart : ∀ a ∈ done, Apart s₀ a text)
    (hx : R.Tried text s x s') : R.Revised B s₀ (done ++ [text]) s' := by
  have hattempt := h.attempt_eq hapart
  have htrouble (t : Total) : B.trouble s' t = B.trouble s₀ t :=
    (trouble_tried B hx t).trans (h.trouble t)
  cases h₀ : R.attempt text s₀ with
  | error f =>
    obtain rfl := tried_failed hx (hattempt.trans h₀)
    refine ⟨?_, fun k hk => h.others k fun a ha => hk a (List.mem_append_left _ ha), htrouble⟩
    rw [List.forall_mem_append, List.forall_mem_singleton]
    exact ⟨h.edited, fun e e' hok => nomatch h₀.symm.trans hok⟩
  | ok p =>
    obtain ⟨e, e'⟩ := p
    have hentries := entries_tried B hx (hattempt.trans h₀)
    obtain ⟨hid, -⟩ := id_of_attempt B h₀
    refine ⟨?_, fun k hk => ?_, htrouble⟩
    · rw [List.forall_mem_append, List.forall_mem_singleton]
      constructor
      -- An item apart from this one names another entry, whose record stays.
      · intro a ha e₁ e₁' hok
        obtain ⟨hid₁, hfetch₁, -⟩ := id_of_attempt B hok
        have hne : e'.id ≠ e₁'.id := fun heq => hapart a ha _ _ hid₁ hfetch₁ (heq ▸ hid)
        rw [hentries, B.find?_put_of_ne _ (mt B.name_inj.mp hne)]
        exact h.edited a ha e₁ e₁' hok
      · intro e₁ e₁' hok
        obtain ⟨⟩ := h₀.symm.trans hok
        rw [hentries]
        exact B.find?_put_self _ e'
    · rw [List.forall_mem_append, List.forall_mem_singleton] at hk
      rw [hentries, B.find?_put_of_ne _ (hk.2 e e' h₀)]
      exact h.others k hk.1

theorem entries_eq {texts' : List String} (h : R.Revised B s₀ texts s)
    (h' : R.Revised B s₀ texts' s') (hmem : ∀ a, a ∈ texts' ↔ a ∈ texts) :
    B.entries s' = B.entries s := by
  apply Shelf.ext_find?
  intro k
  by_cases hk : ∃ a ∈ texts, ∃ e e', R.attempt a s₀ = .ok (e, e') ∧ B.name e'.id = k
  · obtain ⟨a, ha, e, e', hok, rfl⟩ := hk
    rw [h.edited a ha e e' hok, h'.edited a ((hmem a).mpr ha) e e' hok]
  · have hnot : ∀ a ∈ texts, ∀ e e', R.attempt a s₀ = .ok (e, e') → B.name e'.id ≠ k :=
      fun a ha e e' hok hname => hk ⟨a, ha, e, e', hok, hname⟩
    rw [h.others k hnot, h'.others k fun a ha => hnot a ((hmem a).mp ha)]

end Revised

namespace Marked

theorem idle (h : R.Marked B s₀ done s) (hnone : ∀ t, ¬R.Moves s₀ text t)
    (hsum : ∀ a ∈ done, ∀ t, R.Moves s₀ a t → t.sum s' = t.sum s)
    (hlook : ∀ k, B.look s' k = B.look s k) : R.Marked B s₀ (done ++ [text]) s' := by
  constructor
  · rw [List.forall_mem_append, List.forall_mem_singleton]
    refine ⟨fun a ha t ht => ?_, fun t ht => absurd ht (hnone t)⟩
    rw [hsum a ha t ht, hlook]
    exact h.moved a ha t ht
  · intro k hk
    rw [hlook]
    exact h.others k fun a ha => hk a (List.mem_append_left _ ha)

theorem settled (h : R.Marked B s₀ done s) {s₁ : σ} (hfollows : R.follows = true)
    (h₀ : R.attempt text s₀ = .ok (e, e')) (hfetch : Store.fetch s e'.id = .ok e)
    (hreplace : Store.replace s e' = .ok s₁) (hsettles : Settles R.now s₁ (totals e e') (.ok ()) s') :
    R.Marked B s₀ (done ++ [text]) s' := by
  have hmoves (t : Total) : R.Moves s₀ text t ↔ t ∈ totals e e' := by
    refine ⟨fun ⟨_, e₁, e₁', hok, ht⟩ => ?_, fun ht => ⟨hfollows, e, e', h₀, ht⟩⟩
    obtain ⟨⟩ := h₀.symm.trans hok
    exact ht
  have hsum (t : Total) : t.sum s' = t.sum s₁ := B.sum_congr t (B.entries_settles hsettles)
  have hlook (k : B.Slot) : B.look s₁ k = B.look s k := B.look_replace hreplace k
  have hmarked (t : Total) (ht : t ∈ totals e e') : ∃ n, t.sum s' = .ok n ∧
      B.look s' (B.slot t) = (B.look s₀ (B.slot t)).map (B.mark n R.now.wholeSecond) := by
    obtain ⟨n, hn, hmark⟩ := B.look_settles hsettles ht
    rw [hlook] at hmark
    refine ⟨n, (hsum t).trans hn, ?_⟩
    -- If an earlier item moved the total, its mark is written over.
    by_cases hbefore : ∃ a ∈ done, R.Moves s₀ a t
    · obtain ⟨a, ha, hat⟩ := hbefore
      obtain ⟨m, -, hm⟩ := h.moved a ha t hat
      rw [hmark, hm, Option.map_map]
      exact congrArg (Option.map · _) (funext (B.mark_mark n m _))
    · rw [hmark, h.others]
      intro a ha u hu heq
      obtain rfl := B.slot_inj heq
      exact hbefore ⟨a, ha, hu⟩
  constructor
  · rw [List.forall_mem_append, List.forall_mem_singleton]
    refine ⟨fun a ha t hat => ?_, fun t ht => hmarked t ((hmoves t).mp ht)⟩
    by_cases ht : t ∈ totals e e'
    · exact hmarked t ht
    -- A total that this item does not move has neither its old nor its new entry in the sum.
    · have habsent : t.isAbsent = false := by
        obtain ⟨-, e₁, e₁', -, hmem⟩ := hat
        exact (mem_totals.mp hmem).1
      have hnot := fun hcounts => ht (mem_totals.mpr ⟨habsent, hcounts⟩)
      obtain ⟨n, hn, hmark⟩ := h.moved a ha t hat
      refine ⟨n, ?_, ?_⟩
      · rw [hsum, B.sum_replace hfetch hreplace (hnot ∘ .inl) (hnot ∘ .inr), hn]
      · rw [B.look_settles_of_ne hsettles (B.slot_ne_of_not_mem ht), hlook, hmark]
  · intro k hk
    rw [List.forall_mem_append, List.forall_mem_singleton] at hk
    rw [B.look_settles_of_ne hsettles fun t ht => hk.2 t ((hmoves t).mpr ht), hlook]
    exact h.others k hk.1

theorem tried (h : R.Marked B s₀ done s) (hs : R.Revised B s₀ done s)
    (hapart : ∀ a ∈ done, Apart s₀ a text) (hx : R.Tried text s x s')
    (hfresh : ¬(Reply.entry x).IsStale) : R.Marked B s₀ (done ++ [text]) s' := by
  have hattempt := hs.attempt_eq hapart
  cases hx with
  | failed hf =>
    refine h.idle (fun t ht => ?_) (fun _ _ _ _ => rfl) fun _ => rfl
    obtain ⟨-, e, e', hok, -⟩ := ht
    cases (hattempt.symm.trans hf).symm.trans hok
  | unsaved h hreplace => exact absurd hreplace (not_unsaved B h)
  | saved hok hreplace hfollows =>
    have hnone (a : String) (t : Total) : ¬R.Moves s₀ a t := fun ht => by
      cases hfollows.symm.trans ht.1
    exact h.idle (hnone _) (fun a _ t ht => absurd ht (hnone a t)) (B.look_replace hreplace)
  | @settled e e' s₁ _ r hok hreplace hfollows hsettles =>
    cases r with
    | error f => exact absurd ⟨_, _, rfl⟩ hfresh
    | ok u =>
      exact h.settled hfollows (hattempt.symm.trans hok) (id_of_attempt B hok).2.1 hreplace hsettles

theorem store_eq {texts' : List String} (h : R.Marked B s₀ texts s)
    (h' : R.Marked B s₀ texts' s') (hmem : ∀ a, a ∈ texts' ↔ a ∈ texts)
    (hentries : B.entries s' = B.entries s) : s' = s := by
  refine B.ext_look hentries fun k => ?_
  by_cases hk : ∃ a ∈ texts, ∃ t, R.Moves s₀ a t ∧ B.slot t = k
  · obtain ⟨a, ha, t, hmoves, rfl⟩ := hk
    obtain ⟨n, hn, hlook⟩ := h.moved a ha t hmoves
    obtain ⟨n', hn', hlook'⟩ := h'.moved a ((hmem a).mpr ha) t hmoves
    rw [B.sum_congr t hentries, hn] at hn'
    rw [hlook, hlook', Except.ok.inj hn']
  · have hnot : ∀ a ∈ texts, ∀ t, R.Moves s₀ a t → B.slot t ≠ k :=
      fun a ha t hmoves hslot => hk ⟨a, ha, t, hmoves, hslot⟩
    rw [h.others k hnot, h'.others k fun a ha => hnot a ((hmem a).mp ha)]

end Marked

theorem tried_each {items : List BatchItem} (h : R.TriedEach texts s items s')
    (hs : R.Revised B s₀ done s) (hapart : (done ++ texts).Pairwise (Apart s₀)) :
    R.Revised B s₀ (done ++ texts) s' ∧ items.map BatchItem.id = texts ∧
      (∀ i ∈ items, i.result = R.outcome B i.id s₀ ∨
        ∃ e f, i.result = .error (.stale e f) ∧ Overflowed σ f) ∧
      (R.Marked B s₀ done s → (∀ i ∈ items, ¬i.IsStale) → R.Marked B s₀ (done ++ texts) s') := by
  induction h generalizing done with
  | nil s =>
    rw [List.append_nil]
    exact ⟨hs, rfl, fun _ h => absurd h List.not_mem_nil, fun h _ => h⟩
  | @cons text texts s s₁ s₂ x items hx hrest ih =>
    have hdone : ∀ a ∈ done, Apart s₀ a text := fun a ha =>
      (List.pairwise_append.mp hapart).2.2 a ha text List.mem_cons_self
    rw [List.append_cons] at hapart ⊢
    obtain ⟨hrevised, hids, hresults, hmarked⟩ := ih (hs.tried hdone hx) hapart
    refine ⟨hrevised, congrArg _ hids, ?_, fun hm hfresh => ?_⟩
    · rw [List.forall_mem_cons]
      refine ⟨?_, hresults⟩
      rw [← hs.outcome_eq hdone]
      exact result_tried B hx
    · rw [List.forall_mem_cons] at hfresh
      exact hmarked (hm.tried hs hdone hx hfresh.1) hfresh.2

end Revision

inductive Batch where
  | patch (p : Patch) (now : Instant)
  | tags (given : List String) (mode : TagMode) (now : Instant)

namespace Batch

def program (policy : Policy) (ids : String) : Batch → Program (List BatchItem)
  | patch p now => updateBatch policy ids p now
  | tags given mode now => updateTagsBatch ids given mode now

def revision (policy : Policy) : Batch → Revision
  | patch p now => .patch policy p now
  | tags given mode now => .tags given mode now

theorem program_eq (policy : Policy) (ids : String) (b : Batch) :
    b.program policy ids = forEachId (b.revision policy).operation (parseIdList ids) := by
  cases b with
  | patch p now =>
    exact congrArg (forEachId · _) (funext fun id => (Revision.operation_patch policy id p now).symm)
  | tags given mode now =>
    exact congrArg (forEachId · _) (funext fun id => (Revision.operation_tags id given mode now).symm)

end Batch

def NamesApart (s : σ) (texts : List String) : Prop :=
  texts.Pairwise (Apart s)

/-- What two runs of a batch leave and answer, when only the order of the items is another. Results may
differ where one of them is excused. -/
structure Reordered {σ τ : Type} (entries : σ → τ) (Excused : BatchItem → Prop)
    (ran ran' : List BatchItem × Desk σ) : Prop where
  entries : entries ran'.2.store = entries ran.2.store
  ids : (ran'.1.map BatchItem.id).Perm (ran.1.map BatchItem.id)
  results : ∀ i ∈ ran.1, ∀ i' ∈ ran'.1, i'.id = i.id →
    i'.result = i.result ∨ Excused i ∨ Excused i'
  desk : (∀ i ∈ ran.1, ¬i.IsStale) → (∀ i ∈ ran'.1, ¬i.IsStale) → ran'.2 = ran.2

theorem Books.reordered (B : Books σ key) {Excused : BatchItem → Prop}
    (hexcused : ∀ i e f, i.result = .error (.stale e f) → Overflowed σ f → Excused i)
    (policy : Policy) (b : Batch) {texts texts' : String}
    (hperm : (parseIdList texts').Perm (parseIdList texts)) (d : Desk σ)
    (hapart : NamesApart d.store (parseIdList texts)) :
    Reordered B.entries Excused ((b.program policy texts).run d) ((b.program policy texts').run d) := by
  have hapart' : NamesApart d.store (parseIdList texts') :=
    hperm.symm.pairwise hapart fun h => h.symm
  rw [b.program_eq, b.program_eq]
  obtain ⟨items, s, hrun, htried⟩ := (b.revision policy).run_forEachId (parseIdList texts) d
  obtain ⟨items', s', hrun', htried'⟩ := (b.revision policy).run_forEachId (parseIdList texts') d
  obtain ⟨hrevised, hids, hresults, hmarked⟩ :=
    Revision.tried_each htried (.nil _ B _) hapart
  obtain ⟨hrevised', hids', hresults', hmarked'⟩ :=
    Revision.tried_each htried' (.nil _ B _) hapart'
  have hmem : ∀ a, a ∈ [] ++ parseIdList texts' ↔ a ∈ [] ++ parseIdList texts := fun a => hperm.mem_iff
  have hentries : B.entries s' = B.entries s := hrevised.entries_eq hrevised' hmem
  rw [hrun, hrun']
  refine ⟨hentries, hids ▸ hids' ▸ hperm, fun i hi i' hi' hid => ?_, fun hfresh hfresh' => ?_⟩
  · rcases hresults i hi with h | ⟨e, f, h, hf⟩
    · rcases hresults' i' hi' with h' | ⟨e, f, h', hf⟩
      · exact .inl (by rw [h, h', hid])
      · exact .inr (.inr (hexcused i' e f h' hf))
    · exact .inr (.inl (hexcused i e f h hf))
  · have hstore : s' = s :=
      (hmarked (.nil _ B _) hfresh).store_eq (hmarked' (.nil _ B _) hfresh') hmem hentries
    rw [hstore]

/-- The order of the items of a batch does not matter: the same entries are left, every identifier gets
the same result unless a sum overflows, and if no totals are left stale in either order, nothing differs
at all. -/
theorem batch_reorders (policy : Policy) (b : Batch) {texts texts' : String}
    (hperm : (parseIdList texts').Perm (parseIdList texts)) (ids : IdSource) :
    (∀ m : Memory, NamesApart m (parseIdList texts) →
      Reordered Memory.entries (fun _ => False)
        ((b.program policy texts).run ⟨m, ids⟩) ((b.program policy texts').run ⟨m, ids⟩)) ∧
    ∀ d : Database, NamesApart d (parseIdList texts) →
      Reordered Database.entries BatchItem.Overflows
        ((b.program policy texts).run ⟨d, ids⟩) ((b.program policy texts').run ⟨d, ids⟩) := by
  constructor
  · intro m hm
    refine Memory.books.reordered (fun i e f hi hf => ?_) policy b hperm ⟨m, ids⟩ hm
    obtain ⟨m', t, hsum, -⟩ := hf
    rw [Memory.sum_eq] at hsum
    cases hsum
  · intro d hd
    refine Database.books.reordered (fun i e f hi hf => ?_) policy b hperm ⟨d, ids⟩ hd
    obtain ⟨d', t, -, rfl⟩ := hf
    cases t <;> exact ⟨e, _, hi⟩

def otherMinute : Entry :=
  { minuteOfFirstTask with id := ⟨.ofNat 2⟩ }

def bothMinutes : String :=
  minuteOfFirstTask.id.text ++ "," ++ otherMinute.id.text

def bothMinutesBack : String :=
  otherMinute.id.text ++ "," ++ minuteOfFirstTask.id.text

def lengthen : Batch :=
  .patch { stop := some (.ofSecond 180 (by decide)) } .epoch

theorem batch_reorders_bothMinutes :
    let m : Memory := { entries := (Shelf.empty.put minuteOfFirstTask).put otherMinute
                        tasks := Shelf.empty.put firstTask }
    let d : Database := { entries := (Shelf.empty.put (.ofEntry minuteOfFirstTask)).put
                            (.ofEntry otherMinute)
                          tasks := Shelf.empty.put (.ofTask firstTask) }
    (((lengthen.program following bothMinutesBack).run ⟨m, .after 2⟩).2 =
        ((lengthen.program following bothMinutes).run ⟨m, .after 2⟩).2 ∧
      ∀ t ∈ ((lengthen.program following bothMinutes).run ⟨m, .after 2⟩).2.store.tasks.items,
        t.trackedSeconds = 360) ∧
    Reordered Database.entries BatchItem.Overflows
      ((lengthen.program following bothMinutes).run ⟨d, .after 2⟩)
      ((lengthen.program following bothMinutesBack).run ⟨d, .after 2⟩) := by
  intro m d
  have hitems : parseIdList bothMinutes = [minuteOfFirstTask.id.text, otherMinute.id.text] := by
    decide +kernel
  have hback : parseIdList bothMinutesBack = [otherMinute.id.text, minuteOfFirstTask.id.text] := by
    decide +kernel
  have hperm : (parseIdList bothMinutesBack).Perm (parseIdList bothMinutes) := by
    rw [hitems, hback]
    exact .swap _ _ _
  have hparse : Identifier.parse .entry minuteOfFirstTask.id.text ≠
      Identifier.parse .entry otherMinute.id.text := by
    decide +kernel
  obtain ⟨hm, hd⟩ := batch_reorders following lengthen hperm (.after 2)
  have hapart {σ : Type} [Store σ] (s : σ) : NamesApart s (parseIdList bothMinutes) := by
    rw [hitems]
    exact List.pairwise_pair.mpr (apart_of_parse_ne hparse)
  refine ⟨⟨(hm m (hapart m)).desk ?_ ?_, ?_⟩, hd d (hapart d)⟩ <;> decide +kernel

end Timesheet
