import Mathlib.Tactic
import Timesheet.Shelf

namespace Timesheet.Shelf

open KeyOrder

variable {κ α : Type} [KeyOrder κ] {key : α → κ} {P : α → Prop} {s : Shelf key}

theorem ext {s t : Shelf key} (h : s.items = t.items) : s = t := by
  cases s
  cases t
  simpa using h

theorem key_ne_of_before {a b : α} (h : before (key a) (key b) = true) : key a ≠ key b := by
  intro he
  rw [he, before_irrefl] at h
  exact absurd h (by decide)

theorem place_of_forall_before {a : α} {s : List α}
    (h : ∀ b ∈ s, before (key b) (key a) = true) : place key a s = s ++ [a] := by
  induction s with
  | nil => rfl
  | cons b s ih =>
    have hb := h b List.mem_cons_self
    have hnot : ¬before (key a) (key b) = true := fun hab => by
      have := before_trans hab hb
      rw [before_irrefl] at this
      exact absurd this (by decide)
    rw [place, if_neg hnot, if_pos hb, ih fun c hc => h c (List.mem_cons_of_mem _ hc),
      List.cons_append]

theorem items_foldl_put {s : Shelf key} {as : List α}
    (h : (s.items ++ as).Pairwise fun a b => before (key a) (key b) = true) :
    (as.foldl Shelf.put s).items = s.items ++ as := by
  induction as generalizing s with
  | nil => simp
  | cons a as ih =>
    have hput : (s.put a).items = s.items ++ [a] := by
      apply place_of_forall_before
      intro b hb
      exact (List.pairwise_append.mp h).2.2 b hb a List.mem_cons_self
    rw [List.foldl_cons, ih, hput]
    · simp
    · rw [hput]
      simpa using h

section Members

theorem mem_place_self (a : α) (s : List α) : a ∈ place key a s := by
  induction s with
  | nil => exact List.mem_singleton.mpr rfl
  | cons b s ih =>
    unfold place
    split
    · exact List.mem_cons_self
    · split
      · exact List.mem_cons_of_mem _ ih
      · exact List.mem_cons_self

theorem mem_place_of_ne {a b : α} {s : List α} (h : key b ≠ key a) (hb : b ∈ s) :
    b ∈ place key a s := by
  induction s with
  | nil => cases hb
  | cons c s ih =>
    unfold place
    split
    · exact List.mem_cons_of_mem _ hb
    · split
      · rcases List.mem_cons.mp hb with rfl | hb
        · exact List.mem_cons_self
        · exact List.mem_cons_of_mem _ (ih hb)
      · rename_i hac hca
        rcases List.mem_cons.mp hb with rfl | hb
        · exact absurd (key_eq_of_not_before hac hca) h.symm
        · exact List.mem_cons_of_mem _ hb

theorem mem_put_self (s : Shelf key) (a : α) : a ∈ (s.put a).items :=
  mem_place_self a s.items

theorem mem_put_of_ne {a b : α} (h : key b ≠ key a) (hb : b ∈ s.items) : b ∈ (s.put a).items :=
  mem_place_of_ne h hb

theorem nodup_keys (s : Shelf key) : (s.items.map key).Nodup :=
  List.pairwise_map.mpr (s.ascending.imp key_ne_of_before)

theorem eq_of_key_eq {a b : α} (ha : a ∈ s.items) (hb : b ∈ s.items) (h : key a = key b) : a = b :=
  List.inj_on_of_nodup_map s.nodup_keys ha hb h

variable [DecidableEq κ]

theorem mem_erase_of_ne {b : α} {k : κ} (h : key b ≠ k) (hb : b ∈ s.items) :
    b ∈ (s.erase k).items :=
  List.mem_filter.mpr ⟨hb, decide_eq_true h⟩

theorem find?_eq_some {k : κ} {a : α} : s.find? k = some a ↔ a ∈ s.items ∧ key a = k := by
  have hfound {k : κ} {a : α} (h : s.find? k = some a) : a ∈ s.items ∧ key a = k := by
    refine ⟨List.mem_of_find?_eq_some h, ?_⟩
    unfold find? at h
    simpa using List.find?_some h
  constructor
  · exact hfound
  · rintro ⟨ha, rfl⟩
    cases h : s.find? (key a) with
    | none => exact absurd (decide_eq_true rfl) (List.find?_eq_none.mp h a ha)
    | some b =>
      obtain ⟨hb, hkey⟩ := hfound h
      rw [eq_of_key_eq hb ha hkey]

theorem find?_eq_none {k : κ} : s.find? k = none ↔ ∀ a ∈ s.items, key a ≠ k := by
  simp [find?, List.find?_eq_none]

theorem find?_put_of_eq (s : Shelf key) {a : α} {k : κ} (h : key a = k) :
    (s.put a).find? k = some a :=
  h ▸ s.find?_put_self a

theorem find?_put_eq_some {a b : α} {k : κ} (h : (s.put a).find? k = some b) :
    (key a = k ∧ b = a) ∨ (key a ≠ k ∧ s.find? k = some b) := by
  by_cases hk : key a = k
  · rw [← hk, find?_put_self] at h
    exact .inl ⟨hk, (Option.some.inj h).symm⟩
  · rw [find?_put_of_ne s hk] at h
    exact .inr ⟨hk, h⟩

end Members

def Holds (P : α → Prop) (s : Shelf key) : Prop :=
  ∀ a ∈ s.items, P a

instance [DecidablePred P] : Decidable (s.Holds P) :=
  inferInstanceAs (Decidable (∀ a ∈ s.items, P a))

theorem holds_empty : (empty : Shelf key).Holds P := by
  intro a ha
  cases ha

theorem Holds.put {a : α} (h : s.Holds P) (ha : P a) : (s.put a).Holds P := by
  intro b hb
  rcases mem_place hb with rfl | hb
  · exact ha
  · exact h b hb

theorem Holds.erase [DecidableEq κ] (h : s.Holds P) (k : κ) : (s.erase k).Holds P :=
  fun b hb => h b (List.mem_filter.mp hb).1

theorem Holds.of_find? [DecidableEq κ] (h : s.Holds P) {k : κ} {a : α} (ha : s.find? k = some a) :
    P a :=
  h a (List.mem_of_find?_eq_some ha)

section Owners

variable {β : Type} {owner : α → β}

/-- Each owner has at most one record with the property. -/
def OnePer (owner : α → β) (P : α → Prop) (s : Shelf key) : Prop :=
  ∀ a ∈ s.items, ∀ b ∈ s.items, P a → P b → owner a = owner b → a = b

instance [DecidableEq α] [DecidableEq β] [DecidablePred P] : Decidable (s.OnePer owner P) :=
  inferInstanceAs (Decidable (∀ a ∈ s.items, ∀ b ∈ s.items, _ → _ → _ → _))

theorem OnePer.put {a : α} (h : s.OnePer owner P)
    (ha : P a → ∀ b ∈ s.items, key b ≠ key a → P b → owner b ≠ owner a) :
    (s.put a).OnePer owner P := by
  have hnew {b : α} (hb : b ∈ (s.put a).items) (hPa : P a) (hPb : P b) (ho : owner b = owner a) :
      b = a := by
    rcases mem_place hb with rfl | hb'
    · rfl
    · by_contra hne
      exact ha hPa b hb' (fun hkey => hne (eq_of_key_eq hb (s.mem_put_self a) hkey)) hPb ho
  intro b hb c hc hPb hPc ho
  rcases mem_place hb with rfl | hb'
  · exact (hnew hc hPb hPc ho.symm).symm
  · rcases mem_place hc with rfl | hc'
    · exact hnew hb hPc hPb ho
    · exact h b hb' c hc' hPb hPc ho

theorem OnePer.put_over {a b : α} (h : s.OnePer owner P) (ha : a ∈ s.items) (hkey : key b = key a)
    (hb : P b → P a ∧ owner b = owner a) : (s.put b).OnePer owner P := by
  refine h.put fun hPb c hc hne hPc ho => ?_
  obtain ⟨hPa, hab⟩ := hb hPb
  have hca : c = a := h c hc a ha hPc hPa (ho.trans hab)
  exact hne ((congrArg key hca).trans hkey.symm)

theorem OnePer.erase [DecidableEq κ] (h : s.OnePer owner P) (k : κ) :
    (s.erase k).OnePer owner P :=
  fun a ha b hb => h a (List.mem_filter.mp ha).1 b (List.mem_filter.mp hb).1

end Owners

section Sums

theorem find?_none_of_before {a b : α} {s : List α} [DecidableEq κ]
    (h : (b :: s).Pairwise fun a b => before (key a) (key b) = true)
    (hab : before (key a) (key b) = true) : (b :: s).find? (fun c => key c = key a) = none := by
  rw [List.find?_eq_none]
  intro c hc
  have hac : before (key a) (key c) = true := by
    rcases List.mem_cons.mp hc with rfl | hc
    · exact hab
    · exact before_trans hab (List.rel_of_pairwise_cons h hc)
  simpa using (key_ne_of_before hac).symm

theorem sum_put [DecidableEq κ] (w : α → Int) (s : Shelf key) (a : α) :
    ((s.put a).items.map w).sum + (s.find? (key a)).elim 0 w = (s.items.map w).sum + w a := by
  obtain ⟨s, hs⟩ := s
  change ((place key a s).map w).sum + (s.find? fun b => key b = key a).elim 0 w = _
  induction s with
  | nil => simp [place]
  | cons b s ih =>
    unfold place
    split
    · rename_i hab
      rw [find?_none_of_before hs hab]
      simp
      omega
    · split
      · rename_i hba
        have h : ((place key a s).map w).sum + (s.find? fun b => key b = key a).elim 0 w =
            (s.map w).sum + w a := ih hs.of_cons
        rw [List.find?_cons_of_neg (by simpa using key_ne_of_before hba)]
        simp only [List.map_cons, List.sum_cons]
        omega
      · rename_i hab hba
        rw [List.find?_cons_of_pos (by simp [key_eq_of_not_before hab hba])]
        simp
        omega

theorem sum_erase [DecidableEq κ] (w : α → Int) (s : Shelf key) (k : κ) :
    ((s.erase k).items.map w).sum + (s.find? k).elim 0 w = (s.items.map w).sum := by
  have hnodup := s.nodup_keys
  obtain ⟨s, hs⟩ := s
  change ((s.filter fun b => key b ≠ k).map w).sum + (s.find? fun b => key b = k).elim 0 w = _
  induction s with
  | nil => rfl
  | cons b s ih =>
    obtain ⟨hb, hnodup⟩ := List.nodup_cons.mp hnodup
    by_cases hk : key b = k
    · have hrest : s.filter (fun c => key c ≠ k) = s := by
        rw [List.filter_eq_self]
        intro c hc
        have hne : key c ≠ key b := fun h => hb (h ▸ List.mem_map_of_mem hc)
        simpa [hk] using hne
      rw [List.filter_cons_of_neg (by simp [hk]), hrest, List.find?_cons_of_pos (by simp [hk])]
      simp
      omega
    · have h : ((s.filter fun b => key b ≠ k).map w).sum +
          (s.find? fun b => key b = k).elim 0 w = (s.map w).sum := ih hs.of_cons hnodup
      rw [List.filter_cons_of_pos (by simp [hk]), List.find?_cons_of_neg (by simp [hk])]
      simp only [List.map_cons, List.sum_cons]
      omega

theorem sum_put_of_eq [DecidableEq κ] {w : α → Int} {s : Shelf key} {a : α}
    (h : (s.find? (key a)).elim 0 w = w a) : ((s.put a).items.map w).sum = (s.items.map w).sum := by
  have hsum := s.sum_put w a
  rw [h] at hsum
  exact add_right_cancel hsum

theorem sum_erase_of_eq [DecidableEq κ] {w : α → Int} {s : Shelf key} {k : κ}
    (h : (s.find? k).elim 0 w = 0) : ((s.erase k).items.map w).sum = (s.items.map w).sum := by
  have hsum := s.sum_erase w k
  rw [h, Int.add_zero] at hsum
  exact hsum

end Sums

section Images

variable {ι β : Type} [KeyOrder ι] {key' : β → ι} {f : α → β} {g : κ → ι} {t : Shelf key'}

def KeepsOrder (g : κ → ι) : Prop :=
  ∀ j k, before (g j) (g k) = before j k

theorem KeepsOrder.inj (hg : KeepsOrder g) {j k : κ} : g j = g k ↔ j = k := by
  refine ⟨fun h => ?_, congrArg g⟩
  apply eq_of_not_before
  · rw [← hg, h, before_irrefl]
  · rw [← hg, h, before_irrefl]

def IsImage (f : α → β) (s : Shelf key) (t : Shelf key') : Prop :=
  t.items = s.items.map f

theorem place_map (hg : KeepsOrder g) (hf : ∀ a, key' (f a) = g (key a)) (a : α) (s : List α) :
    place key' (f a) (s.map f) = (place key a s).map f := by
  induction s with
  | nil => rfl
  | cons b s ih =>
    have hbefore (b c : α) : before (key' (f b)) (key' (f c)) = before (key b) (key c) := by
      rw [hf, hf, hg]
    simp only [List.map_cons, place, hbefore, ih]
    split
    · rfl
    · split <;> rfl

theorem IsImage.put (h : IsImage f s t) (hg : KeepsOrder g) (hf : ∀ a, key' (f a) = g (key a))
    (a : α) : IsImage f (s.put a) (t.put (f a)) := by
  change place key' (f a) t.items = _
  rw [h]
  exact place_map hg hf a s.items

variable [DecidableEq κ] [DecidableEq ι]

theorem IsImage.find? (h : IsImage f s t) (hg : KeepsOrder g) (hf : ∀ a, key' (f a) = g (key a))
    (k : κ) : t.find? (g k) = (s.find? k).map f := by
  unfold Shelf.find?
  rw [h, List.find?_map]
  congr 2
  funext a
  exact decide_eq_decide.mpr ((hf a).congr_left.trans hg.inj)

theorem IsImage.erase (h : IsImage f s t) (hg : KeepsOrder g) (hf : ∀ a, key' (f a) = g (key a))
    (k : κ) : IsImage f (s.erase k) (t.erase (g k)) := by
  change t.items.filter _ = (s.items.filter _).map f
  rw [h, List.filter_map]
  congr 2
  funext a
  exact decide_eq_decide.mpr (not_congr ((hf a).congr_left.trans hg.inj))

end Images

section Counterparts

variable [DecidableEq κ] {R R' : κ → α → α → Prop} {t u : Shelf key}

structure Alters (R : κ → α → α → Prop) (s t : Shelf key) : Prop where
  keys : ∀ k, s.find? k = none ↔ t.find? k = none
  related : ∀ k a b, s.find? k = some a → t.find? k = some b → R k a b

theorem alters_refl (hR : ∀ k a, R k a a) (s : Shelf key) : s.Alters R s := by
  refine ⟨fun k => Iff.rfl, fun k a b ha hb => ?_⟩
  obtain rfl := Option.some.inj (ha.symm.trans hb)
  exact hR k a

theorem Alters.mono (h : s.Alters R t) (hR : ∀ k a b, R k a b → R' k a b) : s.Alters R' t :=
  ⟨h.keys, fun k a b ha hb => hR k a b (h.related k a b ha hb)⟩

theorem Alters.exists_right (h : s.Alters R t) {k : κ} {a : α} (ha : s.find? k = some a) :
    ∃ b, t.find? k = some b ∧ R k a b := by
  cases hb : t.find? k with
  | none => cases ha.symm.trans ((h.keys k).mpr hb)
  | some b => exact ⟨b, rfl, h.related k a b ha hb⟩

theorem Alters.trans (h : s.Alters R t) (h' : t.Alters R u)
    (hR : ∀ k a b c, R k a b → R k b c → R k a c) : s.Alters R u := by
  refine ⟨fun k => (h.keys k).trans (h'.keys k), fun k a c ha hc => ?_⟩
  obtain ⟨b, hb, hab⟩ := h.exists_right ha
  exact hR k a b c hab (h'.related k b c hb hc)

theorem Alters.trans_or (h : s.Alters (fun k a b => b = a ∨ R k a b) t)
    (h' : t.Alters (fun k a b => b = a ∨ R k a b) u)
    (hR : ∀ k a b c, R k a b → R k b c → R k a c) :
    s.Alters (fun k a b => b = a ∨ R k a b) u := by
  refine h.trans h' fun k a b c hab hbc => ?_
  rcases hab with rfl | hab
  · exact hbc
  · rcases hbc with rfl | hbc
    · exact .inr hab
    · exact .inr (hR k a b c hab hbc)

theorem Alters.put (h : s.Alters R t) {a b : α} (hkey : key b = key a) (hab : R (key a) a b) :
    (s.put a).Alters R (t.put b) := by
  have hput {k : κ} (hk : key a ≠ k) :
      (s.put a).find? k = s.find? k ∧ (t.put b).find? k = t.find? k :=
    ⟨find?_put_of_ne s hk, find?_put_of_ne t (hkey.trans_ne hk)⟩
  have hself : (t.put b).find? (key a) = some b := hkey ▸ find?_put_self t b
  constructor
  · intro k
    by_cases hk : key a = k
    · subst hk
      simp [hself]
    · rw [(hput hk).1, (hput hk).2]
      exact h.keys k
  · intro k c d hc hd
    by_cases hk : key a = k
    · subst hk
      obtain rfl := Option.some.inj ((find?_put_self s a).symm.trans hc)
      obtain rfl := Option.some.inj (hself.symm.trans hd)
      exact hab
    · rw [(hput hk).1] at hc
      rw [(hput hk).2] at hd
      exact h.related k c d hc hd

theorem alters_put (hR : ∀ k a, R k a a) {a b : α} (ha : s.find? (key b) = some a)
    (hab : R (key b) a b) : s.Alters R (s.put b) := by
  constructor
  · intro k
    by_cases hk : key b = k
    · subst hk
      simp [ha]
    · rw [find?_put_of_ne s hk]
  · intro k c d hc hd
    rcases find?_put_eq_some hd with ⟨rfl, rfl⟩ | ⟨-, hd⟩
    · obtain rfl := Option.some.inj (ha.symm.trans hc)
      exact hab
    · exact (alters_refl hR s).related k c d hc hd

end Counterparts

theorem ext_mem {s t : Shelf key} (h : ∀ a, a ∈ s.items ↔ a ∈ t.items) : s = t := by
  have hperm : s.items.Perm t.items :=
    (List.perm_ext_iff_of_nodup s.nodup_keys.of_map t.nodup_keys.of_map).mpr h
  apply ext
  refine hperm.eq_of_pairwise ?_ s.ascending t.ascending
  intro a b _ _ hab hba
  exact absurd (before_trans hab hba) (by rw [before_irrefl]; decide)

theorem ext_find? [DecidableEq κ] {s t : Shelf key} (h : ∀ k, s.find? k = t.find? k) : s = t := by
  apply ext_mem
  intro a
  have hs : a ∈ s.items ↔ s.find? (key a) = some a := by simp [find?_eq_some]
  have ht : a ∈ t.items ↔ t.find? (key a) = some a := by simp [find?_eq_some]
  rw [hs, ht, h]

theorem put_put [DecidableEq κ] {a b : α} (h : key b = key a) (s : Shelf key) :
    (s.put a).put b = s.put b := by
  apply ext_find?
  intro k
  by_cases hk : key b = k
  · rw [find?_put_of_eq _ hk, find?_put_of_eq _ hk]
  · rw [find?_put_of_ne _ hk, find?_put_of_ne _ hk, find?_put_of_ne _ (h ▸ hk)]

theorem filter_place {p : α → Bool} {a : α} {s : List α} (ha : p a = false)
    (hs : ∀ b ∈ s, key b = key a → p b = false) : (place key a s).filter p = s.filter p := by
  induction s with
  | nil => simp [place, ha]
  | cons b s ih =>
    have hrest := ih fun c hc => hs c (List.mem_cons_of_mem _ hc)
    unfold place
    split
    · rw [List.filter_cons_of_neg (by simp [ha])]
    · split
      · rw [List.filter_cons, List.filter_cons, hrest]
      · rename_i hab hba
        have hb := hs b List.mem_cons_self (key_eq_of_not_before hab hba).symm
        rw [List.filter_cons_of_neg (by simp [ha]), List.filter_cons_of_neg (by simp [hb])]

theorem filter_put [DecidableEq κ] {p : α → Bool} {s : Shelf key} {a : α} (ha : p a = false)
    (hs : ∀ b, s.find? (key a) = some b → p b = false) :
    (s.put a).items.filter p = s.items.filter p :=
  filter_place ha fun b hb hkey => hs b (find?_eq_some.mpr ⟨hb, hkey⟩)

end Timesheet.Shelf
