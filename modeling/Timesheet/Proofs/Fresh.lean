import Timesheet.Proofs.Contract
import Timesheet.Proofs.Holding

namespace Timesheet

/-- The identifiers up to the draw `limit` differ from each other and are all unused. -/
def IdSource.IsFresh (ids : IdSource) (limit : Nat) (unused : EntryId → Prop) : Prop :=
  ∀ n, ids.drawn ≤ n → n < limit →
    unused (ids.stream n) ∧ ∀ m, ids.drawn ≤ m → m < limit → ids.stream m = ids.stream n → m = n

theorem IdSource.IsFresh.mono {ids : IdSource} {limit limit' : Nat} {Q Q' : EntryId → Prop}
    (h : ids.IsFresh limit Q) (hle : limit' ≤ limit) (hQ : ∀ id, Q id → Q' id) :
    ids.IsFresh limit' Q' := by
  intro n hn hlimit
  obtain ⟨hunused, hinj⟩ := h n hn (hlimit.trans_le hle)
  exact ⟨hQ _ hunused, fun m hm hm' => hinj m hm (hm'.trans_le hle)⟩

def Inserts {σ : Type} (Unused : σ → EntryId → Prop) (t : List (σ × Call)) : Prop :=
  ∀ x ∈ t, ∀ e, x.2 = .insert e → Unused x.1 e.id

def freeContract : Contract :=
  ⟨fun _ => True, fun _ => True, fun _ => True, fun _ => True⟩

theorem Call.hands_free (c : Call) (r : Except StoreFault c.Answer) : c.Hands freeContract r := by
  cases c <;> first | trivial | exact fun _ _ => trivial

theorem session_keeps_free (policy : Policy) (rs : List Request) :
    (session policy rs).Keeps freeContract (fun _ => True) none := by
  refine session_keeps (fun r _ => ⟨?_, fun _ _ => trivial⟩) policy none
  cases r <;> simp [Request.Builds, freeContract]

theorem Program.Keeps.drawn_of_insert {α σ : Type} [Store σ] {post : α → Prop}
    {drawn : Option EntryId} {p : Program α} (hp : p.Keeps freeContract post drawn) {d : Desk σ}
    {first : Nat} (hfirst : first ≤ d.ids.drawn)
    (hdrawn : ∀ id ∈ drawn, ∃ n, first ≤ n ∧ n < d.ids.drawn ∧ d.ids.stream n = id) :
    ∀ x ∈ p.trace d, ∀ e, x.2 = .insert e →
      ∃ n, first ≤ n ∧ n < (p.run d).2.ids.drawn ∧ d.ids.stream n = e.id := by
  induction p generalizing drawn d with
  | done a => exact fun x hx => absurd hx (by simp [Program.trace])
  | draw next ih =>
    refine ih d.ids.next (hp _) (d := { d with ids := d.ids.advance })
      (Nat.le_succ_of_le hfirst) ?_
    rintro id ⟨⟩
    exact ⟨d.ids.drawn, hfirst, Nat.lt_succ_self _, rfl⟩
  | call c next ih =>
    have hunused : ∀ id ∈ c.unused drawn, id ∈ drawn := by
      cases c with
      | insert e => exact fun id hid => by cases hid
      | _ => exact fun id hid => hid
    have hle := Program.drawn_le (next (c.perform d.store).1)
      { d with store := (c.perform d.store).2 }
    intro x hx e he
    rcases List.mem_cons.mp hx with rfl | hx
    · obtain rfl : c = .insert e := he
      obtain ⟨n, hn, hlt, heq⟩ := hdrawn e.id hp.1.2
      exact ⟨n, hn, lt_of_lt_of_le hlt hle, heq⟩
    · exact ih _ (hp.2 _ (Call.hands_free _ _)) (d := { d with store := (c.perform d.store).2 }) hfirst
        (fun id hid => hdrawn id (hunused id hid)) x hx e he

theorem session_draws {σ : Type} [Store σ] (policy : Policy) (rs : List Request) (d : Desk σ) :
    ∀ x ∈ (session policy rs).trace d, ∀ e, x.2 = .insert e →
      ∃ n, d.ids.drawn ≤ n ∧ n < ((session policy rs).run d).2.ids.drawn ∧
        d.ids.stream n = e.id :=
  (session_keeps_free policy rs).drawn_of_insert (Nat.le_refl _) fun _ hid => by cases hid

namespace Memory

def Unused (m : Memory) (id : EntryId) : Prop :=
  m.entries.find? id = none

theorem perform_unused {m : Memory} {c : Call} {id : EntryId} (h : m.Unused id)
    (hc : ∀ e, c = .insert e → e.id ≠ id) : (c.perform m).2.Unused id := by
  have keep {r : Except StoreFault Memory} (hr : ∀ t, r = .ok t → t.Unused id) :
      (changed m r).2.Unused id :=
    changed_snd (P := fun t : Memory => t.Unused id) h hr
  cases c with
  | insert e =>
    refine keep fun t ht => ?_
    obtain ⟨⟩ := ht
    exact (Shelf.find?_put_of_ne m.entries (hc e rfl)).trans h
  | replace e =>
    refine keep fun t ht => ?_
    obtain ⟨⟨old, hold⟩, rfl⟩ := replace_eq_ok.mp ht
    have hne : e.id ≠ id := by
      rintro rfl
      exact absurd (h.symm.trans hold) (by simp)
    exact (Shelf.find?_put_of_ne m.entries hne).trans h
  | erase k =>
    refine keep fun t ht => ?_
    obtain ⟨-, rfl⟩ := erase_eq_ok.mp ht
    refine Shelf.find?_eq_none.mpr fun e he => ?_
    exact Shelf.find?_eq_none.mp h e (List.mem_filter.mp he).1
  | writeTracked task seconds now =>
    refine keep fun t ht => ?_
    obtain ⟨r, -, rfl⟩ := writeTracked_eq_ok.mp ht
    exact h
  | writeEstimate project hours now =>
    refine changedIf_snd (P := fun t : Memory => t.Unused id) h fun b t ht => ?_
    obtain ⟨r, -, -, rfl⟩ := writeEstimate_eq_ok.mp ht
    split <;> exact h
  | _ => exact h

structure FreshAt (limit : Nat) (drawn : Option EntryId) (d : Desk Memory) : Prop where
  ids : d.ids.IsFresh limit d.store.Unused
  drawn : ∀ id ∈ drawn, d.store.Unused id ∧
    ∀ n, d.ids.drawn ≤ n → n < limit → d.ids.stream n ≠ id

theorem FreshAt.draw {limit : Nat} {drawn : Option EntryId} {d : Desk Memory}
    (h : FreshAt limit drawn d) (hlt : d.ids.drawn < limit) :
    FreshAt limit (some d.ids.next) { d with ids := d.ids.advance } where
  ids n hn hlimit := by
    obtain ⟨hunused, hinj⟩ := h.ids n (Nat.le_of_succ_le hn) hlimit
    exact ⟨hunused, fun m hm => hinj m (Nat.le_of_succ_le hm)⟩
  drawn id hid := by
    obtain rfl := Option.some.inj hid
    obtain ⟨hunused, hinj⟩ := h.ids d.ids.drawn (Nat.le_refl _) hlt
    refine ⟨hunused, fun n hn hlimit heq => ?_⟩
    have := hinj n (Nat.le_of_succ_le hn) hlimit heq
    exact absurd hn (by simp [IdSource.advance, this])

theorem FreshAt.call {limit : Nat} {drawn : Option EntryId} {d : Desk Memory} {k : Contract}
    {c : Call} (h : FreshAt limit drawn d) (hc : c.Obeys k drawn) :
    FreshAt limit (c.unused drawn) { d with store := (c.perform d.store).2 } where
  ids n hn hlimit := by
    obtain ⟨hunused, hinj⟩ := h.ids n hn hlimit
    refine ⟨perform_unused hunused fun e he => ?_, hinj⟩
    subst he
    exact ((h.drawn e.id hc.2).2 n hn hlimit).symm
  drawn id hid := by
    have hold : id ∈ drawn ∧ ∀ e, c ≠ .insert e := by
      cases c with
      | insert e => cases hid
      | _ => exact ⟨hid, fun e he => by cases he⟩
    obtain ⟨hunused, hne⟩ := h.drawn id hold.1
    exact ⟨perform_unused hunused fun e he => absurd he (hold.2 e), hne⟩

theorem FreshAt.inserts {α : Type} {post : α → Prop} {drawn : Option EntryId} {p : Program α}
    (hp : p.Keeps freeContract post drawn) {d : Desk Memory}
    (h : FreshAt (p.run d).2.ids.drawn drawn d) : Inserts Unused (p.trace d) := by
  induction p generalizing drawn d with
  | done a => exact fun x hx => absurd hx (by simp [Program.trace])
  | draw next ih =>
    have hlt := Program.drawn_le (next d.ids.next) { d with ids := d.ids.advance }
    exact ih d.ids.next (hp _) (h.draw hlt)
  | call c next ih =>
    intro x hx e he
    rcases List.mem_cons.mp hx with rfl | hx
    · obtain rfl : c = .insert e := he
      exact (h.drawn e.id hp.1.2).1
    · exact ih _ (hp.2 _ (Call.hands_free _ _)) (h.call hp.1) x hx e he

theorem session_inserts (policy : Policy) (rs : List Request) (d : Desk Memory)
    (h : d.ids.IsFresh ((session policy rs).run d).2.ids.drawn d.store.Unused) :
    Inserts Unused ((session policy rs).trace d) :=
  FreshAt.inserts (session_keeps_free policy rs) ⟨h, fun _ hid => by cases hid⟩

end Memory
end Timesheet
