import Timesheet.Proofs.Discipline

namespace Timesheet

open Service

namespace Contract

def discipline (k : Contract) : Discipline (Option EntryId) where
  drew _ id := some id
  heard drawn c _ := c.unused drawn
  Allows drawn c := c.Obeys k drawn
  Trusts c r := c.Hands k r
  free {_ c} h := by cases c <;> first | exact h.elim | trivial

variable {k : Contract} {now : Instant}

theorem syncs (hc : k.clock now.wholeSecond) : k.discipline.Syncs now where
  tracked _ _ _ := hc
  estimate _ _ n hn := ⟨hc, n, hn n rfl, rfl⟩

theorem saves {f : Entry → Except Refusal Entry}
    (hb : ∀ e e', k.entry e → f e = .ok e' → k.entry e') : k.discipline.Saves f :=
  fun _ _ e e' he h => hb e e' (he e rfl) h

end Contract

theorem Program.Heeds.keeps {α : Type} {k : Contract} {post : α → Prop} {drawn : Option EntryId}
    {p : Program α} (h : p.Heeds k.discipline (fun a _ => post a) drawn) :
    p.Keeps k post drawn := by
  induction p generalizing drawn with
  | done a => exact h
  | draw next ih => exact fun id => ih id (h id)
  | call c next ih => exact ⟨h.1, fun r hr => ih r (h.2 r hr)⟩

/-- What a request makes of its arguments, and of an entry it was handed, may be stored. -/
def Request.Builds (k : Contract) : Request → Prop
  | create input _ now => ∀ id user details start duration e, input.start = some start →
      input.duration = some duration →
      Entry.finished id user details start duration now = .ok e → k.entry e
  | start _ _ now => ∀ id user details, k.entry (Entry.running id user details now)
  | stop _ now => ∀ e e', k.entry e → e.stopAt now = .ok e' → k.entry e'
  | update _ patch now => ∀ e e', k.entry e → e.applyPatch patch now = .ok e' → k.entry e'
  | updateBatch _ patch now => ∀ e e', k.entry e → e.applyPatch patch now = .ok e' → k.entry e'
  | updateTags _ tags mode now => ∀ e, k.entry e → k.entry (e.editTags tags mode now)
  | updateTagsBatch _ tags mode now => ∀ e, k.entry e → k.entry (e.editTags tags mode now)
  | range _ _ first last => k.bound first.clampStorable ∧ k.bound last.clampStorable
  | dashboard _ now => k.bound (dashboardStart now) ∧ k.bound now
  | _ => True

theorem Request.permitted_of_builds {k : Contract} {r : Request} (hb : r.Builds k)
    (hc : ∀ now ∈ r.clock?, k.clock now.wholeSecond) (policy : Policy) :
    r.Permitted k.discipline policy := by
  cases r with
  | create input owner now =>
    refine ⟨Contract.syncs (hc now rfl), fun _ id _ _ _ _ e hs hd h => ?_⟩
    have hid : e.id = id := by
      obtain ⟨-, -, stop, -, -, rfl⟩ := Entry.finished_eq_ok.mp h
      rfl
    exact ⟨hb _ _ _ _ _ _ hs hd h, congrArg some hid.symm⟩
  | start fields owner now => exact fun _ id user details _ => ⟨hb id user details, rfl⟩
  | stop id now =>
    exact ⟨Contract.syncs (hc now rfl),
      Contract.saves fun e e' he h => hb e e' he (mapError_eq_ok.mp h)⟩
  | update id patch now => exact ⟨Contract.syncs (hc now rfl), Contract.saves hb⟩
  | updateBatch ids patch now => exact ⟨Contract.syncs (hc now rfl), Contract.saves hb⟩
  | updateTags id tags mode now =>
    apply Contract.saves
    rintro e _ he ⟨⟩
    exact hb e he
  | updateTagsBatch ids tags mode now =>
    apply Contract.saves
    rintro e _ he ⟨⟩
    exact hb e he
  | delete id now => exact Contract.syncs (hc now rfl)
  | syncTaskTime id now => exact Contract.syncs (hc now rfl)
  | syncProjectTime id now => exact Contract.syncs (hc now rfl)
  | range owner page first last => exact fun _ _ => hb
  | dashboard owner now => exact fun _ _ => hb
  | get id => trivial
  | running owner page => trivial

theorem session_keeps {k : Contract} {rs : List Request}
    (h : ∀ r ∈ rs, r.Builds k ∧ ∀ now ∈ r.clock?, k.clock now.wholeSecond) (policy : Policy)
    (drawn : Option EntryId) : (session policy rs).Keeps k (fun _ => True) drawn :=
  (session_heeds (fun r hr => r.permitted_of_builds (h r hr).1 (h r hr).2 policy) drawn).keeps

end Timesheet
