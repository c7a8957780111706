import Timesheet.Proofs.Effect

namespace Timesheet

open Service

variable {α σ : Type} [Store σ]

/-- The fault tells that an entry was stored without bringing its totals up to date. -/
def ServiceFault.IsStale (f : ServiceFault) : Prop :=
  ∃ id cause, f = .stale id cause

instance : DecidablePred ServiceFault.IsStale
  | .stale id cause => isTrue ⟨id, cause, rfl⟩
  | .refused _ => isFalse fun ⟨_, _, h⟩ => by cases h
  | .notFound _ _ => isFalse fun ⟨_, _, h⟩ => by cases h
  | .alreadyRunning _ _ => isFalse fun ⟨_, _, h⟩ => by cases h
  | .store _ _ => isFalse fun ⟨_, _, h⟩ => by cases h

structure Entry.WrittenAt (now : Instant) (old : Option Entry) (e : Entry) : Prop where
  updated : e.updated = now.wholeSecond
  instants : ∀ i ∈ e.instants,
    i = now.wholeSecond ∨ (i.IsWhole ∧ i.IsStorable) ∨ ∃ e₀ ∈ old, i ∈ e₀.instants

inductive Edited (now : Instant) (d : Desk σ) :
    Option Entry → Option Entry → σ → List (σ × Call) → Prop
  | insert {e : Entry} {s : σ} (hid : e.id = d.ids.next) (hwritten : e.WrittenAt now none)
      (h : Store.insert d.store e = .ok s) : Edited now d none (some e) s [(d.store, .insert e)]
  | replace {id : EntryId} {e e' : Entry} {s : σ} (hfetch : Store.fetch d.store id = .ok e)
      (hid : e'.id = e.id) (hwritten : e'.WrittenAt now (some e))
      (h : Store.replace d.store e' = .ok s) :
      Edited now d (some e) (some e') s [(d.store, .fetch id), (d.store, .replace e')]
  | erase {id : EntryId} {e : Entry} {s : σ} (hfetch : Store.fetch d.store id = .ok e)
      (h : Store.erase d.store id = .ok s) :
      Edited now d (some e) none s [(d.store, .fetch id), (d.store, .erase id)]

def Unmoved (old new : Option Entry) : Prop :=
  (old = none ∧ ∃ e, new = some e ∧ e.duration = Entry.runningDuration) ∨
    ∃ e e', old = some e ∧ new = some e' ∧ e'.task = e.task ∧ e'.project = e.project ∧
      e'.duration = e.duration

/-- What an operation on an entry comes to. -/
inductive Handled (policy : Policy) (now : Instant) (d : Desk σ)
    (p : Program (Except ServiceFault Entry)) : Prop
  | failed {f : ServiceFault} {d' : Desk σ} {t : List (σ × Call)} (hran : Ran d p (.error f) d' t)
      (hstore : d'.store = d.store) (hf : ¬f.IsStale) (hquiet : recorded t = [])
  | kept {old new : Option Entry} {e : Entry} {d' : Desk σ} {q t : List (σ × Call)}
      (h : Edited now d old new d'.store t) (hsame : policy.resyncOnEdit = true → Unmoved old new)
      (hquiet : recorded q = []) (hran : Ran d p (.ok e) d' (q ++ t))
  | synced {old new : Option Entry} {e : Entry} {r : Except ServiceFault Entry} {s : σ}
      {d' : Desk σ} {tasks ts : List TaskId} {projects ps : List ProjectId} {t u : List (σ × Call)}
      (h : Edited now d old new s t)
      (htasks : ∀ id, id ∈ tasks ↔ ∃ e, (e ∈ old ∨ e ∈ new) ∧ e.task = id)
      (hprojects : ∀ id, id ∈ projects ↔ ∃ e, (e ∈ old ∨ e ∈ new) ∧ e.project = id)
      (hsync : Synced now s ts ps d'.store u)
      (hr : (r = .ok e ∧ ts = targets tasks ∧ ps = targets projects) ∨
        ∃ cause, r = .error (.stale e.id cause))
      (he : e ∈ old ∨ e ∈ new)
      (hran : Ran d p r d' (t ++ u))

namespace Entry

variable {e e' : Entry} {now : Instant}

theorem running_writtenAt (id : EntryId) (user : UserId) (details : EntryDetails) (now : Instant) :
    (running id user details now).WrittenAt now none := by
  refine ⟨rfl, fun i hi => .inl ?_⟩
  rcases mem_instants.mp hi with h | h | h | h
  · exact h
  · exact h
  · exact h
  · cases h

theorem finished_writtenAt {id : EntryId} {user : UserId} {details : EntryDetails}
    {start : Instant} {duration : Int} (h : finished id user details start duration now = .ok e) :
    e.WrittenAt now none := by
  obtain ⟨-, hstart, stop, hstop, hadd, rfl⟩ := finished_eq_ok.mp h
  refine ⟨rfl, fun i hi => ?_⟩
  rcases mem_instants.mp hi with rfl | rfl | rfl | h
  · exact .inr (.inl ⟨start.wholeSecond_isWhole, hstart⟩)
  · exact .inl rfl
  · exact .inl rfl
  · obtain ⟨⟩ := h
    exact .inr (.inl ⟨Instant.isWhole_of_addSeconds? start.wholeSecond_isWhole hadd, hstop⟩)

theorem stopAt_writtenAt (h : e.stopAt now = .ok e') : e'.WrittenAt now (some e) := by
  obtain ⟨-, -, rfl⟩ := stopAt_eq_ok.mp h
  refine ⟨rfl, fun i hi => ?_⟩
  rcases mem_instants.mp hi with rfl | rfl | rfl | h
  · exact .inr (.inr ⟨e, rfl, mem_instants.mpr (.inl rfl)⟩)
  · exact .inr (.inr ⟨e, rfl, mem_instants.mpr (.inr (.inl rfl))⟩)
  · exact .inl rfl
  · obtain ⟨⟩ := h
    exact .inl rfl

theorem applyPatch_writtenAt {p : Patch} (h : e.applyPatch p now = .ok e') :
    e'.WrittenAt now (some e) := by
  obtain ⟨hi, -, -, -, hcreated, hupdated⟩ := applyPatch_eq_ok h
  have hpatched := patchedInterval_eq_ok hi
  refine ⟨hupdated, fun i hi => ?_⟩
  rcases mem_instants.mp hi with rfl | rfl | rfl | hstop
  · rcases hpatched with heq | ⟨hs | ⟨s, -, heq, hs⟩, -, -⟩
    · have hs : e'.start = e.start := congrArg Interval.start heq
      exact .inr (.inr ⟨e, rfl, mem_instants.mpr (.inl hs)⟩)
    · exact .inr (.inr ⟨e, rfl, mem_instants.mpr (.inl hs)⟩)
    · have hwhole : e'.start = s.wholeSecond := heq
      exact .inr (.inl ⟨hwhole ▸ s.wholeSecond_isWhole, hs⟩)
  · exact .inr (.inr ⟨e, rfl, mem_instants.mpr (.inr (.inl hcreated))⟩)
  · exact .inl hupdated
  · have hkept (h : e'.stop = e.stop) : ∃ e₀ ∈ some e, i ∈ e₀.instants :=
      ⟨e, rfl, mem_instants.mpr (.inr (.inr (.inr (h ▸ hstop))))⟩
    rcases hpatched with heq | ⟨-, ht | ⟨s, -, ht, hs⟩, -⟩
    · exact .inr (.inr (hkept (congrArg Interval.stop heq)))
    · exact .inr (.inr (hkept ht))
    · obtain rfl : s.wholeSecond = i := Option.some.inj (ht.symm.trans hstop)
      exact .inr (.inl ⟨s.wholeSecond_isWhole, hs⟩)

theorem editTags_writtenAt (e : Entry) (tags : List String) (mode : TagMode) (now : Instant) :
    (e.editTags tags mode now).WrittenAt now (some e) := by
  refine ⟨rfl, fun i hi => ?_⟩
  rcases mem_instants.mp hi with h | h | h | h
  · exact .inr (.inr ⟨e, rfl, mem_instants.mpr (.inl h)⟩)
  · exact .inr (.inr ⟨e, rfl, mem_instants.mpr (.inr (.inl h))⟩)
  · exact .inl h
  · exact .inr (.inr ⟨e, rfl, mem_instants.mpr (.inr (.inr (.inr h)))⟩)

end Entry

section Faults

theorem not_isStale_refused {g : Refusal} : ¬(ServiceFault.refused g).IsStale := by
  rintro ⟨id, cause, ⟨⟩⟩

theorem isStale_addressFault {kind : IdentifierKind} {action : Action} {id : Identifier kind}
    {e : StoreFault} : ¬(addressFault action id e).IsStale := by
  rintro ⟨id', cause, h⟩
  cases e <;> simp [addressFault] at h

end Faults

end Timesheet
