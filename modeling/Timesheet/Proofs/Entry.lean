import Mathlib.Tactic
import Timesheet.Entry

namespace Timesheet

theorem mapError_eq_ok {ε ε' α : Type} {f : ε → ε'} {x : Except ε α} {a : α} :
    x.mapError f = .ok a ↔ x = .ok a := by
  cases x <;> simp [Except.mapError]

theorem mapError_eq_error {ε ε' α : Type} {f : ε → ε'} {x : Except ε α} {e : ε'} :
    x.mapError f = .error e ↔ ∃ e', x = .error e' ∧ f e' = e := by
  cases x <;> simp [Except.mapError]

theorem bind_eq_ok {ε α β : Type} {x : Except ε α} {f : α → Except ε β} {b : β} :
    x >>= f = .ok b ↔ ∃ a, x = .ok a ∧ f a = .ok b := by
  cases x <;> simp [bind, Except.bind]

theorem bind_eq_error {ε α β : Type} {x : Except ε α} {f : α → Except ε β} {e : ε} :
    x >>= f = .error e ↔ x = .error e ∨ ∃ a, x = .ok a ∧ f a = .error e := by
  cases x <;> simp [bind, Except.bind]

theorem mapM_eq_ok_iff {ε α β : Type} {f : α → Except ε β} {s : List α} {t : List β} :
    s.mapM f = .ok t ↔ s.map f = t.map .ok := by
  induction s generalizing t with
  | nil => cases t <;> simp [pure, Except.pure]
  | cons a s ih =>
    simp only [List.mapM_cons, bind_eq_ok, ih, pure, Except.pure, Except.ok.injEq]
    cases t <;> simp

theorem require_eq_ok {α : Type} {field : Field} {x : Option α} {a : α} :
    require field x = .ok a ↔ x = some a := by
  cases x <;> simp [require]

theorem storable_eq_ok {field : Field} {i j : Instant} :
    storable field i = .ok j ↔ i.IsStorable ∧ i = j := by
  unfold storable
  split <;> simp_all

theorem intervalSeconds_eq_ok {start stop : Instant} {n : Int} :
    intervalSeconds start stop = .ok n ↔ ¬stop < start ∧ start.secondsUntil stop = n := by
  unfold intervalSeconds
  split <;> simp_all

namespace Entry

theorem endOf_eq_ok {start stop : Instant} {duration : Int} :
    endOf start duration = .ok stop ↔ start.addSeconds? duration = some stop ∧ stop.IsStorable := by
  unfold endOf
  cases start.addSeconds? duration with
  | none => simp
  | some i =>
    by_cases hi : i.IsStorable
    · simp only [hi, ↓reduceIte, Except.ok.injEq, Option.some.injEq]
      exact ⟨fun h => ⟨h, h ▸ hi⟩, And.left⟩
    · simp only [hi, ↓reduceIte, reduceCtorEq, Option.some.injEq, false_iff, not_and]
      rintro rfl
      exact hi

theorem finished_eq_ok {id : EntryId} {user : UserId} {d : EntryDetails} {start now : Instant}
    {duration : Int} {e : Entry} :
    finished id user d start duration now = .ok e ↔
      0 ≤ duration ∧ start.wholeSecond.IsStorable ∧ ∃ stop : Instant, stop.IsStorable ∧
        start.wholeSecond.addSeconds? duration = some stop ∧
        e = assemble id user d start.wholeSecond (some stop) duration now := by
  unfold finished
  by_cases hd : duration < 0
  · simp only [hd, ↓reduceIte]
    exact ⟨fun h => by simp [throw, throwThe, MonadExceptOf.throw, bind, Except.bind] at h,
      fun h => by omega⟩
  · simp only [hd, ↓reduceIte, bind_eq_ok, storable_eq_ok, endOf_eq_ok]
    constructor
    · rintro ⟨i, ⟨hi, rfl⟩, stop, ⟨hadd, hstop⟩, ⟨⟩⟩
      exact ⟨by omega, hi, stop, hstop, hadd, rfl⟩
    · rintro ⟨-, hi, stop, hstop, hadd, rfl⟩
      exact ⟨_, ⟨hi, rfl⟩, stop, ⟨hadd, hstop⟩, rfl⟩

theorem stopAt_eq_ok {e e' : Entry} {now : Instant} :
    e.stopAt now = .ok e' ↔ now.wholeSecond.IsStorable ∧ ¬now.wholeSecond < e.start ∧
      e' = { e with
        stop := some now.wholeSecond
        duration := e.start.secondsUntil now.wholeSecond
        updated := now.wholeSecond } := by
  unfold stopAt
  simp only [bind_eq_ok, storable_eq_ok, intervalSeconds_eq_ok]
  constructor
  · rintro ⟨i, ⟨hi, rfl⟩, n, ⟨hn, rfl⟩, ⟨⟩⟩
    exact ⟨hi, hn, rfl⟩
  · rintro ⟨hi, hn, rfl⟩
    exact ⟨_, ⟨hi, rfl⟩, _, ⟨hn, rfl⟩, rfl⟩

def interval (e : Entry) : Interval :=
  ⟨e.start, e.stop, e.duration⟩

theorem applyPatch_eq_ok {e e' : Entry} {p : Patch} {now : Instant}
    (h : e.applyPatch p now = .ok e') :
    e.patchedInterval p = .ok e'.interval ∧ e'.id = e.id ∧ e'.user = e.user ∧
      e'.createdWith = e.createdWith ∧ e'.created = e.created ∧ e'.updated = now.wholeSecond := by
  unfold applyPatch at h
  simp only [bind_eq_ok, mapError_eq_ok] at h
  obtain ⟨workspace, -, project, -, task, -, i, hi, ⟨⟩⟩ := h
  exact ⟨hi, rfl, rfl, rfl, rfl, rfl⟩

theorem patchedInterval_eq_ok {e : Entry} {p : Patch} {i : Interval}
    (h : e.patchedInterval p = .ok i) :
    i = e.interval ∨
      ((i.start = e.start ∨ ∃ s, p.start = some s ∧ i.start = s.wholeSecond ∧ i.start.IsStorable) ∧
        (i.stop = e.stop ∨ ∃ s, p.stop = some s ∧ i.stop = some s.wholeSecond ∧
          s.wholeSecond.IsStorable) ∧
        ((i.stop = none ∧ i.duration = runningDuration) ∨
          ∃ stop, i.stop = some stop ∧ ¬stop < i.start ∧ i.duration = i.start.secondsUntil stop)) := by
  unfold patchedInterval at h
  split at h
  · obtain ⟨⟩ := h
    exact .inl rfl
  · right
    simp only [bind_eq_ok] at h
    obtain ⟨start, hstart, stop, hstop, h⟩ := h
    have hs : start = e.start ∨ ∃ s, p.start = some s ∧ start = s.wholeSecond ∧ start.IsStorable := by
      cases hp : p.start with
      | none =>
        rw [hp] at hstart
        obtain ⟨⟩ := hstart
        exact .inl rfl
      | some s =>
        rw [hp] at hstart
        obtain ⟨hi, rfl⟩ := storable_eq_ok.mp hstart
        exact .inr ⟨s, rfl, rfl, hi⟩
    have ht : stop = e.stop ∨ ∃ s, p.stop = some s ∧ stop = some s.wholeSecond ∧
        s.wholeSecond.IsStorable := by
      cases hp : p.stop with
      | none =>
        rw [hp] at hstop
        obtain ⟨⟩ := hstop
        exact .inl rfl
      | some s =>
        rw [hp] at hstop
        change some <$> storable .stop s.wholeSecond = .ok stop at hstop
        rw [map_eq_pure_bind, bind_eq_ok] at hstop
        obtain ⟨j, hj, ⟨⟩⟩ := hstop
        obtain ⟨hi, rfl⟩ := storable_eq_ok.mp hj
        exact .inr ⟨s, rfl, rfl, hi⟩
    cases stop with
    | none =>
      obtain ⟨⟩ := h
      exact ⟨hs, ht, .inl ⟨rfl, rfl⟩⟩
    | some stop =>
      simp only [bind_eq_ok, intervalSeconds_eq_ok] at h
      obtain ⟨n, ⟨hlt, rfl⟩, ⟨⟩⟩ := h
      exact ⟨hs, ht, .inr ⟨stop, rfl, hlt, rfl⟩⟩

end Entry
end Timesheet
