import Timesheet.Text.Blank

namespace Timesheet.Text

variable {l r s t : List Char}

/-- Neither end is a blank. -/
structure IsTrimmed (s : List Char) : Prop where
  first : ∀ c ∈ s.head?, isBlank c = false
  last : ∀ c ∈ s.getLast?, isBlank c = false

theorem span_iff {p : Char → Bool} : s.takeWhile p = l ∧ s.dropWhile p = t ↔
    (∀ c ∈ l, p c = true) ∧ (∀ c ∈ t.head?, p c = false) ∧ s = l ++ t := by
  constructor
  · rintro ⟨rfl, rfl⟩
    refine ⟨List.all_eq_true.mp List.all_takeWhile, fun c hc => ?_,
      List.takeWhile_append_dropWhile.symm⟩
    have hhead := List.head?_dropWhile_not p s
    rw [Option.mem_def.mp hc] at hhead
    simpa using hhead
  · rintro ⟨hl, ht, rfl⟩
    rw [List.takeWhile_append_of_pos hl, List.dropWhile_append_of_pos hl]
    cases t with
    | nil => simp
    | cons c t =>
      have hc : ¬p c = true := by simp [ht c rfl]
      rw [List.takeWhile_cons_of_neg hc, List.dropWhile_cons_of_neg hc, List.append_nil]
      exact ⟨rfl, rfl⟩

theorem trimStart_eq_iff :
    trimStart s = t ↔
      (∀ c ∈ t.head?, isBlank c = false) ∧ ∃ l, (∀ c ∈ l, isBlank c = true) ∧ s = l ++ t := by
  constructor
  · intro h
    obtain ⟨hl, ht, hs⟩ := span_iff.mp ⟨rfl, h⟩
    exact ⟨ht, _, hl, hs⟩
  · rintro ⟨ht, l, hl, hs⟩
    exact (span_iff.mpr ⟨hl, ht, hs⟩).2

theorem trimEnd_eq_iff :
    trimEnd s = t ↔
      (∀ c ∈ t.getLast?, isBlank c = false) ∧ ∃ r, (∀ c ∈ r, isBlank c = true) ∧ s = t ++ r := by
  have hreverse : trimEnd s = t ↔ trimStart s.reverse = t.reverse := by
    rw [← List.reverse_inj, trimEnd, List.reverse_reverse]
    rfl
  rw [hreverse, trimStart_eq_iff, List.head?_reverse]
  refine and_congr_right fun _ => ⟨?_, ?_⟩
  · rintro ⟨l, hl, hs⟩
    refine ⟨l.reverse, fun c hc => hl c (List.mem_reverse.mp hc), ?_⟩
    rw [← List.reverse_inj, hs, List.reverse_append, List.reverse_reverse]
  · rintro ⟨r, hr, rfl⟩
    exact ⟨r.reverse, fun c hc => hr c (List.mem_reverse.mp hc), List.reverse_append⟩

theorem trimmed_eq_iff :
    trimmed s = t ↔ IsTrimmed t ∧ ∃ l r, (∀ c ∈ l, isBlank c = true) ∧
      (∀ c ∈ r, isBlank c = true) ∧ s = l ++ t ++ r := by
  constructor
  · intro h
    obtain ⟨hlast, r, hr, hrest⟩ := trimEnd_eq_iff.mp h
    obtain ⟨hfirst, l, hl, hs⟩ := trimStart_eq_iff.mp (Eq.refl (trimStart s))
    refine ⟨⟨fun c hc => hfirst c ?_, hlast⟩, l, r, hl, hr, ?_⟩
    · rw [hrest, List.head?_append, Option.mem_def.mp hc]
      rfl
    · rw [List.append_assoc, ← hrest, ← hs]
  · rintro ⟨ht, l, r, hl, hr, rfl⟩
    cases t with
    | nil =>
      have hnil : trimStart (l ++ [] ++ r) = [] := by
        refine trimStart_eq_iff.mpr ⟨nofun, l ++ r, ?_, by simp⟩
        exact fun c hc => (List.mem_append.mp hc).elim (hl c) (hr c)
      rw [trimmed, hnil]
      rfl
    | cons c t =>
      have hstart : trimStart (l ++ (c :: t) ++ r) = (c :: t) ++ r :=
        trimStart_eq_iff.mpr ⟨ht.first, l, hl, List.append_assoc _ _ _⟩
      rw [trimmed, hstart]
      exact trimEnd_eq_iff.mpr ⟨ht.last, r, hr, rfl⟩

theorem isTrimmed_trimmed (s : List Char) : IsTrimmed (trimmed s) :=
  (trimmed_eq_iff.mp rfl).1

theorem trimmed_of_isTrimmed (h : IsTrimmed s) : trimmed s = s :=
  trimmed_eq_iff.mpr ⟨h, [], [], nofun, nofun, (List.append_nil s).symm⟩

theorem trimmed_of_not_blank (h : ∀ c ∈ s, isBlank c = false) : trimmed s = s :=
  trimmed_of_isTrimmed
    ⟨fun c hc => h c (List.mem_of_mem_head? hc), fun c hc => h c (List.mem_of_mem_getLast? hc)⟩

theorem trim_toList (s : String) : (trim s).toList = trimmed s.toList :=
  String.toList_ofList

theorem isBlankText_iff {s : String} : isBlankText s = true ↔ ∀ c ∈ s.toList, isBlank c = true :=
  List.all_eq_true

theorem trim_eq_iff {s t : String} :
    trim s = t ↔ IsTrimmed t.toList ∧ ∃ l r : String, isBlankText l = true ∧
      isBlankText r = true ∧ s = l ++ t ++ r := by
  rw [← String.toList_inj, trim_toList, trimmed_eq_iff]
  refine and_congr_right fun _ => ⟨?_, ?_⟩
  · rintro ⟨l, r, hl, hr, hs⟩
    refine ⟨.ofList l, .ofList r, isBlankText_iff.mpr ?_, isBlankText_iff.mpr ?_, ?_⟩
    · rwa [String.toList_ofList]
    · rwa [String.toList_ofList]
    · rw [← String.toList_inj, String.toList_append, String.toList_append, String.toList_ofList,
        String.toList_ofList, hs]
  · rintro ⟨l, r, hl, hr, rfl⟩
    refine ⟨l.toList, r.toList, isBlankText_iff.mp hl, isBlankText_iff.mp hr, ?_⟩
    rw [String.toList_append, String.toList_append]

theorem trim_eq_empty_iff {s : String} : trim s = "" ↔ isBlankText s = true := by
  rw [trim_eq_iff]
  constructor
  · rintro ⟨-, l, r, hl, hr, rfl⟩
    apply isBlankText_iff.mpr
    intro c hc
    rw [String.append_empty, String.toList_append] at hc
    exact (List.mem_append.mp hc).elim (isBlankText_iff.mp hl c) (isBlankText_iff.mp hr c)
  · intro h
    exact ⟨⟨nofun, nofun⟩, s, "", h, rfl, by rw [String.append_empty, String.append_empty]⟩

theorem trim_eq_self_iff {s : String} : trim s = s ↔ IsTrimmed s.toList := by
  rw [← String.toList_inj, trim_toList]
  exact ⟨fun h => h ▸ isTrimmed_trimmed _, trimmed_of_isTrimmed⟩

end Timesheet.Text
