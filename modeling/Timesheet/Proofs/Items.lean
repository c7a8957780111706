import Timesheet.Service.Batch
import Timesheet.Proofs.Trimming

/-!
Items of a list. They are written in one text with commas between them; blanks around an item do not
count, and neither do blank pieces among the items. Main statement: items that are written so are read
back in their order, and every text is such a way to write the items that are read from it.
-/

namespace Timesheet

open Service

theorem comma_notMem_of_mem_splitCommas {s p : List Char} (h : p ∈ splitCommas s) : ',' ∉ p := by
  induction s generalizing p with
  | nil =>
    rw [List.mem_singleton.mp h]
    exact List.not_mem_nil
  | cons c s ih =>
    rw [splitCommas, List.splitOn_cons_eq_if_modifyHead] at h
    obtain ⟨q, qs, hsplit⟩ := List.exists_cons_of_ne_nil (List.splitOn_ne_nil ',' s)
    rw [splitCommas, hsplit] at ih
    rw [hsplit] at h
    split at h
    · rcases List.mem_cons.mp h with rfl | h
      · exact List.not_mem_nil
      · exact ih h
    · rename_i hc
      rw [List.modifyHead_cons] at h
      rcases List.mem_cons.mp h with rfl | h
      · have hne : ',' ≠ c := fun heq => hc (beq_iff_eq.mpr heq.symm)
        exact List.not_mem_cons_of_ne_of_not_mem hne (ih List.mem_cons_self)
      · exact ih (List.mem_cons_of_mem _ h)

/-- The text lists the items, with commas between them; blanks around an item do not count. -/
def Lists (ids : String) (items : List String) : Prop :=
  ∃ pieces : List String, ids = ",".intercalate pieces ∧ (∀ p ∈ pieces, ',' ∉ p.toList) ∧
    items = (pieces.map Text.trim).filter fun s => s ≠ ""

theorem lists_iff {ids : String} {items : List String} :
    Lists ids items ↔ items = parseIdList ids := by
  constructor
  · rintro ⟨pieces, rfl, hcomma, rfl⟩
    by_cases hpieces : pieces = []
    · subst hpieces
      decide
    have hsplit : splitCommas (",".intercalate pieces).toList = pieces.map String.toList := by
      rw [String.toList_intercalate]
      refine List.splitOn_intercalate ',' ?_ (mt List.map_eq_nil_iff.mp hpieces)
      exact List.forall_mem_map.mpr hcomma
    rw [parseIdList, hsplit, List.map_map]
    rfl
  · rintro rfl
    refine ⟨(splitCommas ids.toList).map String.ofList, ?_, ?_, ?_⟩
    · rw [← String.toList_inj, String.toList_intercalate, List.map_map]
      have hid : String.toList ∘ String.ofList = id := funext fun l => String.toList_ofList
      rw [hid, List.map_id]
      exact (List.intercalate_splitOn ',').symm
    · refine List.forall_mem_map.mpr fun s hs => ?_
      rw [String.toList_ofList]
      exact comma_notMem_of_mem_splitCommas hs
    · rw [parseIdList, List.map_map]
      congr 2
      funext s
      exact congrArg (fun s => String.ofList (Text.trimmed s)) String.toList_ofList.symm

structure IsItem (s : String) : Prop where
  ne_empty : s ≠ ""
  comma_notMem : ',' ∉ s.toList
  isTrimmed : Text.IsTrimmed s.toList

/-- The items become the pieces when blanks are put around them, and blank pieces among them. -/
inductive Pads : List String → List String → Prop
  | nil : Pads [] []
  | blank {p : String} {items pieces : List String} (hp : Text.isBlankText p = true)
      (h : Pads items pieces) : Pads items (p :: pieces)
  | item {s l r : String} {items pieces : List String} (hl : Text.isBlankText l = true)
      (hr : Text.isBlankText r = true) (h : Pads items pieces) :
      Pads (s :: items) ((l ++ s ++ r) :: pieces)

variable {p ids : String} {items pieces : List String}

instance (s : String) : Decidable (IsItem s) :=
  decidable_of_iff (s ≠ "" ∧ ',' ∉ s.toList ∧ Text.trim s = s)
    ⟨fun ⟨hne, hcomma, htrim⟩ => ⟨hne, hcomma, Text.trim_eq_self_iff.mp htrim⟩,
      fun h => ⟨h.ne_empty, h.comma_notMem, Text.trim_eq_self_iff.mpr h.isTrimmed⟩⟩

theorem comma_notMem_of_isBlankText (h : Text.isBlankText p = true) : ',' ∉ p.toList :=
  fun hc => absurd (Text.isBlankText_iff.mp h ',' hc) (by decide)

theorem pads_refl (items : List String) : Pads items items := by
  induction items with
  | nil => exact .nil
  | cons s items ih =>
    have h : Pads (s :: items) (("" ++ s ++ "") :: items) := .item rfl rfl ih
    rwa [String.empty_append, String.append_empty] at h

namespace Pads

theorem comma_notMem (h : Pads items pieces) (hitems : ∀ s ∈ items, IsItem s) :
    ∀ p ∈ pieces, ',' ∉ p.toList := by
  induction h with
  | nil => exact List.forall_mem_nil _
  | blank hp h ih =>
    exact List.forall_mem_cons.mpr ⟨comma_notMem_of_isBlankText hp, ih hitems⟩
  | @item s l r items pieces hl hr h ih =>
    obtain ⟨hs, hitems⟩ := List.forall_mem_cons.mp hitems
    refine List.forall_mem_cons.mpr ⟨?_, ih hitems⟩
    rw [String.toList_append, String.toList_append, List.mem_append, List.mem_append]
    rintro ((hc | hc) | hc)
    · exact comma_notMem_of_isBlankText hl hc
    · exact hs.comma_notMem hc
    · exact comma_notMem_of_isBlankText hr hc

theorem eq_filter (h : Pads items pieces) (hitems : ∀ s ∈ items, IsItem s) :
    items = (pieces.map Text.trim).filter fun s => s ≠ "" := by
  induction h with
  | nil => rfl
  | blank hp h ih =>
    rw [List.map_cons, Text.trim_eq_empty_iff.mpr hp, List.filter_cons_of_neg (by simp)]
    exact ih hitems
  | @item s l r items pieces hl hr h ih =>
    obtain ⟨hs, hitems⟩ := List.forall_mem_cons.mp hitems
    have htrim : Text.trim (l ++ s ++ r) = s :=
      Text.trim_eq_iff.mpr ⟨hs.isTrimmed, l, r, hl, hr, rfl⟩
    rw [List.map_cons, htrim, List.filter_cons_of_pos (by simpa using hs.ne_empty), ← ih hitems]

end Pads

theorem pads_filter (pieces : List String) :
    Pads ((pieces.map Text.trim).filter fun s => s ≠ "") pieces := by
  induction pieces with
  | nil => exact .nil
  | cons p pieces ih =>
    rw [List.map_cons]
    -- A blank piece is left out, and any other is an item with the blanks that trimming takes away.
    by_cases hp : Text.trim p = ""
    · rw [List.filter_cons_of_neg (by simpa using hp)]
      exact .blank (Text.trim_eq_empty_iff.mp hp) ih
    · rw [List.filter_cons_of_pos (by simpa using hp)]
      obtain ⟨-, l, r, hl, hr, hpiece⟩ := Text.trim_eq_iff.mp (Eq.refl (Text.trim p))
      have h : Pads (Text.trim p :: _) ((l ++ Text.trim p ++ r) :: pieces) := .item hl hr ih
      rwa [← hpiece] at h

theorem isItem_trim (hcomma : ',' ∉ p.toList) (hne : Text.trim p ≠ "") : IsItem (Text.trim p) := by
  obtain ⟨htrimmed, l, r, -, -, hp⟩ := Text.trim_eq_iff.mp (Eq.refl (Text.trim p))
  refine ⟨hne, fun hc => hcomma ?_, htrimmed⟩
  rw [hp, String.toList_append, String.toList_append]
  exact List.mem_append_left _ (List.mem_append_right _ hc)

theorem lists_iff_pads : Lists ids items ↔
    (∀ s ∈ items, IsItem s) ∧ ∃ pieces, Pads items pieces ∧ ids = ",".intercalate pieces := by
  constructor
  · rintro ⟨pieces, rfl, hcomma, rfl⟩
    refine ⟨fun s hs => ?_, pieces, pads_filter pieces, rfl⟩
    obtain ⟨hs, hne⟩ := List.mem_filter.mp hs
    obtain ⟨p, hp, rfl⟩ := List.mem_map.mp hs
    exact isItem_trim (hcomma p hp) (of_decide_eq_true hne)
  · rintro ⟨hitems, pieces, hpads, rfl⟩
    exact ⟨pieces, rfl, hpads.comma_notMem hitems, hpads.eq_filter hitems⟩

theorem items_read_back :
    (∀ items pieces, (∀ s ∈ items, IsItem s) → Pads items pieces →
      parseIdList (",".intercalate pieces) = items) ∧
    ∀ ids, (∀ s ∈ parseIdList ids, IsItem s) ∧
      (∃ pieces, Pads (parseIdList ids) pieces ∧ ids = ",".intercalate pieces) ∧
      parseIdList (",".intercalate (parseIdList ids)) = parseIdList ids := by
  have hback (items pieces : List String) (hitems : ∀ s ∈ items, IsItem s)
      (hpads : Pads items pieces) : parseIdList (",".intercalate pieces) = items :=
    (lists_iff.mp (lists_iff_pads.mpr ⟨hitems, pieces, hpads, rfl⟩)).symm
  refine ⟨hback, fun ids => ?_⟩
  obtain ⟨hitems, hpieces⟩ := lists_iff_pads.mp (lists_iff.mpr (Eq.refl (parseIdList ids)))
  exact ⟨hitems, hpieces, hback _ _ hitems (pads_refl _)⟩

theorem items_read_back_spaced : (∀ s ∈ ["a", "b c", "a"], IsItem s) ∧
    Pads ["a", "b c", "a"] [" ", "\u3000a\t", "", "b c", "a ", ""] ∧
    parseIdList " ,\u3000a\t,,b c,a ," = ["a", "b c", "a"] := by
  have hitems : ∀ s ∈ ["a", "b c", "a"], IsItem s := by decide
  have hpads : Pads ["a", "b c", "a"] [" ", "\u3000a\t", "", "b c", "a ", ""] :=
    .blank rfl (.item (l := "\u3000") (r := "\t") rfl rfl (.blank rfl
      (.item (l := "") (r := "") rfl rfl (.item (l := "") (r := " ") rfl rfl (.blank rfl .nil)))))
  exact ⟨hitems, hpads, items_read_back.1 _ _ hitems hpads⟩

end Timesheet
