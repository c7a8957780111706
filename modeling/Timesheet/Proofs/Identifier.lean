import Timesheet.Identifier
import Timesheet.Proofs.Digits
import Timesheet.Proofs.Trimming
import Timesheet.Store.Memory

namespace Timesheet

namespace Uuid

theorem exists_groups {s : List Char} (h : s.length = 32) : ∃ a b c d e : List Char,
    a.length = 8 ∧ b.length = 4 ∧ c.length = 4 ∧ d.length = 4 ∧ e.length = 12 ∧
      s = a ++ (b ++ (c ++ (d ++ e))) := by
  refine ⟨s.take 8, (s.drop 8).take 4, (s.drop 12).take 4, (s.drop 16).take 4, s.drop 20, ?_, ?_,
    ?_, ?_, ?_, ?_⟩
  · simp [h]
  · simp [h]
  · simp [h]
  · simp [h]
  · simp [h]
  · have h16 : (s.drop 16).take 4 ++ s.drop 20 = s.drop 16 := by
      rw [show s.drop 20 = (s.drop 16).drop 4 by simp, List.take_append_drop]
    have h12 : (s.drop 12).take 4 ++ s.drop 16 = s.drop 12 := by
      rw [show s.drop 16 = (s.drop 12).drop 4 by simp, List.take_append_drop]
    have h8 : (s.drop 8).take 4 ++ s.drop 12 = s.drop 8 := by
      rw [show s.drop 12 = (s.drop 8).drop 4 by simp, List.take_append_drop]
    rw [h16, h12, h8, List.take_append_drop]

theorem hyphenate_groups {a b c d e : List Char} (ha : a.length = 8) (hb : b.length = 4)
    (hc : c.length = 4) (hd : d.length = 4) : hyphenate (a ++ (b ++ (c ++ (d ++ e)))) =
      a ++ '-' :: (b ++ '-' :: (c ++ '-' :: (d ++ '-' :: e))) := by
  simp [hyphenate, List.drop_append, List.drop_eq_nil_of_le, ha, hb, hc, hd]

theorem joinGroups?_hyphenate {s : List Char} (h : s.length = 32) :
    joinGroups? (hyphenate s) = some s := by
  obtain ⟨a, b, c, d, e, ha, hb, hc, hd, he, rfl⟩ := exists_groups h
  rw [hyphenate_groups ha hb hc hd]
  simp [joinGroups?, List.drop_append, List.drop_eq_nil_of_le,
    ha, hb, hc, hd, he]

theorem hyphenate_length {s : List Char} (h : s.length = 32) : (hyphenate s).length = 36 := by
  obtain ⟨a, b, c, d, e, ha, hb, hc, hd, he, rfl⟩ := exists_groups h
  rw [hyphenate_groups ha hb hc hd]
  simp [ha, hb, hc, hd, he]

theorem ofDigits?_fixedHex (u : Uuid) : ofDigits? (Text.fixedHex 32 u.number) = some u := by
  unfold ofDigits?
  rw [if_pos (Text.fixedHex_length 32 _), Text.readHex?_fixedHex]
  simp [ofNat, Nat.mod_eq_of_lt u.number_lt]

theorem ofHyphenated?_chars (u : Uuid) : ofHyphenated? u.chars = some u := by
  unfold ofHyphenated? chars
  rw [joinGroups?_hyphenate (Text.fixedHex_length 32 _), Option.bind_some, ofDigits?_fixedHex]

theorem chars_length (u : Uuid) : u.chars.length = 36 :=
  hyphenate_length (Text.fixedHex_length 32 _)

theorem ofChars?_chars (u : Uuid) : ofChars? u.chars = some u := by
  have hdigits : ofDigits? u.chars = none := by
    unfold ofDigits?
    rw [chars_length]
    rfl
  unfold ofChars?
  rw [hdigits, ofHyphenated?_chars]
  rfl

theorem charsBefore_hyphenate {s t : List Char} (hs : s.length = 32) (ht : t.length = 32) :
    Text.charsBefore (hyphenate s) (hyphenate t) = Text.charsBefore s t := by
  -- Equal hyphens at equal places do not matter for the order.
  have hcons (x y : List Char) : Text.charsBefore ('-' :: x) ('-' :: y) = Text.charsBefore x y := by
    simp [Text.charsBefore]
  obtain ⟨a, b, c, d, e, ha, hb, hc, hd, he, rfl⟩ := exists_groups hs
  obtain ⟨a', b', c', d', e', ha', hb', hc', hd', he', rfl⟩ := exists_groups ht
  rw [hyphenate_groups ha hb hc hd, hyphenate_groups ha' hb' hc' hd']
  simp only [Text.charsBefore_append, ha, ha', hb, hb', hc, hc', hd, hd', hcons]

theorem before_text (a b : Uuid) : Text.before a.text b.text = decide (a.number < b.number) := by
  have hlt (u : Uuid) : u.number < 16 ^ 32 := u.number_lt
  unfold Text.before text
  rw [String.toList_ofList, String.toList_ofList]
  unfold chars
  rw [charsBefore_hyphenate (Text.fixedHex_length 32 _) (Text.fixedHex_length 32 _),
    Text.charsBefore_fixedHex (hlt a) (hlt b)]

end Uuid

theorem Text.hexDigit_not_blank {n : Nat} (h : n < 16) : isBlank (hexDigit n) = false := by
  interval_cases n <;> rfl

theorem Text.not_blank_of_mem_fixedHex {w n : Nat} {c : Char} (h : c ∈ fixedHex w n) :
    isBlank c = false := by
  induction w with
  | zero => simp [fixedHex] at h
  | succ w ih =>
    rcases List.mem_cons.mp h with rfl | h
    · exact hexDigit_not_blank (Nat.mod_lt _ (by decide))
    · exact ih h

theorem Uuid.not_blank_of_mem_chars {u : Uuid} {c : Char} (h : c ∈ u.chars) :
    Text.isBlank c = false := by
  have hsub : c ∈ Text.fixedHex 32 u.number ∨ c = '-' := by
    unfold chars hyphenate at h
    simp only [List.append_assoc, List.cons_append, List.mem_append, List.mem_cons] at h
    rcases h with h | rfl | h | rfl | h | rfl | h | rfl | h
    · exact .inl (List.mem_of_mem_take h)
    · exact .inr rfl
    · exact .inl (List.mem_of_mem_drop (List.mem_of_mem_take h))
    · exact .inr rfl
    · exact .inl (List.mem_of_mem_drop (List.mem_of_mem_take h))
    · exact .inr rfl
    · exact .inl (List.mem_of_mem_drop (List.mem_of_mem_take h))
    · exact .inr rfl
    · exact .inl (List.mem_of_mem_drop h)
  rcases hsub with h | rfl
  · exact Text.not_blank_of_mem_fixedHex h
  · rfl

namespace Identifier

variable {kind : IdentifierKind}

@[simp]
theorem parse_text (a : Identifier kind) : parse kind a.text = .ok a := by
  unfold parse text Uuid.text
  rw [String.toList_ofList, Text.trimmed_of_not_blank fun _ h => Uuid.not_blank_of_mem_chars h,
    Uuid.ofChars?_chars]

theorem text_inj {a b : Identifier kind} : a.text = b.text ↔ a = b := by
  refine ⟨fun h => ?_, fun h => h ▸ rfl⟩
  have hp := parse_text a
  rw [h, parse_text] at hp
  exact (Except.ok.inj hp).symm

theorem before_text (a b : Identifier kind) :
    Text.before a.text b.text = KeyOrder.before a b :=
  Uuid.before_text a.uuid b.uuid

end Identifier
end Timesheet
