import Timesheet.Database.Row
import Timesheet.Proofs.Entry
import Timesheet.Proofs.Shelf

namespace Timesheet

namespace Json

variable {s : List Char} {o k : Nat} {r : List Char}

theorem skipSpace_cons {x : Char} (h : Cursor.isSpace x = false) :
    Cursor.skipSpace ⟨x :: s, o⟩ = ⟨x :: s, o⟩ := by
  unfold Cursor.skipSpace
  rw [List.takeWhile_cons_of_neg (by simp [h])]
  rfl

theorem readString_ordinary {x : Char} (hquote : x ≠ '"') (hslash : x ≠ '\\')
    (hcontrol : ¬x.toNat < 0x20) : readString (k + 1) ⟨x :: s, o⟩ r =
      readString k (Cursor.drop ⟨x :: s, o⟩ 1) (x :: r) := by
  conv_lhs => unfold readString
  split <;> simp_all

theorem readString_hexEscape {x : Char} (h : x.toNat < 0x20) : ∃ o',
    readString (k + 1) ⟨hexEscape x ++ s, o⟩ r = readString k ⟨s, o'⟩ (x :: r) := by
  obtain ⟨n, hn, rfl⟩ : ∃ n < 32, x = Char.ofNat n := ⟨x.toNat, h, (Char.ofNat_toNat x).symm⟩
  clear h
  interval_cases n <;> exact ⟨_, rfl⟩

theorem readString_escapedChar (x : Char) : ∃ o',
    readString (k + 1) ⟨escapedChar x ++ s, o⟩ r = readString k ⟨s, o'⟩ (x :: r) := by
  unfold escapedChar
  split
  case h_8 =>
    split
    · exact readString_hexEscape ‹_›
    · exact ⟨_, readString_ordinary ‹_› ‹_› ‹_›⟩
  all_goals exact ⟨_, rfl⟩

theorem readString_escaped (t : List Char) (hk : t.length < k) : ∃ o',
    readString k ⟨t.flatMap escapedChar ++ '"' :: s, o⟩ r =
      .ok (String.ofList (r.reverse ++ t), ⟨s, o'⟩) := by
  induction t generalizing k o r with
  | nil =>
    obtain ⟨k, rfl⟩ := Nat.exists_eq_succ_of_ne_zero (Nat.ne_of_gt hk)
    rw [List.append_nil]
    exact ⟨_, rfl⟩
  | cons x t ih =>
    obtain ⟨k, rfl⟩ := Nat.exists_eq_succ_of_ne_zero (Nat.ne_of_gt (Nat.zero_lt_of_lt hk))
    rw [List.flatMap_cons, List.append_assoc]
    obtain ⟨o₁, h₁⟩ := readString_escapedChar (k := k) (o := o) (r := r)
      (s := t.flatMap escapedChar ++ '"' :: s) x
    obtain ⟨o₂, h₂⟩ := ih (o := o₁) (r := x :: r) (Nat.lt_of_succ_lt_succ hk)
    rw [h₁, h₂]
    exact ⟨o₂, by simp⟩

theorem escaped_length (t : List Char) : t.length ≤ (t.flatMap escapedChar).length := by
  have hone (x : Char) : 1 ≤ (escapedChar x).length := by
    unfold escapedChar
    split
    case h_8 => split <;> simp [hexEscape]
    all_goals simp
  induction t with
  | nil => simp
  | cons x t ih =>
    have := hone x
    rw [List.flatMap_cons, List.length_append, List.length_cons]
    omega

theorem readString_stringChars (t : String) : ∃ o',
    readString (stringChars t ++ s).length (Cursor.drop ⟨stringChars t ++ s, o⟩ 1) [] =
      .ok (t, ⟨s, o'⟩) := by
  have hlen := escaped_length t.toList
  have hchars : stringChars t ++ s = '"' :: (t.toList.flatMap escapedChar ++ '"' :: s) := by
    simp [stringChars]
  rw [hchars]
  obtain ⟨o', h⟩ := readString_escaped (k := ('"' :: (t.toList.flatMap escapedChar ++
    '"' :: s)).length) (o := (Cursor.drop ⟨'"' :: (t.toList.flatMap escapedChar ++ '"' :: s), o⟩
      1).offset) (s := s) (r := []) t.toList
    (by simp only [List.length_cons, List.length_append]; omega)
  refine ⟨o', ?_⟩
  rw [List.reverse_nil, List.nil_append, String.ofList_toList] at h
  exact h

def behindCommas (ps : List (List Char)) : List Char :=
  ps.flatMap fun p => ',' :: p

theorem commaSeparated_eq (p : List Char) (ps : List (List Char)) :
    commaSeparated (p :: ps) = p ++ behindCommas ps := by
  induction ps generalizing p with
  | nil => simp [commaSeparated, behindCommas]
  | cons q ps ih =>
    rw [commaSeparated, ih]
    · simp [behindCommas]
    · simp

def tailChars (ts : List String) : List Char :=
  ts.flatMap fun t => ',' :: stringChars t

theorem commaSeparated_cons (t : String) (ts : List String) :
    commaSeparated ((t :: ts).map stringChars) = stringChars t ++ tailChars ts := by
  rw [List.map_cons, commaSeparated_eq, behindCommas, List.flatMap_map]
  rfl

theorem charsOfList_eq (xs : List Json) : charsOfList xs = xs.map chars := by
  induction xs with
  | nil => rfl
  | cons x xs ih => rw [charsOfList, ih, List.map_cons]

theorem readStringElement_stringChars (t : String) (r : List String) : ∃ o',
    readStringElements.readStringElement k ⟨stringChars t ++ s, o⟩ r =
      readStringElements k ⟨s, o'⟩ (t :: r) := by
  obtain ⟨o', h⟩ := readString_stringChars (s := s) (o := o) t
  refine ⟨o', ?_⟩
  unfold readStringElements.readStringElement
  split
  · simp only [h]
  · rename_i hne
    exact absurd rfl (hne _)

theorem readStringElements_tailChars (ts : List String) {r : List String} (hread : r ≠ [])
    (hk : ts.length < k) : ∃ o',
      readStringElements k ⟨tailChars ts ++ ']' :: s, o⟩ r =
        .ok (r.reverse ++ ts, ⟨s, o'⟩) := by
  induction ts generalizing k o r with
  | nil =>
    obtain ⟨k, rfl⟩ := Nat.exists_eq_succ_of_ne_zero (Nat.ne_of_gt hk)
    refine ⟨(Cursor.drop ⟨']' :: s, o⟩ 1).offset, ?_⟩
    change readStringElements (k + 1) ⟨']' :: s, o⟩ r = _
    rw [readStringElements, skipSpace_cons rfl, List.append_nil]
    rfl
  | cons t ts ih =>
    obtain ⟨k, rfl⟩ := Nat.exists_eq_succ_of_ne_zero (Nat.ne_of_gt (Nat.zero_lt_of_lt hk))
    have htail : tailChars (t :: ts) ++ ']' :: s =
        ',' :: (stringChars t ++ (tailChars ts ++ ']' :: s)) := by
      simp [tailChars]
    have hempty : r.isEmpty = false := by simpa using hread
    rw [htail, readStringElements, skipSpace_cons rfl]
    simp only [hempty, Bool.false_eq_true, ↓reduceIte]
    have hskip (o : Nat) : Cursor.skipSpace (Cursor.drop
        ⟨',' :: (stringChars t ++ (tailChars ts ++ ']' :: s)), o⟩ 1) =
          Cursor.drop ⟨',' :: (stringChars t ++ (tailChars ts ++ ']' :: s)), o⟩ 1 :=
      skipSpace_cons rfl
    rw [hskip]
    obtain ⟨o₁, h₁⟩ := readStringElement_stringChars (k := k)
      (s := tailChars ts ++ ']' :: s) (o := (Cursor.drop
        ⟨',' :: (stringChars t ++ (tailChars ts ++ ']' :: s)), o⟩ 1).offset) t r
    obtain ⟨o₂, h₂⟩ := ih (k := k) (o := o₁) (r := t :: r) (by simp)
      (Nat.lt_of_succ_lt_succ hk)
    refine ⟨o₂, ?_⟩
    rw [h₂] at h₁
    rw [List.reverse_cons, List.append_assoc] at h₁
    exact h₁

theorem expectEnd_nil {α : Type} (a : α) (o : Nat) : expectEnd (a, ⟨[], o⟩) = .ok a := by
  simp [expectEnd, Cursor.skipSpace, Cursor.drop]

theorem readStrings_compact (ts : List String) :
    readStrings (array (ts.map string)).compact = .ok ts := by
  have hchars : charsOfList (ts.map string) = ts.map stringChars := by
    rw [charsOfList_eq, List.map_map]
    exact List.map_congr_left fun t _ => by rw [Function.comp_apply, chars]
  unfold readStrings compact
  rw [String.toList_ofList, chars, hchars]
  dsimp only
  cases ts with
  | nil =>
    rw [List.map_nil, commaSeparated, List.cons_append, List.nil_append, skipSpace_cons rfl]
    change readStringElements 3 (Cursor.drop ⟨['[', ']'], 0⟩ 1) [] >>= expectEnd = _
    have hskip : Cursor.skipSpace (Cursor.drop ⟨['[', ']'], 0⟩ 1) = Cursor.drop ⟨['[', ']'], 0⟩ 1 :=
      skipSpace_cons rfl
    rw [readStringElements, hskip]
    exact expectEnd_nil _ _
  | cons t ts =>
    have hcons : '[' :: commaSeparated ((t :: ts).map stringChars) ++ [']'] =
        '[' :: (stringChars t ++ (tailChars ts ++ [']'])) := by
      rw [commaSeparated_cons]
      simp
    have hlen : ts.length < ('[' :: (stringChars t ++ (tailChars ts ++ [']']))).length := by
      have hpos : ts.length ≤ (tailChars ts).length := by
        induction ts with
        | nil => simp
        | cons t ts ih => simp [tailChars] at ih ⊢; omega
      simp only [List.length_cons, List.length_append]
      omega
    rw [hcons, skipSpace_cons rfl]
    obtain ⟨o₁, h₁⟩ := readStringElement_stringChars
      (k := ('[' :: (stringChars t ++ (tailChars ts ++ [']']))).length) (s := tailChars ts ++ [']'])
      (o := (Cursor.drop ⟨'[' :: (stringChars t ++ (tailChars ts ++ [']'])), 0⟩ 1).offset) t []
    obtain ⟨o₂, h₂⟩ := readStringElements_tailChars (s := []) (o := o₁) ts (r := [t]) (by simp)
      hlen
    have hskip : Cursor.skipSpace (Cursor.drop
        ⟨'[' :: (stringChars t ++ (tailChars ts ++ [']'])), 0⟩ 1) =
          Cursor.drop ⟨'[' :: (stringChars t ++ (tailChars ts ++ [']'])), 0⟩ 1 := skipSpace_cons rfl
    rw [readStringElements, hskip]
    have h := congrArg (· >>= expectEnd) (h₁.trans h₂)
    exact h.trans (expectEnd_nil _ _)

end Json

theorem TagSet.ofList_items (tags : TagSet) : TagSet.ofList tags.items = tags := by
  apply Shelf.ext
  exact Shelf.items_foldl_put tags.ascending

theorem readTags_tagsText (record : String) (tags : TagSet) :
    readTags record (tagsText tags) = .ok tags := by
  unfold readTags tagsText
  rw [Json.readStrings_compact]
  exact congrArg Except.ok (TagSet.ofList_items tags)

end Timesheet
