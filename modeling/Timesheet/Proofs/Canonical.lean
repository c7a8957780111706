import Timesheet.Proofs.Bytes
import Timesheet.Proofs.Mirror

/-!
The forms of an identifier. Main statement: a text is read as an identifier exactly if it is one of its
four forms, in letters of either case and between blanks; and the form that it is stored in compares as
the identifier does, so that rows are found and listed as the records of a memory are.
-/

namespace Timesheet

namespace Text

theorem toLower_toNat (c : Char) :
    c.toLower.toNat = if 65 ≤ c.toNat ∧ c.toNat ≤ 90 then c.toNat + 32 else c.toNat := by
  have hupper : 'A'.val ≤ c.val ∧ c.val ≤ 'Z'.val ↔ 65 ≤ c.toNat ∧ c.toNat ≤ 90 := Iff.rfl
  unfold Char.toLower
  split_ifs with h hn hn
  · change (c.val + ('a'.val - 'A'.val)).toNat = c.toNat + 32
    rw [UInt32.toNat_add, Nat.mod_eq_of_lt]
    · rfl
    · change c.toNat + 32 < 2 ^ 32
      omega
  · exact absurd (hupper.mp h) hn
  · exact absurd (hupper.mpr hn) h
  · rfl

theorem toUpper_toNat (c : Char) :
    c.toUpper.toNat = if 97 ≤ c.toNat ∧ c.toNat ≤ 122 then c.toNat - 32 else c.toNat := by
  have hlower : 'a'.val ≤ c.val ∧ c.val ≤ 'z'.val ↔ 97 ≤ c.toNat ∧ c.toNat ≤ 122 := Iff.rfl
  unfold Char.toUpper
  split_ifs with h hn hn
  · change (c.val + ('A'.val - 'a'.val)).toNat = c.toNat - 32
    rw [UInt32.toNat_add]
    change (c.toNat + 4294967264) % 4294967296 = c.toNat - 32
    omega
  · exact absurd (hlower.mp h) hn
  · exact absurd (hlower.mpr hn) h
  · rfl

theorem toLower_toUpper (c : Char) : c.toUpper.toLower = c.toLower := by
  apply Char.toNat_inj.mp
  rw [toLower_toNat, toLower_toNat, toUpper_toNat]
  split_ifs <;> omega

theorem toLower_eq_self_iff {c : Char} : c.toLower = c ↔ ¬(65 ≤ c.toNat ∧ c.toNat ≤ 90) := by
  rw [← Char.toNat_inj, toLower_toNat]
  split_ifs <;> omega

theorem toLower_eq_mark {c mark : Char} (h : mark.toNat < 97 ∨ 122 < mark.toNat)
    (hmark : ¬(65 ≤ mark.toNat ∧ mark.toNat ≤ 90)) : c.toLower = mark ↔ c = mark := by
  rw [← Char.toNat_inj, ← Char.toNat_inj, toLower_toNat]
  split_ifs <;> omega

theorem hexDigit_toNat {n : Nat} (h : n < 16) :
    (hexDigit n).toNat = if n < 10 then 48 + n else 87 + n := by
  interval_cases n <;> rfl

theorem hexValue?_eq_some {c : Char} {n : Nat} :
    hexValue? c = some n ↔ n < 16 ∧ c.toLower = hexDigit n := by
  constructor
  · intro h
    have hn : n < 16 := by
      unfold hexValue? at h
      grind
    refine ⟨hn, Char.toNat_inj.mp ?_⟩
    rw [toLower_toNat, hexDigit_toNat hn]
    unfold hexValue? at h
    grind
  · rintro ⟨hn, h⟩
    have h := congrArg Char.toNat h
    rw [toLower_toNat, hexDigit_toNat hn] at h
    unfold hexValue?
    grind

theorem readHex?_eq_some {s : List Char} {k n : Nat} : readHex? k s = some n ↔
    n / 16 ^ s.length = k ∧ s.map Char.toLower = fixedHex s.length n := by
  induction s generalizing k with
  | nil => simp [readHex?, fixedHex, eq_comm]
  | cons c s ih =>
    simp only [readHex?, Option.bind_eq_some_iff, hexValue?_eq_some, ih, List.length_cons,
      List.map_cons, fixedHex, Nat.pow_eq, List.cons.injEq, pow_succ, ← Nat.div_div_eq_div_mul]
    constructor
    · rintro ⟨d, ⟨hd, hc⟩, hk, hs⟩
      rw [hk]
      refine ⟨by omega, ?_, hs⟩
      rw [hc]
      congr 1
      omega
    · rintro ⟨hk, hc, hs⟩
      exact ⟨n / 16 ^ s.length % 16, ⟨Nat.mod_lt _ (by decide), hc⟩, by omega, hs⟩

end Text

namespace Uuid

variable {s t : List Char} {u v : Uuid}

theorem drop_of_getElem? {n : Nat} {c : Char} (h : s[n]? = some c) :
    s.drop n = c :: s.drop (n + 1) := by
  obtain ⟨hn, rfl⟩ := List.getElem?_eq_some_iff.mp h
  exact List.drop_eq_getElem_cons hn

theorem joinGroups?_eq_some : joinGroups? s = some t ↔ t.length = 32 ∧ s = hyphenate t := by
  constructor
  · intro h
    unfold joinGroups? at h
    dsimp only at h
    split at h
    · rename_i hs
      obtain ⟨hlength, h8, h13, h18, h23⟩ := hs
      have h9 : s.drop 9 = (s.drop 9).take 4 ++ s.drop 13 := by
        rw [show s.drop 13 = (s.drop 9).drop 4 by simp, List.take_append_drop]
      have h14 : s.drop 14 = (s.drop 14).take 4 ++ s.drop 18 := by
        rw [show s.drop 18 = (s.drop 14).drop 4 by simp, List.take_append_drop]
      have h19 : s.drop 19 = (s.drop 19).take 4 ++ s.drop 23 := by
        rw [show s.drop 23 = (s.drop 19).drop 4 by simp, List.take_append_drop]
      have hwhole : s = s.take 8 ++ '-' :: ((s.drop 9).take 4 ++ '-' :: ((s.drop 14).take 4 ++
          '-' :: ((s.drop 19).take 4 ++ '-' :: s.drop 24))) := by
        rw [← drop_of_getElem? h23, ← h19, ← drop_of_getElem? h18, ← h14,
          ← drop_of_getElem? h13, ← h9, ← drop_of_getElem? h8, List.take_append_drop]
      obtain rfl := Option.some.inj h
      refine ⟨by simp [hlength], ?_⟩
      simp only [List.append_assoc]
      rw [hyphenate_groups (by simp [hlength]) (by simp [hlength]) (by simp [hlength])
        (by simp [hlength])]
      exact hwhole
    · cases h
  · rintro ⟨ht, rfl⟩
    exact joinGroups?_hyphenate ht

theorem joinGroups?_map {f : Char → Char} (hf : ∀ c, f c = '-' ↔ c = '-') (s : List Char) :
    joinGroups? (s.map f) = (joinGroups? s).map (List.map f) := by
  have hmark (n : Nat) : (s.map f)[n]? = some '-' ↔ s[n]? = some '-' := by
    rw [List.getElem?_map, Option.map_eq_some_iff]
    simp only [hf, exists_eq_right]
  unfold joinGroups?
  simp only [hmark, List.length_map]
  split
  · simp only [Option.map_some, List.map_append, List.map_take, List.map_drop]
  · rfl

theorem ofDigits?_eq_some :
    ofDigits? s = some u ↔ s.map Char.toLower = Text.fixedHex 32 u.number := by
  have hlt : u.number < 16 ^ 32 := u.number_lt
  unfold ofDigits?
  constructor
  · intro h
    split at h
    · rename_i hlength
      obtain ⟨n, hn, rfl⟩ := Option.map_eq_some_iff.mp h
      rw [Text.readHex?_eq_some, hlength] at hn
      have hsmall : n < 16 ^ 32 := by
        by_contra hlarge
        exact absurd hn.1 (Nat.div_pos (Nat.not_lt.mp hlarge) (by decide)).ne'
      have hnumber : (ofNat n).number = n := Nat.mod_eq_of_lt hsmall
      rw [hnumber]
      exact hn.2
    · cases h
  · intro h
    have hlength : s.length = 32 := by
      simpa using congrArg List.length h
    have hread : Text.readHex? 0 s = some u.number := by
      rw [Text.readHex?_eq_some, hlength]
      exact ⟨Nat.div_eq_of_lt hlt, h⟩
    rw [if_pos hlength, hread, Option.map_some]
    simp [ofNat, Nat.mod_eq_of_lt u.number_lt]

theorem ofHyphenated?_eq_some : ofHyphenated? s = some u ↔ s.map Char.toLower = u.chars := by
  have hjoin := joinGroups?_map (f := Char.toLower)
    (fun c => Text.toLower_eq_mark (by decide) (by decide)) s
  have hlength : (Text.fixedHex 32 u.number).length = 32 := Text.fixedHex_length 32 _
  have hlower : joinGroups? (s.map Char.toLower) = some (Text.fixedHex 32 u.number) ↔
      s.map Char.toLower = u.chars := by
    rw [joinGroups?_eq_some]
    exact and_iff_right hlength
  rw [← hlower, hjoin, Option.map_eq_some_iff]
  simp only [ofHyphenated?, Option.bind_eq_some_iff, ofDigits?_eq_some]

theorem ofBraced?_eq_some :
    ofBraced? s = some u ↔ s.map Char.toLower = '\x7b' :: u.chars ++ ['\x7d'] := by
  have hopen (c : Char) : c.toLower = '\x7b' ↔ c = '\x7b' :=
    Text.toLower_eq_mark (by decide) (by decide)
  have hclose (c : Char) : c.toLower = '\x7d' ↔ c = '\x7d' :=
    Text.toLower_eq_mark (by decide) (by decide)
  constructor
  · intro h
    unfold ofBraced? at h
    split at h
    · rename_i t
      split at h
      · rename_i hlast
        rw [ofHyphenated?_eq_some] at h
        obtain ⟨t, rfl⟩ := List.getLast?_eq_some_iff.mp hlast
        rw [List.dropLast_concat] at h
        rw [List.map_cons, List.map_append, h, (hopen _).mpr rfl]
        rfl
      · cases h
    · cases h
  · intro h
    obtain ⟨c, rest, rfl, hc, hrest⟩ := List.map_eq_cons_iff.mp h
    obtain ⟨t, r, rfl, ht, hr⟩ := List.map_eq_append_iff.mp hrest
    obtain ⟨d, r, rfl, hd, hnil⟩ := List.map_eq_cons_iff.mp hr
    obtain rfl := List.map_eq_nil_iff.mp hnil
    obtain rfl := (hopen c).mp hc
    obtain rfl := (hclose d).mp hd
    simp [ofBraced?, ofHyphenated?_eq_some.mpr ht]

theorem ofUrn?_eq_some : ofUrn? s = some u ↔ s.map Char.toLower = urnMark ++ u.chars := by
  have hmark : urnMark.length = 9 := by decide
  unfold ofUrn?
  rw [Option.ite_none_right_eq_some, ofHyphenated?_eq_some, List.map_take, List.map_drop]
  constructor
  · rintro ⟨htake, hdrop⟩
    rw [← htake, ← hdrop, List.take_append_drop]
  · intro h
    rw [h]
    exact ⟨List.take_left' hmark, List.drop_left' hmark⟩

/-- What is read as an identifier, in lower case. -/
def forms (u : Uuid) : List (List Char) :=
  [Text.fixedHex 32 u.number, u.chars, '\x7b' :: u.chars ++ ['\x7d'], urnMark ++ u.chars]

theorem eq_none_of_length {r : List Char → Option Uuid} {form : Uuid → List Char} {n : Nat}
    (hr : ∀ u, r s = some u ↔ s.map Char.toLower = form u) (hform : ∀ u, (form u).length = n)
    (hs : s.length ≠ n) : r s = none := by
  rw [Option.eq_none_iff_forall_ne_some]
  intro u hu
  have hlength := congrArg List.length ((hr u).mp hu)
  rw [List.length_map, hform] at hlength
  exact hs hlength

theorem ofChars?_eq_some : ofChars? s = some u ↔ s.map Char.toLower ∈ u.forms := by
  -- The four forms differ in length, so that the first one that is tried and fits is the only one.
  have hdigits : s.length ≠ 32 → ofDigits? s = none :=
    eq_none_of_length (fun _ => ofDigits?_eq_some) fun u => Text.fixedHex_length 32 u.number
  have hhyphenated : s.length ≠ 36 → ofHyphenated? s = none :=
    eq_none_of_length (fun _ => ofHyphenated?_eq_some) chars_length
  have hbraced : s.length ≠ 38 → ofBraced? s = none :=
    eq_none_of_length (fun _ => ofBraced?_eq_some) fun u => by simp [chars_length]
  have hlength {form : List Char} {n : Nat} (h : s.map Char.toLower = form)
      (hform : form.length = n) : s.length = n := by
    rw [← hform, ← h, List.length_map]
  unfold ofChars? forms
  simp only [Option.orElse_eq_orElse, Option.orElse_eq_or, List.mem_cons, List.not_mem_nil,
    or_false, ← ofDigits?_eq_some, ← ofHyphenated?_eq_some, ← ofBraced?_eq_some, ← ofUrn?_eq_some,
    Option.or_eq_some_iff]
  constructor
  · rintro (h | ⟨-, h | ⟨-, h | ⟨-, h⟩⟩⟩)
    · exact .inl h
    · exact .inr (.inl h)
    · exact .inr (.inr (.inl h))
    · exact .inr (.inr (.inr h))
  · rintro (h | h | h | h)
    · exact .inl h
    · have hs : s.length = 36 := hlength (ofHyphenated?_eq_some.mp h) u.chars_length
      exact .inr ⟨hdigits (by omega), .inl h⟩
    · have hs : s.length = 38 :=
        hlength (ofBraced?_eq_some.mp h) (by simp [chars_length])
      exact .inr ⟨hdigits (by omega), .inr ⟨hhyphenated (by omega), .inl h⟩⟩
    · have hs : s.length = 45 :=
        hlength (ofUrn?_eq_some.mp h) (by rw [List.length_append, chars_length]; decide)
      exact .inr ⟨hdigits (by omega), .inr ⟨hhyphenated (by omega), .inr ⟨hbraced (by omega), h⟩⟩⟩

theorem forms_lower {form : List Char} (h : form ∈ u.forms) : form.map Char.toLower = form := by
  have hdigits := ofDigits?_eq_some.mp u.ofDigits?_fixedHex
  have hchars := ofHyphenated?_eq_some.mp u.ofHyphenated?_chars
  have hmark : urnMark.map Char.toLower = urnMark := by decide
  have hopen : Char.toLower '\x7b' = '\x7b' := by decide
  have hclose : ['\x7d'].map Char.toLower = ['\x7d'] := by decide
  simp only [forms, List.mem_cons, List.not_mem_nil, or_false] at h
  rcases h with rfl | rfl | rfl | rfl
  · exact hdigits
  · exact hchars
  · rw [List.map_append, List.map_cons, hopen, hchars, hclose]
  · rw [List.map_append, hmark, hchars]

theorem not_blank_of_mem_forms {form : List Char} (h : form ∈ u.forms) {c : Char} (hc : c ∈ form) :
    Text.isBlank c = false := by
  have hmark : urnMark.all (fun c => !Text.isBlank c) = true := by decide
  simp only [forms, List.mem_cons, List.not_mem_nil, or_false] at h
  rcases h with rfl | rfl | rfl | rfl
  · exact Text.not_blank_of_mem_fixedHex hc
  · exact not_blank_of_mem_chars hc
  · simp only [List.cons_append, List.mem_cons, List.mem_append, List.not_mem_nil, or_false] at hc
    rcases hc with rfl | hc | rfl
    · decide
    · exact not_blank_of_mem_chars hc
    · decide
  · rcases List.mem_append.mp hc with hc | hc
    · simpa using List.all_eq_true.mp hmark c hc
    · exact not_blank_of_mem_chars hc

/-- A text that stands for an identifier: one of its forms, in letters of either case, between blanks. -/
def Spells (u : Uuid) (s : List Char) : Prop :=
  ∃ l form r, (∀ c ∈ l, Text.isBlank c = true) ∧ (∀ c ∈ r, Text.isBlank c = true) ∧
    form.map Char.toLower ∈ u.forms ∧ s = l ++ form ++ r

theorem not_blank_of_map_toLower {form : List Char} (h : form.map Char.toLower ∈ u.forms) :
    ∀ c ∈ form, Text.isBlank c = false := by
  intro c hc
  by_contra hblank
  have hlower : c.toLower = c := by
    rw [Text.toLower_eq_self_iff]
    unfold Text.isBlank at hblank
    grind
  have hmem : c ∈ form.map Char.toLower := List.mem_map.mpr ⟨c, hc, hlower⟩
  exact hblank (not_blank_of_mem_forms h hmem)

end Uuid

namespace Identifier

variable {kind : IdentifierKind} {a : Identifier kind} {s : String}

theorem parse_eq_ok : parse kind s = .ok a ↔ a.uuid.Spells s.toList := by
  have hread : parse kind s = .ok a ↔
      Uuid.ofChars? (Text.trimmed s.toList) = some a.uuid := by
    obtain ⟨u⟩ := a
    unfold parse
    cases Uuid.ofChars? (Text.trimmed s.toList) <;> simp
  rw [hread, Uuid.ofChars?_eq_some]
  constructor
  · intro h
    obtain ⟨-, l, r, hl, hr, hs⟩ := Text.trimmed_eq_iff.mp (Eq.refl (Text.trimmed s.toList))
    exact ⟨l, _, r, hl, hr, h, hs⟩
  · rintro ⟨l, form, r, hl, hr, hform, hs⟩
    have hclear := Uuid.not_blank_of_map_toLower hform
    have htrimmed : Text.trimmed s.toList = form := by
      refine Text.trimmed_eq_iff.mpr ⟨⟨?_, ?_⟩, l, r, hl, hr, hs⟩
      · exact fun c hc => hclear c (List.mem_of_mem_head? hc)
      · exact fun c hc => hclear c (List.mem_of_mem_getLast? hc)
    rwa [htrimmed]

theorem bytes_text_lt (a b : Identifier kind) :
    Text.bytes a.text < Text.bytes b.text ↔ a.uuid.number < b.uuid.number := by
  rw [← Text.before_iff_bytes_lt, before_text]
  exact decide_eq_true_iff

end Identifier

def Memory.ofEntries (es : List Entry) : Memory :=
  { entries := es.foldl Shelf.put Shelf.empty }

def Database.ofEntries (es : List Entry) : Database :=
  { entries := (es.map EntryRow.ofEntry).foldl Shelf.put Shelf.empty }

theorem ofEntries_isImage (es : List Entry) : Shelf.IsImage EntryRow.ofEntry
    (Memory.ofEntries es).entries (Database.ofEntries es).entries := by
  have hputs {s : Shelf Entry.id} {t : Shelf EntryRow.key} (h : Shelf.IsImage EntryRow.ofEntry s t) :
      Shelf.IsImage EntryRow.ofEntry (es.foldl Shelf.put s)
        ((es.map EntryRow.ofEntry).foldl Shelf.put t) := by
    induction es generalizing s t with
    | nil => exact h
    | cons e es ih => exact ih (h.put (named_text_keepsOrder .entry) (fun _ => rfl) e)
  exact hputs rfl

namespace Identifier

variable {kind : IdentifierKind}

/-- The text of an identifier is what every spelling of it is read as, and compares as it does, on its
own and as a column of rows. -/
theorem text_canonical (a b : Identifier kind) (es : List Entry) (id : EntryId) (user : UserId) :
    (Text.bytes a.text < Text.bytes b.text ↔ a.uuid.number < b.uuid.number) ∧
      (a.text = b.text ↔ a = b) ∧
      (∀ s, parse kind s = .ok a ↔ a.uuid.Spells s.toList) ∧
      (∀ form ∈ a.uuid.forms, ∀ l r, (∀ c ∈ l, Text.isBlank c = true) →
        (∀ c ∈ r, Text.isBlank c = true) →
        parse kind (String.ofList (l ++ form ++ r)) = .ok a ∧
          parse kind (String.ofList (l ++ form.map Char.toUpper ++ r)) = .ok a) ∧
      KeyOrder.before (RowKey.named a.text) (.named b.text) = KeyOrder.before a b ∧
      (Database.ofEntries es).entries.items =
        (Memory.ofEntries es).entries.items.map EntryRow.ofEntry ∧
      (Database.ofEntries es).entries.find? (.named id.text) =
        ((Memory.ofEntries es).entries.find? id).map EntryRow.ofEntry ∧
      (Database.ofEntries es).ofUser user =
        ((Memory.ofEntries es).ofUser user).map EntryRow.ofEntry := by
  have himage := ofEntries_isImage es
  have hforms : ∀ form ∈ a.uuid.forms, ∀ l r, (∀ c ∈ l, Text.isBlank c = true) →
      (∀ c ∈ r, Text.isBlank c = true) →
      parse kind (String.ofList (l ++ form ++ r)) = .ok a ∧
        parse kind (String.ofList (l ++ form.map Char.toUpper ++ r)) = .ok a := by
    intro form hform l r hl hr
    have hlower := Uuid.forms_lower hform
    have hupper : (form.map Char.toUpper).map Char.toLower = form := by
      rw [List.map_map]
      exact (List.map_congr_left fun c _ => Text.toLower_toUpper c).trans hlower
    constructor
    · rw [parse_eq_ok, String.toList_ofList]
      exact ⟨l, form, r, hl, hr, hlower.symm ▸ hform, rfl⟩
    · rw [parse_eq_ok, String.toList_ofList]
      exact ⟨l, _, r, hl, hr, hupper.symm ▸ hform, rfl⟩
  exact ⟨bytes_text_lt a b, text_inj, fun _ => parse_eq_ok, hforms, named_text_keepsOrder kind a b,
    himage, himage.find? (named_text_keepsOrder .entry) (fun _ => rfl) id,
    Database.ofUser_of_isImage himage user⟩

end Identifier
end Timesheet
