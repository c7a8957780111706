import Timesheet.Proofs.Row
import Timesheet.Proofs.Stamp

/-!
Texts byte by byte. Main statements: texts in UTF-8 are in the order of their bytes, and the stamps of
the whole seconds of the years 0000 to 9999 are in the order of the instants, which they are read back
as.
-/

namespace Timesheet

namespace Text

def bytes (s : String) : List UInt8 :=
  s.toByteArray.data.toList

theorem bytes_eq_flatMap (s : String) : bytes s = s.toList.flatMap String.utf8EncodeChar := by
  unfold bytes
  rw [← String.utf8Encode_toList, List.utf8Encode, List.toList_data_toByteArray]

theorem byte_cons_lt {m n : Nat} {s t : List UInt8} (hm : m < 256) (hn : n < 256) :
    UInt8.ofNat m :: s < UInt8.ofNat n :: t ↔ m < n ∨ m = n ∧ s < t := by
  rw [List.cons_lt_cons_iff, UInt8.lt_iff_toNat_lt, ← UInt8.toNat_inj,
    UInt8.toNat_ofNat_of_lt' hm, UInt8.toNat_ofNat_of_lt' hn]

theorem encode_lt {c d : Char} (h : c.toNat < d.toNat) (s t : List UInt8) :
    String.utf8EncodeChar c ++ s < String.utf8EncodeChar d ++ t := by
  have hlast : d.toNat < 0x110000 := by
    have hvalid : d.toNat < 0xd800 ∨ 0xdfff < d.toNat ∧ d.toNat < 0x110000 := d.valid
    omega
  have hdigits (n : Nat) (h : n < 0x110000) : n / 262144 % 8 * 262144 + n / 4096 % 64 * 4096 +
      n / 64 % 64 * 64 + n % 64 = n := by
    omega
  have hc := hdigits c.toNat (h.trans hlast)
  have hd := hdigits d.toNat hlast
  unfold String.utf8EncodeChar
  rw [Char.toNat_val, Char.toNat_val]
  generalize c.toNat = m at *
  generalize d.toNat = n at *
  dsimp only
  -- The first byte tells how many follow, and more of them mean a greater first byte.
  split_ifs <;> simp (disch := omega) only [List.cons_append, byte_cons_lt] <;> omega

theorem encode_lt_of_charsBefore {s t : List Char} (h : charsBefore s t = true) :
    s.flatMap String.utf8EncodeChar < t.flatMap String.utf8EncodeChar := by
  induction s generalizing t with
  | nil =>
    cases t with
    | nil => cases h
    | cons d t =>
      obtain ⟨b, bs, hbytes⟩ := List.exists_cons_of_ne_nil (String.utf8EncodeChar_ne_nil (c := d))
      rw [List.flatMap_cons, hbytes]
      exact List.nil_lt_cons _ _
  | cons c s ih =>
    cases t with
    | nil => cases h
    | cons d t =>
      rw [List.flatMap_cons, List.flatMap_cons]
      unfold charsBefore at h
      by_cases hcd : c = d
      · rw [if_pos hcd] at h
        rw [hcd]
        exact List.append_left_lt (ih h)
      · rw [if_neg hcd] at h
        exact encode_lt (of_decide_eq_true h) _ _

theorem before_iff_bytes_lt {s t : String} : before s t = true ↔ bytes s < bytes t := by
  have hlt {s t : String} (h : before s t = true) : bytes s < bytes t := by
    rw [bytes_eq_flatMap, bytes_eq_flatMap]
    exact encode_lt_of_charsBefore h
  refine ⟨hlt, fun h => ?_⟩
  by_contra hnot
  cases hts : before t s with
  | true => exact List.lt_asymm h (hlt hts)
  | false =>
    rw [eq_of_not_before (Bool.eq_false_iff.mpr hnot) hts] at h
    exact List.lt_irrefl _ h

end Text

namespace Instant

variable {i j : Instant}

theorem stamp_inj (hi : i.IsPlain) (hj : j.IsPlain) : i.stamp = j.stamp ↔ i = j := by
  refine ⟨fun h => ?_, fun h => h ▸ rfl⟩
  have hread := ofStamp?_stamp_iff.mpr hi
  rw [h, ofStamp?_stamp_iff.mpr hj] at hread
  exact (Option.some.inj hread).symm

theorem bytes_stamp_lt (hi : i.IsPlain) (hj : j.IsPlain) :
    Text.bytes i.stamp < Text.bytes j.stamp ↔ i < j := by
  rw [← Text.before_iff_bytes_lt, before_stamp hi.2 hj.2, wholeSecond_of_isWhole hi.1,
    wholeSecond_of_isWhole hj.1]

/-- Stored stamps are the instants they show, and the order of their bytes is the order of time. -/
theorem stamp_embeds (record : String) (hi : i.IsWhole) (hj : j.IsWhole)
    (hiyear : 0 ≤ i.date.year ∧ i.date.year ≤ 9999)
    (hjyear : 0 ≤ j.date.year ∧ j.date.year ≤ 9999) :
    (Text.bytes i.stamp < Text.bytes j.stamp ↔ i < j) ∧ (i.stamp = j.stamp ↔ i = j) ∧
      readStamp record i.stamp = .ok i := by
  have hiplain : i.IsPlain := ⟨hi, storable_iff_year.mpr hiyear⟩
  have hjplain : j.IsPlain := ⟨hj, storable_iff_year.mpr hjyear⟩
  exact ⟨bytes_stamp_lt hiplain hjplain, stamp_inj hiplain hjplain,
    readStamp_eq_ok.mpr (ofStamp?_stamp_iff.mpr hiplain)⟩

theorem stamp_embeds_leapSecond :
    let last := ofSecond 1483228799 (by decide)
    let leap := ofLeap 1483228799 (by decide) (by decide)
    let next := ofSecond 1483228800 (by decide)
    last < leap ∧ leap < next ∧ leap.stamp = "2016-12-31T23:59:60Z" ∧
      Text.bytes last.stamp < Text.bytes leap.stamp ∧
      Text.bytes leap.stamp < Text.bytes next.stamp ∧
      readStamp "entry" leap.stamp = .ok leap := by
  intro last leap next
  have hlast := stamp_embeds "entry" (i := last) (j := leap) (by decide) (by decide) (by decide)
    (by decide)
  have hleap := stamp_embeds "entry" (i := leap) (j := next) (by decide) (by decide) (by decide)
    (by decide)
  exact ⟨by decide, by decide, by decide, hlast.1.mpr (by decide), hleap.1.mpr (by decide),
    hleap.2.2⟩

end Instant
end Timesheet
