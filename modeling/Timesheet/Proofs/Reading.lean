import Timesheet.Proofs.Digits
import Timesheet.Proofs.Tags

namespace Timesheet.Json

open Text

section Numbers

theorem le_foldl_digits (s : List Char) (k : Nat) :
    k ≤ s.foldl (fun n c => 10 * n + digitValue c) k := by
  induction s generalizing k with
  | nil => exact le_rfl
  | cons c s ih =>
    have h := ih (10 * k + digitValue c)
    rw [List.foldl_cons]
    omega

theorem takeDigits_of_le {s : List Char} {k : Nat}
    (h : s.foldl (fun n c => 10 * n + digitValue c) k ≤ maxWord) :
    takeDigits k s = (s.foldl (fun n c => 10 * n + digitValue c) k, 0) := by
  induction s generalizing k with
  | nil => rfl
  | cons c s ih =>
    have hstep : ¬maxWord < 10 * k + digitValue c :=
      Nat.not_lt.mpr ((le_foldl_digits s _).trans h)
    rw [takeDigits, if_neg hstep]
    exact ih h

theorem takeDigits_digits {n : Nat} (h : n ≤ maxWord) : takeDigits 0 (digits n) = (n, 0) := by
  have hfold : (digits n).foldl (fun n c => 10 * n + digitValue c) 0 = n := numberOf_digits n
  rw [takeDigits_of_le (hfold.symm ▸ h), hfold]

def EndsNumber (s : List Char) : Prop :=
  ∀ c ∈ s.head?, c.isDigit = false ∧ c ≠ '.' ∧ c ≠ 'e' ∧ c ≠ 'E'

theorem takeWhile_digits {s : List Char} (hs : EndsNumber s) (n : Nat) :
    (digits n ++ s).takeWhile Char.isDigit = digits n := by
  rw [List.takeWhile_append_of_pos fun _ => isDigit_of_mem_digits]
  cases s with
  | nil => simp
  | cons c s => rw [List.takeWhile_cons_of_neg (by simp [(hs c rfl).1]), List.append_nil]

variable {n o : Nat} {s : List Char}

theorem readNumber_digits (negative : Bool) (hn : n ≤ maxWord) (hs : EndsNumber s) : ∃ o',
    readNumber negative ⟨digits n ++ s, o⟩ =
      if negative then
        if n = 0 ∨ 0x8000000000000000 < n then .ok (float (Binary64.ofNat n).neg, ⟨s, o'⟩)
        else .ok (integer (-n), ⟨s, o'⟩)
      else .ok (integer n, ⟨s, o'⟩) := by
  have hcount : Cursor.countDigits ⟨digits n ++ s, o⟩ = (digits n).length := by
    unfold Cursor.countDigits
    rw [takeWhile_digits hs]
  have hdrop : Cursor.drop ⟨digits n ++ s, o⟩ (digits n).length =
      ⟨s, o + utf8Length (digits n)⟩ := by
    unfold Cursor.drop
    rw [List.drop_left, List.take_left]
  have hpoint : (Cursor.peek? ⟨s, o + utf8Length (digits n)⟩ == some '.') = false := by
    cases s with
    | nil => rfl
    | cons c s => simpa [Cursor.peek?] using (hs c rfl).2.1
  have hmark : isExponentMark (Cursor.peek? ⟨s, o + utf8Length (digits n)⟩) = false := by
    cases s with
    | nil => rfl
    | cons c s => simpa [Cursor.peek?, isExponentMark] using (hs c rfl).2.2
  have hne : digits n ≠ [] := Nat.toDigits_ne_nil
  obtain ⟨c, t, hcons⟩ := List.exists_cons_of_ne_nil hne
  have hzero : ¬(c = '0' ∧ 1 < (c :: t).length) := by
    rintro ⟨rfl, hlength⟩
    rw [eq_nil_of_digits_eq_cons hcons] at hlength
    exact absurd hlength (by decide)
  have htaken := takeDigits_digits hn
  have htake : (c :: (t ++ s)).take (c :: t).length = c :: t := List.take_left
  refine ⟨o + utf8Length (digits n), ?_⟩
  rw [hcons, List.cons_append] at hcount hdrop ⊢
  rw [hcons] at hpoint hmark htaken
  unfold readNumber
  rw [hcount]
  simp only [htake, htaken, hdrop, hpoint, hmark, hzero, reduceCtorEq, ↓reduceIte, ne_eq,
    not_true_eq_false, Bool.false_eq_true]

end Numbers

section Blanks

variable {b s : List Char} {c : Char} {o : Nat}

def IsBlank (b : List Char) : Prop :=
  ∀ c ∈ b, Cursor.isSpace c = true

theorem isBlank_nil : IsBlank [] := by
  intro c hc
  cases hc

theorem isBlank_newline (d : Nat) : IsBlank (newline d) := by
  intro c hc
  rcases List.mem_cons.mp hc with rfl | hc
  · rfl
  · rw [List.eq_of_mem_replicate hc]
    rfl

theorem skipSpace_append (hb : IsBlank b) (hc : Cursor.isSpace c = false) : ∃ o',
    Cursor.skipSpace ⟨b ++ c :: s, o⟩ = ⟨c :: s, o'⟩ := by
  refine ⟨o + utf8Length b, ?_⟩
  unfold Cursor.skipSpace
  rw [List.takeWhile_append_of_pos hb, List.takeWhile_cons_of_neg (by simp [hc]), List.append_nil,
    Cursor.drop, List.drop_left, List.take_left]

theorem readValue_append {k d : Nat} (hb : IsBlank b) (hc : Cursor.isSpace c = false) : ∃ o',
    readValue (k + 1) d ⟨b ++ c :: s, o⟩ = readValue (k + 1) d ⟨c :: s, o'⟩ := by
  obtain ⟨o', h⟩ := skipSpace_append (s := s) (o := o) hb hc
  refine ⟨o', ?_⟩
  unfold readValue
  rw [h, skipSpace_cons hc]

end Blanks

/-- The reader takes the value from the front of any text that begins with `s`, with at most two calls
for a character. -/
structure Spells (d : Nat) (x : Json) (s : List Char) : Prop where
  first : ∃ c t, s = c :: t ∧ Cursor.isSpace c = false ∧ c ≠ ']'
  taken : ∀ fuel o rest, 2 * s.length ≤ fuel → EndsNumber rest →
    ∃ o', readValue fuel d ⟨s ++ rest, o⟩ = .ok (x, ⟨rest, o'⟩)

section Scalars

variable {d : Nat} {x : Json} {s : List Char}

theorem spells_of_succ (hfirst : ∃ c t, s = c :: t ∧ Cursor.isSpace c = false ∧ c ≠ ']')
    (h : ∀ k o rest, EndsNumber rest →
      ∃ o', readValue (k + 1) d ⟨s ++ rest, o⟩ = .ok (x, ⟨rest, o'⟩)) : Spells d x s where
  first := hfirst
  taken fuel o rest hfuel hrest := by
    obtain ⟨c, t, rfl, -⟩ := hfirst
    rw [List.length_cons] at hfuel
    obtain ⟨k, rfl⟩ := Nat.exists_eq_succ_of_ne_zero (show fuel ≠ 0 by omega)
    exact h k o rest hrest

theorem spells_null : Spells d null "null".toList := by
  refine spells_of_succ ⟨_, _, rfl, rfl, by decide⟩ fun k o rest _ => ?_
  unfold readValue
  exact ⟨_, rfl⟩

theorem spells_true : Spells d (bool true) "true".toList := by
  refine spells_of_succ ⟨_, _, rfl, rfl, by decide⟩ fun k o rest _ => ?_
  unfold readValue
  exact ⟨_, rfl⟩

theorem spells_false : Spells d (bool false) "false".toList := by
  refine spells_of_succ ⟨_, _, rfl, rfl, by decide⟩ fun k o rest _ => ?_
  unfold readValue
  exact ⟨_, rfl⟩

theorem spells_string (t : String) : Spells d (string t) (stringChars t) := by
  refine spells_of_succ ⟨_, _, rfl, rfl, by decide⟩ fun k o rest _ => ?_
  obtain ⟨o', h⟩ := readString_stringChars (s := rest) (o := o) t
  refine ⟨o', ?_⟩
  unfold readValue stringChars at *
  rw [List.cons_append, List.cons_append] at *
  rw [skipSpace_cons rfl]
  exact congrArg (Except.map fun p : String × Cursor => (string p.1, p.2)) h

theorem isSpace_of_isDigit {c : Char} (h : c.isDigit = true) : Cursor.isSpace c = false := by
  by_contra hspace
  simp only [Cursor.isSpace, Bool.not_eq_false, Bool.or_eq_true, beq_iff_eq] at hspace
  rcases hspace with ((rfl | rfl) | rfl) | rfl <;> exact absurd h (by decide)

theorem readValue_of_isDigit {c : Char} {k o : Nat} (h : c.isDigit = true) :
    readValue (k + 1) d ⟨c :: s, o⟩ = readNumber false ⟨c :: s, o⟩ := by
  unfold readValue
  rw [skipSpace_cons (isSpace_of_isDigit h)]
  dsimp only
  split
  case h_1 =>
    rename_i heq
    cases heq
  case h_9 =>
    rename_i heq
    cases heq
    rw [if_pos h]
  all_goals
    rename_i heq
    cases heq
    exact absurd h (by decide)

theorem spells_integer {n : Int} (hlow : -0x8000000000000000 ≤ n) (hhigh : n ≤ maxWord) :
    Spells d (integer n) (signedDigits n) := by
  have habs : n.natAbs ≤ maxWord := by
    unfold maxWord at *
    omega
  unfold signedDigits
  split
  · rename_i hneg
    refine spells_of_succ ⟨_, _, rfl, rfl, by decide⟩ fun k o rest hrest => ?_
    obtain ⟨o', h⟩ := readNumber_digits (o := o + utf8Length ['-']) true habs hrest
    refine ⟨o', ?_⟩
    unfold readValue
    rw [List.cons_append, skipSpace_cons rfl]
    refine h.trans ?_
    rw [if_pos rfl, if_neg (by omega)]
    congr
    omega
  · rename_i hneg
    have hne : digits n.natAbs ≠ [] := Nat.toDigits_ne_nil
    obtain ⟨c, t, hcons⟩ := List.exists_cons_of_ne_nil hne
    have hdigit : c.isDigit = true := isDigit_of_mem_digits (hcons ▸ List.mem_cons_self)
    have hbracket : c ≠ ']' := fun hc => absurd hdigit (hc ▸ by decide)
    refine spells_of_succ ⟨c, t, hcons, isSpace_of_isDigit hdigit, hbracket⟩ fun k o rest hrest => ?_
    obtain ⟨o', h⟩ := readNumber_digits (o := o) false habs hrest
    refine ⟨o', ?_⟩
    rw [hcons, List.cons_append, readValue_of_isDigit hdigit, ← List.cons_append, ← hcons, h,
      if_neg (by decide)]
    congr
    omega

end Scalars

section Lists

variable {d : Nat}

def SpellsItem (d : Nat) (x : Json) (s : List Char) : Prop :=
  ∃ b t, s = b ++ t ∧ IsBlank b ∧ Spells d x t

variable {b s : List Char} {k o : Nat} {r : List Json}

theorem endsNumber_rest (hb : IsBlank b) (ps : List (List Char)) (closing : Char)
    (hclosing : closing = ']' ∨ closing = '\x7d') :
    EndsNumber (behindCommas ps ++ (b ++ closing :: s)) := by
  have hhead {t : List Char} {c e : Char} (hc : c ∈ (e :: t).head?) : c = e := by
    simpa using hc.symm
  intro c hc
  cases ps with
  | cons p ps =>
    obtain rfl : c = ',' := hhead hc
    decide
  | nil =>
    cases b with
    | nil =>
      obtain rfl : c = closing := hhead hc
      rcases hclosing with rfl | rfl <;> decide
    | cons e b =>
      obtain rfl : c = e := hhead hc
      have hspace := hb c List.mem_cons_self
      simp only [Cursor.isSpace, Bool.or_eq_true, beq_iff_eq] at hspace
      rcases hspace with ((rfl | rfl) | rfl) | rfl <;> decide

theorem readElements_close (hb : IsBlank b) : ∃ o',
    readElements (k + 1) d ⟨b ++ ']' :: s, o⟩ r = .ok (array r.reverse, ⟨s, o'⟩) := by
  obtain ⟨o', h⟩ := skipSpace_append (s := s) (o := o) hb (c := ']') rfl
  unfold readElements
  rw [h]
  exact ⟨_, rfl⟩

theorem readElements_first {x : Json} {s t : List Char} (hs : SpellsItem d x s)
    (hk : 2 * s.length ≤ k) (ht : EndsNumber t) : ∃ o',
      readElements (k + 1) d ⟨s ++ t, o⟩ [] = readElements k d ⟨t, o'⟩ [x] := by
  obtain ⟨b, s, rfl, hb, hs⟩ := hs
  obtain ⟨c, s', rfl, hspace, hbracket⟩ := hs.first
  obtain ⟨o₁, h₁⟩ := skipSpace_append (s := s' ++ t) (o := o) hb hspace
  rw [List.length_append] at hk
  obtain ⟨o₂, h₂⟩ := hs.taken k o₁ t (by omega) ht
  refine ⟨o₂, ?_⟩
  rw [List.cons_append] at h₂
  conv_lhs => unfold readElements
  rw [List.append_assoc, List.cons_append, h₁]
  simp only [h₂, ↓reduceIte]

theorem readElements_next {x : Json} {s t : List Char} (hs : SpellsItem d x s)
    (hread : r ≠ []) (hk : 2 * s.length ≤ k) (ht : EndsNumber t) : ∃ o',
      readElements (k + 1) d ⟨',' :: s ++ t, o⟩ r =
        readElements k d ⟨t, o'⟩ (x :: r) := by
  obtain ⟨b, s, rfl, hb, hs⟩ := hs
  obtain ⟨c, s', rfl, hspace, hbracket⟩ := hs.first
  obtain ⟨o₁, h₁⟩ := skipSpace_append (s := s' ++ t) (o := o + utf8Length [',']) hb hspace
  rw [List.length_append] at hk
  obtain ⟨o₂, h₂⟩ := hs.taken k o₁ t (by omega) ht
  refine ⟨o₂, ?_⟩
  have hdrop : Cursor.drop ⟨',' :: (b ++ c :: (s' ++ t)), o⟩ 1 =
      ⟨b ++ c :: (s' ++ t), o + utf8Length [',']⟩ := rfl
  rw [List.cons_append] at h₂
  conv_lhs => unfold readElements
  rw [List.cons_append, List.append_assoc, List.cons_append, skipSpace_cons rfl]
  simp only [hread, hdrop, h₁, h₂, ↓reduceIte]
  rfl

theorem readElements_rest {xs : List Json} {ps : List (List Char)}
    (h : List.Forall₂ (SpellsItem d) xs ps) (hb : IsBlank b) (hread : r ≠ [])
    (hk : 2 * (behindCommas ps ++ (b ++ [']'])).length ≤ k) : ∃ o',
      readElements k d ⟨behindCommas ps ++ (b ++ ']' :: s), o⟩ r =
        .ok (array (r.reverse ++ xs), ⟨s, o'⟩) := by
  induction h generalizing k o r with
  | nil =>
    obtain ⟨k, rfl⟩ := Nat.exists_eq_succ_of_ne_zero (show k ≠ 0 by simp at hk; omega)
    obtain ⟨o', h⟩ := readElements_close (d := d) (k := k) (s := s) (o := o)
      (r := r) hb
    exact ⟨o', by rw [List.append_nil]; exact h⟩
  | @cons x p xs ps hx _ ih =>
    have hcons (t : List Char) : behindCommas (p :: ps) ++ t = ',' :: p ++ (behindCommas ps ++ t) := by
      simp [behindCommas]
    rw [hcons, List.length_append, List.length_cons] at hk
    obtain ⟨k, rfl⟩ := Nat.exists_eq_succ_of_ne_zero (show k ≠ 0 by omega)
    obtain ⟨o₁, h₁⟩ := readElements_next (k := k) (o := o) (r := r) hx hread (by omega)
      (endsNumber_rest (s := s) hb ps ']' (.inl rfl))
    obtain ⟨o₂, h₂⟩ := ih (k := k) (o := o₁) (r := x :: r) (by simp) (by omega)
    refine ⟨o₂, ?_⟩
    rw [hcons, h₁, h₂, List.reverse_cons, List.append_assoc, List.singleton_append]

theorem spells_array {xs : List Json} {ps : List (List Char)}
    (h : List.Forall₂ (SpellsItem d) xs ps) (hb : IsBlank b) :
    Spells (d + 1) (array xs) ('[' :: (commaSeparated ps ++ (b ++ [']']))) where
  first := ⟨_, _, rfl, rfl, by decide⟩
  taken fuel o rest hk _ := by
    rw [List.length_cons] at hk
    obtain ⟨k, rfl⟩ : ∃ k, fuel = k + 2 := ⟨fuel - 2, by omega⟩
    unfold readValue
    rw [List.cons_append, skipSpace_cons rfl]
    change ∃ o', readElements (k + 1) d
      ⟨commaSeparated ps ++ (b ++ [']']) ++ rest, o + utf8Length ['[']⟩ [] = _
    rw [List.append_assoc, List.append_assoc, List.singleton_append]
    cases h with
    | nil => exact readElements_close hb
    | @cons x p xs ps hx hxs =>
      rw [commaSeparated_eq, List.length_append, List.length_append] at hk
      obtain ⟨o₁, h₁⟩ := readElements_first (k := k) (o := o + utf8Length ['[']) hx (by omega)
        (endsNumber_rest (s := rest) hb ps ']' (.inl rfl))
      obtain ⟨o₂, h₂⟩ := readElements_rest (k := k) (s := rest) (o := o₁) (r := [x]) hxs hb
        (by simp) (by rw [List.length_append]; omega)
      refine ⟨o₂, ?_⟩
      rw [commaSeparated_eq, List.append_assoc, h₁, h₂, List.reverse_singleton,
        List.singleton_append]

end Lists

section Objects

variable {d : Nat}

def SpellsMember (d : Nat) (m : String × Json) (s : List Char) : Prop :=
  ∃ b b' t, s = b ++ (stringChars m.1 ++ ':' :: (b' ++ t)) ∧ IsBlank b ∧ IsBlank b' ∧
    Spells d m.2 t

variable {b s : List Char} {k o : Nat} {r : List (String × Json)} {m : String × Json}

theorem setMember_of_new {name : String} {x : Json} (h : name ∉ r.map Prod.fst) :
    setMember name x r = r ++ [(name, x)] := by
  induction r with
  | nil => rfl
  | cons m r ih =>
    rw [List.map_cons, List.mem_cons, not_or] at h
    rw [setMember, if_neg (Ne.symm h.1), ih h.2, List.cons_append]

theorem readMembers_close (hb : IsBlank b) : ∃ o',
    readMembers (k + 1) d ⟨b ++ '\x7d' :: s, o⟩ r = .ok (object r, ⟨s, o'⟩) := by
  obtain ⟨o', h⟩ := skipSpace_append (s := s) (o := o) hb (c := '\x7d') rfl
  unfold readMembers
  rw [h]
  exact ⟨_, rfl⟩

theorem readMember_spelled {b' s t : List Char} (hb : IsBlank b') (hs : Spells d m.2 s)
    (hnew : m.1 ∉ r.map Prod.fst) (hk : 2 * s.length ≤ k) (ht : EndsNumber t) : ∃ o',
      readMember (k + 1) d ⟨stringChars m.1 ++ ':' :: (b' ++ (s ++ t)), o⟩ r =
        readMembers k d ⟨t, o'⟩ (r ++ [m]) := by
  obtain ⟨o₁, h₁⟩ := readString_stringChars (s := ':' :: (b' ++ (s ++ t))) (o := o) m.1
  obtain ⟨c, s', rfl, hspace, -⟩ := hs.first
  rw [List.length_cons] at hk
  obtain ⟨j, rfl⟩ : ∃ j, k = j + 1 := ⟨k - 1, by omega⟩
  obtain ⟨o₂, h₂⟩ := readValue_append (s := s' ++ t) (o := o₁ + utf8Length [':']) (k := j)
    (d := d) hb hspace
  obtain ⟨o₃, h₃⟩ := hs.taken (j + 1) o₂ t (by rw [List.length_cons]; omega) ht
  refine ⟨o₃, ?_⟩
  have hdrop : Cursor.drop ⟨':' :: (b' ++ c :: (s' ++ t)), o₁⟩ 1 =
      ⟨b' ++ c :: (s' ++ t), o₁ + utf8Length [':']⟩ := rfl
  rw [List.cons_append] at h₁ h₃ ⊢
  have hcolon : Cursor.skipSpace ⟨':' :: (b' ++ c :: (s' ++ t)), o₁⟩ =
      ⟨':' :: (b' ++ c :: (s' ++ t)), o₁⟩ := skipSpace_cons rfl
  conv_lhs => unfold readMember
  split
  · simp only [h₁, hcolon, hdrop, h₂, h₃, setMember_of_new hnew]
  · rename_i hne
    exact absurd rfl (hne _)

theorem readMembers_first {t : List Char} (hs : SpellsMember d m s) (hk : 2 * s.length ≤ k)
    (ht : EndsNumber t) : ∃ o',
      readMembers (k + 2) d ⟨s ++ t, o⟩ [] = readMembers k d ⟨t, o'⟩ [m] := by
  obtain ⟨b, b', v, rfl, hb, hb', hs⟩ := hs
  simp only [List.length_append, List.length_cons] at hk
  obtain ⟨u, hu⟩ : ∃ u, stringChars m.1 = '"' :: u := ⟨_, rfl⟩
  obtain ⟨o₁, h₁⟩ := skipSpace_append (s := u ++ ':' :: (b' ++ (v ++ t))) (o := o) hb (c := '"') rfl
  obtain ⟨o₂, h₂⟩ := readMember_spelled (r := []) (o := o₁) hb' hs (by simp)
    (show 2 * v.length ≤ k by omega) ht
  refine ⟨o₂, ?_⟩
  have hassoc : b ++ (stringChars m.1 ++ ':' :: (b' ++ v)) ++ t =
      b ++ '"' :: (u ++ ':' :: (b' ++ (v ++ t))) := by
    simp [hu]
  rw [hu, List.cons_append] at h₂
  conv_lhs => unfold readMembers
  rw [hassoc, h₁]
  exact h₂

theorem readMembers_next {t : List Char} (hs : SpellsMember d m s) (hread : r ≠ [])
    (hnew : m.1 ∉ r.map Prod.fst) (hk : 2 * s.length ≤ k) (ht : EndsNumber t) : ∃ o',
      readMembers (k + 2) d ⟨',' :: s ++ t, o⟩ r =
        readMembers k d ⟨t, o'⟩ (r ++ [m]) := by
  obtain ⟨b, b', v, rfl, hb, hb', hs⟩ := hs
  simp only [List.length_append, List.length_cons] at hk
  obtain ⟨u, hu⟩ : ∃ u, stringChars m.1 = '"' :: u := ⟨_, rfl⟩
  obtain ⟨o₁, h₁⟩ := skipSpace_append (s := u ++ ':' :: (b' ++ (v ++ t)))
    (o := o + utf8Length [',']) hb (c := '"') rfl
  obtain ⟨o₂, h₂⟩ := readMember_spelled (o := o₁) hb' hs hnew (show 2 * v.length ≤ k by omega) ht
  refine ⟨o₂, ?_⟩
  have hassoc : ',' :: (b ++ (stringChars m.1 ++ ':' :: (b' ++ v))) ++ t =
      ',' :: (b ++ '"' :: (u ++ ':' :: (b' ++ (v ++ t)))) := by
    simp [hu]
  have hdrop : Cursor.drop ⟨',' :: (b ++ '"' :: (u ++ ':' :: (b' ++ (v ++ t)))), o⟩ 1 =
      ⟨b ++ '"' :: (u ++ ':' :: (b' ++ (v ++ t))), o + utf8Length [',']⟩ := rfl
  have hempty : r.isEmpty = false := by simpa using hread
  rw [hu, List.cons_append] at h₂
  conv_lhs => unfold readMembers
  rw [hassoc, skipSpace_cons rfl]
  simp only [hempty, hdrop, h₁, Bool.false_eq_true, ↓reduceIte]
  exact h₂

theorem readMembers_rest {ms : List (String × Json)} {ps : List (List Char)}
    (h : List.Forall₂ (SpellsMember d) ms ps) (hb : IsBlank b) (hread : r ≠ [])
    (hnodup : ((r ++ ms).map Prod.fst).Nodup)
    (hk : 2 * (behindCommas ps ++ (b ++ ['\x7d'])).length ≤ k) : ∃ o',
      readMembers k d ⟨behindCommas ps ++ (b ++ '\x7d' :: s), o⟩ r =
        .ok (object (r ++ ms), ⟨s, o'⟩) := by
  induction h generalizing k o r with
  | nil =>
    obtain ⟨k, rfl⟩ := Nat.exists_eq_succ_of_ne_zero (show k ≠ 0 by simp at hk; omega)
    obtain ⟨o', h⟩ := readMembers_close (d := d) (k := k) (s := s) (o := o)
      (r := r) hb
    exact ⟨o', by rw [List.append_nil]; exact h⟩
  | @cons m p ms ps hm _ ih =>
    have hcons (t : List Char) : behindCommas (p :: ps) ++ t = ',' :: p ++ (behindCommas ps ++ t) := by
      simp [behindCommas]
    have hnew : m.1 ∉ r.map Prod.fst := by
      rw [List.map_append, List.map_cons, List.nodup_middle, List.nodup_cons] at hnodup
      exact fun hm => hnodup.1 (List.mem_append_left _ hm)
    rw [hcons, List.length_append, List.length_cons] at hk
    obtain ⟨k, rfl⟩ : ∃ j, k = j + 2 := ⟨k - 2, by omega⟩
    obtain ⟨o₁, h₁⟩ := readMembers_next (k := k) (o := o) hm hread hnew (by omega)
      (endsNumber_rest (s := s) hb ps '\x7d' (.inr rfl))
    obtain ⟨o₂, h₂⟩ := ih (k := k) (o := o₁) (r := r ++ [m]) (by simp)
      (by rwa [List.append_assoc, List.singleton_append]) (by omega)
    refine ⟨o₂, ?_⟩
    rw [hcons, h₁, h₂, List.append_assoc, List.singleton_append]

theorem spells_object {ms : List (String × Json)} {ps : List (List Char)}
    (h : List.Forall₂ (SpellsMember d) ms ps) (hnodup : (ms.map Prod.fst).Nodup)
    (hb : IsBlank b) :
    Spells (d + 1) (object ms) ('\x7b' :: (commaSeparated ps ++ (b ++ ['\x7d']))) where
  first := ⟨_, _, rfl, rfl, by decide⟩
  taken fuel o rest hk _ := by
    rw [List.length_cons] at hk
    obtain ⟨k, rfl⟩ : ∃ k, fuel = k + 3 := ⟨fuel - 3, by simp at hk; omega⟩
    unfold readValue
    rw [List.cons_append, skipSpace_cons rfl]
    change ∃ o', readMembers (k + 2) d
      ⟨commaSeparated ps ++ (b ++ ['\x7d']) ++ rest, o + utf8Length ['\x7b']⟩ [] = _
    rw [List.append_assoc, List.append_assoc, List.singleton_append]
    cases h with
    | nil => exact readMembers_close hb
    | @cons m p ms ps hm hms =>
      have hpos : 0 < p.length := by
        obtain ⟨b, b', t, rfl, -⟩ := hm
        simp
      rw [commaSeparated_eq, List.length_append, List.length_append] at hk
      obtain ⟨o₁, h₁⟩ := readMembers_first (k := k) (o := o + utf8Length ['\x7b']) hm
        (by simp at hk; omega) (endsNumber_rest (s := rest) hb ps '\x7d' (.inr rfl))
      obtain ⟨o₂, h₂⟩ := readMembers_rest (k := k) (s := rest) (o := o₁) (r := [m]) hms hb
        (by simp) hnodup (by simp at hk ⊢; omega)
      refine ⟨o₂, ?_⟩
      rw [commaSeparated_eq, List.append_assoc, h₁, h₂, List.singleton_append]

end Objects

/-- Values whose text tells them apart: numbers are integers that fit a word of either kind, names of
members are distinct, and lists and objects nest at most so deep. -/
inductive IsPlain : Nat → Json → Prop where
  | null {d} : IsPlain d null
  | bool {d} (b : Bool) : IsPlain d (bool b)
  | integer {d} {n : Int} (hlow : -0x8000000000000000 ≤ n) (hhigh : n ≤ maxWord) :
    IsPlain d (integer n)
  | string {d} (s : String) : IsPlain d (string s)
  | array {d} {xs : List Json} (h : ∀ x ∈ xs, IsPlain d x) : IsPlain (d + 1) (array xs)
  | object {d} {ms : List (String × Json)} (h : ∀ m ∈ ms, IsPlain d m.2)
    (hnodup : (ms.map Prod.fst).Nodup) : IsPlain (d + 1) (object ms)

section Layouts

variable {d : Nat} {x : Json}

theorem charsOfMembers_eq (ms : List (String × Json)) :
    charsOfMembers ms = ms.map fun m => stringChars m.1 ++ ':' :: m.2.chars := by
  induction ms with
  | nil => rfl
  | cons m ms ih => rw [charsOfMembers, ih, List.map_cons]

theorem spells_chars (h : IsPlain d x) : Spells d x x.chars := by
  induction h with
  | null => exact spells_null
  | bool b =>
    cases b
    · exact spells_false
    · exact spells_true
  | integer hlow hhigh => exact spells_integer hlow hhigh
  | string s => exact spells_string s
  | @array d xs _ ih =>
    have hitems : List.Forall₂ (SpellsItem d) xs (charsOfList xs) := by
      rw [charsOfList_eq, List.forall₂_map_right_iff, List.forall₂_same]
      exact fun x hx => ⟨[], _, rfl, isBlank_nil, ih x hx⟩
    have h := spells_array hitems isBlank_nil
    rwa [List.nil_append, ← List.cons_append] at h
  | @object d ms _ hnodup ih =>
    have hmembers : List.Forall₂ (SpellsMember d) ms (charsOfMembers ms) := by
      rw [charsOfMembers_eq, List.forall₂_map_right_iff, List.forall₂_same]
      exact fun m hm => ⟨[], [], _, rfl, isBlank_nil, isBlank_nil, ih m hm⟩
    have h := spells_object hmembers hnodup isBlank_nil
    rwa [List.nil_append, ← List.cons_append] at h

theorem prettyOfList_eq (level : Nat) (xs : List Json) :
    prettyOfList level xs = xs.map (prettyChars level) := by
  induction xs with
  | nil => rfl
  | cons x xs ih => rw [prettyOfList, ih, List.map_cons]

theorem prettyOfMembers_eq (level : Nat) (ms : List (String × Json)) :
    prettyOfMembers level ms =
      ms.map fun m => stringChars m.1 ++ ':' :: ' ' :: m.2.prettyChars level := by
  induction ms with
  | nil => rfl
  | cons m ms ih => rw [prettyOfMembers, ih, List.map_cons]

theorem exists_block (opening closing : Char) (level : Nat) (ps : List (List Char)) :
    ∃ b, IsBlank b ∧ block opening closing level ps =
      opening :: (commaSeparated (ps.map (newline (level + 1) ++ ·)) ++ (b ++ [closing])) := by
  cases ps with
  | nil => exact ⟨[], isBlank_nil, rfl⟩
  | cons p ps => exact ⟨newline level, isBlank_newline level, by simp [block]⟩

theorem spells_prettyChars (h : IsPlain d x) (level : Nat) :
    Spells d x (x.prettyChars level) := by
  induction h generalizing level with
  | null => exact spells_null
  | bool b =>
    cases b
    · exact spells_false
    · exact spells_true
  | integer hlow hhigh => exact spells_integer hlow hhigh
  | string s => exact spells_string s
  | @array d xs _ ih =>
    obtain ⟨b, hb, hblock⟩ := exists_block '[' ']' level (prettyOfList (level + 1) xs)
    rw [prettyChars, hblock]
    refine spells_array ?_ hb
    rw [prettyOfList_eq, List.forall₂_map_right_iff, List.forall₂_map_right_iff, List.forall₂_same]
    exact fun x hx => ⟨_, _, rfl, isBlank_newline _, ih x hx (level + 1)⟩
  | @object d ms _ hnodup ih =>
    obtain ⟨b, hb, hblock⟩ := exists_block '\x7b' '\x7d' level (prettyOfMembers (level + 1) ms)
    have hspace : IsBlank [' '] := fun c hc => List.eq_of_mem_singleton hc ▸ rfl
    rw [prettyChars, hblock]
    refine spells_object ?_ hnodup hb
    rw [prettyOfMembers_eq, List.forall₂_map_right_iff, List.forall₂_map_right_iff,
      List.forall₂_same]
    exact fun m hm => ⟨_, [' '], _, rfl, isBlank_newline _, hspace, ih m hm (level + 1)⟩

end Layouts

theorem read_of_spells {x : Json} {s : String} (h : Spells maxDepth x s.toList) :
    read s = .ok x := by
  have hend : EndsNumber [] := fun c hc => by cases hc
  obtain ⟨o, ho⟩ := h.taken (4 * s.toList.length + 4) 0 [] (by omega) hend
  rw [List.append_nil] at ho
  unfold read
  dsimp only
  rw [ho]
  exact expectEnd_nil x o

theorem read_compact {x : Json} (h : IsPlain maxDepth x) : read x.compact = .ok x := by
  apply read_of_spells
  rw [compact, String.toList_ofList]
  exact spells_chars h

theorem read_pretty {x : Json} (h : IsPlain maxDepth x) : read x.pretty = .ok x := by
  apply read_of_spells
  rw [pretty, String.toList_ofList]
  exact spells_prettyChars h 0

end Timesheet.Json
