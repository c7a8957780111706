import Mathlib.Data.List.Forall2
import Timesheet.Report
import Timesheet.Proofs.Digits
import Timesheet.Proofs.Identifier
import Timesheet.Proofs.Instant

/-!
The lines of a listing. A date pattern that passed the check breaks a line only with a line feed of its
own, and of the parts of an entry's line only the description and the tags are free text. Main statement:
an entry takes one line and a further one for each line feed in its free text.
-/

namespace Timesheet

namespace Text

/-- The lines of a text: a line feed ends one, and what follows the last line feed is one if it is not
empty. -/
def lines : List Char → List (List Char)
  | [] => []
  | c :: s =>
    if c = '\n' then [] :: lines s
    else
      match lines s with
      | [] => [[c]]
      | l :: ls => (c :: l) :: ls

variable {l s t : List Char}

theorem exists_lines_break (t : List Char) : ∃ l ls, lines (t ++ ['\n']) = l :: ls ∧
    ls.length = t.count '\n' ∧ ∀ s, lines (t ++ '\n' :: s) = l :: (ls ++ lines s) := by
  induction t with
  | nil => exact ⟨[], [], rfl, rfl, fun s => rfl⟩
  | cons c t ih =>
    obtain ⟨l, ls, hlines, hlength, happend⟩ := ih
    by_cases hc : c = '\n'
    · subst hc
      refine ⟨[], l :: ls, ?_, ?_, fun s => ?_⟩
      · rw [List.cons_append, lines, if_pos rfl, hlines]
      · rw [List.length_cons, hlength, List.count_cons_self]
      · rw [List.cons_append, lines, if_pos rfl, happend, List.cons_append]
    · refine ⟨c :: l, ls, ?_, ?_, fun s => ?_⟩
      · rw [List.cons_append, lines, if_neg hc, hlines]
      · rw [hlength, List.count_cons_of_ne hc]
      · rw [List.cons_append, lines, if_neg hc, happend]

theorem length_lines_break (t : List Char) : (lines (t ++ ['\n'])).length = t.count '\n' + 1 := by
  obtain ⟨l, ls, hlines, hlength, -⟩ := exists_lines_break t
  rw [hlines, List.length_cons, hlength]

theorem lines_append_break (t s : List Char) :
    lines (t ++ '\n' :: s) = lines (t ++ ['\n']) ++ lines s := by
  obtain ⟨l, ls, hlines, -, happend⟩ := exists_lines_break t
  rw [happend, hlines, List.cons_append]

theorem exists_head_lines (hl : '\n' ∉ l) (t : List Char) :
    ∃ r ∈ (lines (l ++ (t ++ ['\n']))).head?, l <+: r := by
  induction l with
  | nil =>
    obtain ⟨r, rs, hlines, -⟩ := exists_lines_break t
    exact ⟨r, by rw [List.nil_append, hlines]; rfl, List.nil_prefix⟩
  | cons c l ih =>
    obtain ⟨hc, hl⟩ := List.ne_and_not_mem_of_not_mem_cons hl
    obtain ⟨r, hr, hprefix⟩ := ih hl
    obtain ⟨rs, hlines⟩ := List.head?_eq_some_iff.mp hr
    refine ⟨c :: r, ?_, List.cons_prefix_cons.mpr ⟨rfl, hprefix⟩⟩
    rw [List.cons_append, lines, if_neg (Ne.symm hc), hlines]
    rfl

theorem count_intercalate {a : Char} (h : a ∉ s) (ls : List (List Char)) :
    (s.intercalate ls).count a = (ls.map (List.count a)).sum := by
  induction ls with
  | nil => rfl
  | cons l ls ih =>
    by_cases hls : ls = []
    · subst hls
      simp
    · rw [List.intercalate_cons_of_ne_nil hls, List.count_append, List.count_append, ih,
        List.count_eq_zero_of_not_mem h, List.map_cons, List.sum_cons, Nat.add_zero]

theorem nil_intercalate (ls : List (List Char)) : [].intercalate ls = ls.flatten := by
  induction ls with
  | nil => rfl
  | cons l ls ih =>
    by_cases hls : ls = []
    · subst hls
      simp
    · rw [List.intercalate_cons_of_ne_nil hls, ih, List.append_nil, List.flatten_cons]

theorem toList_intercalate_map {α : Type} (f : α → String) (l : List α) :
    ("".intercalate (l.map f)).toList = (l.map fun a => (f a).toList).flatten := by
  rw [String.toList_intercalate, List.map_map]
  exact nil_intercalate _

theorem ne_break_of_isDigit {c : Char} (h : c.isDigit = true) : c ≠ '\n' := by
  rintro rfl
  exact absurd h (by decide)

@[simp]
theorem break_notMem_digits (n : Nat) : '\n' ∉ digits n :=
  fun h => ne_break_of_isDigit (isDigit_of_mem_digits h) rfl

@[simp]
theorem break_notMem_fixedDigits (w n : Nat) : '\n' ∉ fixedDigits w n :=
  fun h => ne_break_of_isDigit (isDigit_of_mem_fixedDigits h) rfl

@[simp]
theorem digitChar_ne_break (n : Nat) : digitChar n ≠ '\n' :=
  ne_break_of_isDigit (digitChar_isDigit n)

@[simp]
theorem mem_padStart {w : Nat} {fill c : Char} :
    c ∈ padStart w fill s ↔ s.length < w ∧ c = fill ∨ c ∈ s := by
  unfold padStart
  rw [List.mem_append, List.mem_replicate, Nat.sub_ne_zero_iff_lt]

@[simp]
theorem break_notMem_signedDigits (n : Int) : '\n' ∉ signedDigits n := by
  unfold signedDigits
  split <;> simp

@[simp]
theorem break_notMem_zeroPadded (w : Nat) (n : Int) : '\n' ∉ zeroPadded w n := by
  unfold zeroPadded
  split <;> simp

end Text

open Text

namespace DatePattern

variable {i : Instant} {p : Padding}

theorem break_notMem_byteChars (n : Nat) : '\n' ∉ byteChars n p := by
  -- The tens of a large byte run past the digits, but never down to the line feed.
  have hofNat (k : Nat) : (Char.ofNat k).toNat = k ∨ (Char.ofNat k).toNat = 0 := by
    by_cases hk : k.isValidChar
    · rw [Char.ofNat, dif_pos hk]
      exact .inl rfl
    · rw [Char.ofNat, dif_neg hk]
      exact .inr rfl
  have htens : '\n' ≠ Char.ofNat (48 + n / 10) := by
    intro h
    have hval : 10 = (Char.ofNat (48 + n / 10)).toNat := congrArg Char.toNat h
    rcases hofNat (48 + n / 10) with h | h <;> omega
  have hones : '\n' ≠ digitChar n := (digitChar_ne_break n).symm
  unfold byteChars
  dsimp only
  split
  · cases p <;> simp [hones]
  · exact List.not_mem_cons_of_ne_of_not_mem htens
      (List.not_mem_cons_of_ne_of_not_mem hones List.not_mem_nil)

theorem break_notMem_wideChars (w : Nat) (n : Int) : '\n' ∉ wideChars w n p := by
  cases p <;> simp [wideChars]

theorem break_notMem_yearChars (y : Int) : '\n' ∉ yearChars y p := by
  unfold yearChars
  split
  · exact break_notMem_wideChars 4 y
  · split
    · exact break_notMem_wideChars 5 y
    · cases p <;> simp

theorem Number.break_notMem_render (n : Number) : '\n' ∉ n.render i p := by
  cases n <;> first
    | exact break_notMem_byteChars _
    | exact break_notMem_wideChars _ _
    | exact break_notMem_yearChars _
    | exact List.not_mem_cons_of_ne_of_not_mem (digitChar_ne_break _).symm List.not_mem_nil

theorem Name.break_notMem_render (n : Name) : '\n' ∉ n.render i := by
  have hnames {names : List String} (h : ∀ name ∈ names, '\n' ∉ name.toList) (k : Nat) :
      '\n' ∉ (names.getD k "").toList := by
    rw [List.getD_eq_getElem?_getD]
    cases hname : names[k]? with
    | none => exact List.not_mem_nil
    | some name => exact h name (List.mem_of_getElem? hname)
  have hmonth : '\n' ∉ monthName i := hnames (by decide) _
  have hweekday : '\n' ∉ weekdayName i := hnames (by decide) _
  cases n with
  | shortMonth => exact fun h => hmonth (List.mem_of_mem_take h)
  | longMonth => exact hmonth
  | shortWeekday => exact fun h => hweekday (List.mem_of_mem_take h)
  | longWeekday => exact hweekday
  | lowerHalf =>
    rw [render]
    split <;> decide
  | upperHalf =>
    rw [render]
    split <;> decide
  | zone =>
    rw [render]
    decide

theorem break_notMem_fractionChars : '\n' ∉ i.fractionChars := by
  unfold Instant.fractionChars
  dsimp only
  split_ifs <;> simp

theorem break_notMem_full : '\n' ∉ Item.full.render i := by
  unfold Item.render Instant.dateChars Instant.clockChars Instant.yearChars
  have hfraction : '\n' ∉ i.fractionChars := break_notMem_fractionChars
  split_ifs <;> simp [hfraction]

def Item.IsPlain : Item → Bool
  | .offset s => !s.contains '\n'
  | _ => true

theorem Item.break_mem_render {item : Item} (hplain : item.IsPlain = true) :
    '\n' ∈ item.render i ↔ item = .literal '\n' := by
  cases item with
  | literal c => simp [Item.render, eq_comm]
  | number n p => simpa [Item.render] using n.break_notMem_render
  | name n => simpa [Item.render] using n.break_notMem_render
  | shortestFraction => simpa [Item.render] using break_notMem_fractionChars
  | fraction width point => cases point <;> simp [Item.render]
  | offset s => simpa [Item.render, Item.IsPlain] using hplain
  | full => simpa using break_notMem_full

def ArePlain (is : Option (List Item)) : Prop :=
  ∀ items ∈ is, ∀ item ∈ items, item.IsPlain = true

theorem ArePlain.prepend {is rest : Option (List Item)} (his : ArePlain is) (hrest : ArePlain rest) :
    ArePlain (prepend is rest) := by
  intro items hitems item hitem
  obtain ⟨front, hfront, hitems⟩ := Option.bind_eq_some_iff.mp hitems
  obtain ⟨back, hback, rfl⟩ := Option.map_eq_some_iff.mp hitems
  rcases List.mem_append.mp hitem with h | h
  · exact his front hfront item h
  · exact hrest back hback item h

theorem ArePlain.of_all {items : List Item} (h : items.all Item.IsPlain = true) :
    ArePlain (some items) := by
  rintro _ ⟨⟩
  exact List.all_eq_true.mp h

theorem arePlain_directive? (c : Char) : ArePlain (directive? c) := by
  unfold directive?
  split
  · exact .of_all rfl
  · split <;> first
      | exact .of_all rfl
      | exact nofun

theorem arePlain_padded? (c : Char) : ArePlain (padded? p c) := by
  unfold padded?
  cases number? c with
  | none => exact nofun
  | some n => exact .of_all rfl

theorem arePlain_items? (s : List Char) : ArePlain (items? s) := by
  fun_induction items? s with
  | case1 => exact .of_all rfl
  | case13 c r ih => exact (arePlain_padded? c).prepend ih
  | case14 c r ih => exact (arePlain_padded? c).prepend ih
  | case15 c r ih => exact (arePlain_padded? c).prepend ih
  | case16 c r => exact (arePlain_directive? c).prepend ‹_›
  | case17 => exact nofun
  | _ => exact (ArePlain.of_all rfl).prepend ‹_›

theorem break_mem_render {text : String} {d : DatePattern} (hd : parse? text = some d) :
    '\n' ∈ (d.render i).toList ↔ .literal '\n' ∈ d.items := by
  obtain ⟨items, hitems, rfl⟩ := Option.map_eq_some_iff.mp hd
  have hplain : ∀ item ∈ items, item.IsPlain = true := arePlain_items? _ items hitems
  unfold render
  rw [String.toList_ofList, List.mem_flatMap]
  constructor
  · rintro ⟨item, hitem, hbreak⟩
    exact (Item.break_mem_render (hplain item hitem)).mp hbreak ▸ hitem
  · intro h
    exact ⟨.literal '\n', h, List.mem_singleton_self '\n'⟩

end DatePattern

namespace Report

variable {p : DatePattern} {e : Entry} {es : List Entry}

def breaks (e : Entry) : Nat :=
  e.description.toList.count '\n' + (e.tags.items.map fun t => t.toList.count '\n').sum

def IsOneLine (e : Entry) : Prop :=
  '\n' ∉ e.description.toList ∧ ∀ t ∈ e.tags.items, '\n' ∉ t.toList

theorem breaks_eq_zero_iff : breaks e = 0 ↔ IsOneLine e := by
  unfold breaks IsOneLine
  rw [Nat.add_eq_zero_iff, List.count_eq_zero, List.sum_eq_zero_iff]
  simp [List.count_eq_zero]

theorem break_notMem_repr (n : Int) : '\n' ∉ n.repr.toList := by
  have hnat (n : Nat) : '\n' ∉ n.repr.toList := by
    change '\n' ∉ (String.ofList (digits n)).toList
    rw [String.toList_ofList]
    exact break_notMem_digits n
  cases n with
  | ofNat n => exact hnat n
  | negSucc n =>
    rw [Int.repr, String.toList_append, List.mem_append]
    exact not_or.mpr ⟨by decide, hnat (n + 1)⟩

theorem break_notMem_duration (seconds : Int) : '\n' ∉ (duration seconds).toList := by
  unfold duration
  dsimp only
  split_ifs <;> simp [break_notMem_repr]

theorem count_description (e : Entry) :
    (if e.description = "" then "" else "  " ++ e.description).toList.count '\n' =
      e.description.toList.count '\n' := by
  split
  · rename_i h
    rw [h]
  · rw [String.toList_append, List.count_append]
    exact Nat.zero_add _

theorem count_tags (e : Entry) :
    (if e.tags.items = [] then "" else "  [" ++ tagList e ++ "]").toList.count '\n' =
      (e.tags.items.map fun t => t.toList.count '\n').sum := by
  split
  · rename_i h
    rw [h]
    rfl
  · have hlist : (tagList e).toList.count '\n' = (e.tags.items.map fun t => t.toList.count '\n').sum := by
      unfold tagList
      rw [String.toList_intercalate, count_intercalate (by decide), List.map_map]
      rfl
    rw [String.toList_append, String.toList_append, List.count_append, List.count_append, hlist]
    exact Nat.zero_add _

theorem exists_entryLine (hp : ∀ i, '\n' ∉ (p.render i).toList) (e : Entry) :
    ∃ rest, (entryLine p e).toList = e.id.text.toList ++ (rest ++ ['\n']) ∧
      rest.count '\n' = breaks e := by
  have hstop : '\n' ∉ (stopText p e.stop).toList := by
    cases e.stop with
    | none =>
      rw [stopText]
      decide
    | some i => exact hp i
  have hduration : '\n' ∉ padStart 8 ' ' (duration e.duration).toList := by
    simp [break_notMem_duration]
  refine ⟨("  " ++ p.render e.start ++ " - " ++ stopText p e.stop ++ "  " ++
    String.ofList (padStart 8 ' ' (duration e.duration).toList) ++
    (if e.description = "" then "" else "  " ++ e.description) ++
    (if e.tags.items = [] then "" else "  [" ++ tagList e ++ "]")).toList, ?_, ?_⟩
  · unfold entryLine line
    simp only [String.toList_append, List.append_assoc]
    rfl
  · simp only [String.toList_append, List.count_append, count_description, count_tags, String.toList_ofList,
      List.count_eq_zero_of_not_mem (hp e.start), List.count_eq_zero_of_not_mem hstop,
      List.count_eq_zero_of_not_mem hduration]
    exact congrArg (· + _) (Nat.zero_add _)

/-- What a listing shows of an entry: a line that begins with its identifier, and a further one for each
line feed in its free text. -/
structure Shows (e : Entry) (ls : List (List Char)) : Prop where
  length : ls.length = breaks e + 1
  begins : ∃ l ∈ ls.head?, e.id.text.toList <+: l

theorem break_notMem_id (e : Entry) : '\n' ∉ e.id.text.toList := by
  intro h
  unfold Identifier.text Uuid.text at h
  rw [String.toList_ofList] at h
  exact absurd (Uuid.not_blank_of_mem_chars h) (by decide)

theorem entryList_toList (hne : es ≠ []) (none : String) :
    (entryList p es none).toList = (es.map fun e => (entryLine p e).toList).flatten := by
  rw [entryList, if_neg hne, toList_intercalate_map]

theorem exists_parts (hp : ∀ i, '\n' ∉ (p.render i).toList) (es : List Entry) :
    ∃ parts, List.Forall₂ Shows es parts ∧
      lines (es.map fun e => (entryLine p e).toList).flatten = parts.flatten := by
  induction es with
  | nil => exact ⟨[], .nil, rfl⟩
  | cons e es ih =>
    obtain ⟨parts, hparts, hlines⟩ := ih
    obtain ⟨rest, hline, hcount⟩ := exists_entryLine hp e
    refine ⟨lines (e.id.text.toList ++ (rest ++ ['\n'])) :: parts, .cons ⟨?_, ?_⟩ hparts, ?_⟩
    · rw [← List.append_assoc, length_lines_break, List.count_append, hcount,
        List.count_eq_zero_of_not_mem (break_notMem_id e), Nat.zero_add]
    · exact exists_head_lines (break_notMem_id e) rest
    · rw [List.map_cons, List.flatten_cons, hline, List.flatten_cons, ← hlines]
      simp only [← List.append_assoc]
      rw [List.append_assoc, List.singleton_append, lines_append_break]

theorem Shows.length_flatten {parts : List (List (List Char))} (h : List.Forall₂ Shows es parts) :
    parts.flatten.length = (es.map fun e => breaks e + 1).sum := by
  induction h with
  | nil => rfl
  | cons hshows _ ih =>
    rw [List.flatten_cons, List.length_append, hshows.length, ih, List.map_cons, List.sum_cons]

theorem sum_breaks_eq_iff : (es.map fun e => breaks e + 1).sum = es.length ↔ ∀ e ∈ es, IsOneLine e := by
  -- Each entry takes a line, so that there are as many lines as entries only if none takes more.
  induction es with
  | nil => simp
  | cons e es ih =>
    have hle (es : List Entry) : es.length ≤ (es.map fun e => breaks e + 1).sum := by
      induction es with
      | nil => exact Nat.le_refl 0
      | cons e es ih =>
        rw [List.map_cons, List.sum_cons, List.length_cons]
        omega
    have htail := hle es
    rw [List.forall_mem_cons, ← ih, ← breaks_eq_zero_iff, List.map_cons, List.sum_cons, List.length_cons]
    omega

theorem Shows.flatten_of_isOneLine {parts : List (List (List Char))} (h : List.Forall₂ Shows es parts)
    (hes : ∀ e ∈ es, IsOneLine e) :
    List.Forall₂ (fun e l => e.id.text.toList <+: l) es parts.flatten := by
  induction h with
  | nil => exact .nil
  | @cons e ls es parts hshows _ ih =>
    obtain ⟨he, hes⟩ := List.forall_mem_cons.mp hes
    obtain ⟨l, hl, hprefix⟩ := hshows.begins
    have hlength : ls.length = 1 := by rw [hshows.length, breaks_eq_zero_iff.mpr he]
    obtain ⟨l', rfl⟩ := List.length_eq_one_iff.mp hlength
    obtain ⟨⟩ := hl
    exact .cons hprefix (ih hes)

/-- With a pattern that breaks no line, an entry takes a line that begins with its identifier and one more
for each line feed in its description and tags. There is one line for each entry exactly if there is no
such line feed, and then each begins with the identifier of its entry. -/
theorem listing_lines (p : DatePattern) (hp : ∀ i, '\n' ∉ (p.render i).toList) (es : List Entry)
    (hne : es ≠ []) (none : String) :
    (∃ parts, List.Forall₂ Shows es parts ∧ lines (entryList p es none).toList = parts.flatten) ∧
    (lines (entryList p es none).toList).length = (es.map fun e => breaks e + 1).sum ∧
    ((lines (entryList p es none).toList).length = es.length ↔ ∀ e ∈ es, IsOneLine e) ∧
    ((∀ e ∈ es, IsOneLine e) →
      List.Forall₂ (fun e l => e.id.text.toList <+: l) es (lines (entryList p es none).toList)) := by
  obtain ⟨parts, hparts, hlines⟩ := exists_parts hp es
  rw [entryList_toList hne, hlines, Shows.length_flatten hparts]
  exact ⟨⟨parts, hparts, rfl⟩, rfl, sum_breaks_eq_iff, Shows.flatten_of_isOneLine hparts⟩

def toTheMinute : DatePattern where
  items := DatePattern.separated '-' [.number .year .zeros, .number .month .zeros, .number .day .zeros] ++
    .literal ' ' :: DatePattern.hourAndMinute

theorem break_notMem_toTheMinute (i : Instant) : '\n' ∉ (toTheMinute.render i).toList := by
  have hparse : DatePattern.parse? "%Y-%m-%d %H:%M" = some toTheMinute := by decide
  exact (DatePattern.break_mem_render hparse).not.mpr (by decide)

def twoLineEntry : Entry where
  id := ⟨.ofNat 1⟩
  description := "a\nb"
  user := ⟨.ofNat 2⟩
  workspace := ⟨.ofNat 3⟩
  project := .absent
  task := .absent
  billable := false
  start := .epoch
  stop := some (.ofSecond 5400 (by decide))
  duration := 5400
  createdWith := "test"
  tags := .empty
  durationOnly := false
  created := .epoch
  updated := .epoch

theorem listing_lines_twoLineEntry : (∀ i, '\n' ∉ (toTheMinute.render i).toList) ∧ [twoLineEntry] ≠ [] ∧
    (lines (entryList toTheMinute [twoLineEntry] "none").toList).length = 2 := by
  have hne : [twoLineEntry] ≠ [] := List.cons_ne_nil _ _
  refine ⟨break_notMem_toTheMinute, hne, ?_⟩
  obtain ⟨-, hlength, -⟩ := listing_lines toTheMinute break_notMem_toTheMinute [twoLineEntry] hne "none"
  rw [hlength]
  decide

end Report
end Timesheet
