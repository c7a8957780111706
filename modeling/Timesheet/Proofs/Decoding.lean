import Timesheet.Exchange.Decoding
import Timesheet.Proofs.Identifier
import Timesheet.Proofs.Lenient
import Timesheet.Proofs.Reading

/-!
Decoding of what was encoded. Main statement: a record is decoded from its exchanged form and from the
text of it as it was, even if members of other names are added and all of them change places.
-/

namespace Timesheet.Exchange

section Values

variable {α : Type}

@[simp]
theorem text?_text (s : String) : text? (text s) = some s := rfl

@[simp]
theorem bool?_bool (b : Bool) : bool? (.bool b) = some b := rfl

theorem word?_integer {n : Int} (h : Word.fits n = true) : word? (.integer n) = some n := by
  simp [word?, h]

@[simp]
theorem identifier?_identifier {kind : IdentifierKind} (id : Identifier kind) :
    identifier? kind (identifier id) = some id := by
  simp [identifier, identifier?, Identifier.parse_text, Except.toOption]

@[simp]
theorem instant?_instant (i : Instant) : instant? (instant i) = some i :=
  Instant.ofText?_text i

@[simp]
theorem texts?_texts (ss : List String) : texts? (texts ss) = some ss := by
  simp only [texts, texts?]
  induction ss with
  | nil => rfl
  | cons s ss ih => simp_all [text?]

@[simp]
theorem tagSet?_texts (tags : TagSet) : tagSet? (texts tags.items) = some tags := by
  rw [tagSet?, texts?_texts, Option.map_some, TagSet.ofList_items]

theorem nullable?_nullable {encode : α → Json} {decode : Json → Option α} {o : Option α}
    (hnull : ∀ a, encode a ≠ .null) (h : ∀ a ∈ o, decode (encode a) = some a) :
    nullable? decode (nullable encode o) = some o := by
  cases o with
  | none => rfl
  | some a =>
    have hdecode := h a rfl
    unfold nullable nullable?
    split
    · exact absurd ‹_› (hnull a)
    · rw [hdecode, Option.map_some]

end Values

section Members

def members : Json → Members
  | .object ms => ms
  | _ => []

variable {ms₀ ms extras : Members} {names : List String}

structure Widened (names : List String) (ms₀ extras ms : Members) : Prop where
  others : ∀ m ∈ extras, m.1 ∉ names
  perm : ms.Perm (ms₀ ++ extras)

/-- Whoever looks for a name of the list finds what there was before. -/
structure Shows (names : List String) (ms₀ ms : Members) : Prop where
  present : ∀ m ∈ ms₀, ms.lookup m.1 = some m.2
  absent : ∀ name ∈ names, name ∉ ms₀.map Prod.fst → ms.lookup name = none

theorem lookup_eq_some_of_unique {m : String × Json} (hmem : m ∈ ms)
    (hunique : ∀ m' ∈ ms, m'.1 = m.1 → m' = m) : ms.lookup m.1 = some m.2 := by
  induction ms with
  | nil => cases hmem
  | cons m' ms ih =>
    by_cases hname : m'.1 = m.1
    · rw [hunique m' List.mem_cons_self hname]
      exact List.lookup_cons_self
    · have hmem' : m ∈ ms := by
        rcases List.mem_cons.mp hmem with rfl | hmem'
        · exact absurd rfl hname
        · exact hmem'
      have hne : (m.1 == m'.1) = false := by simpa using Ne.symm hname
      rw [List.lookup_cons, hne]
      exact ih hmem' fun m' hm' => hunique m' (List.mem_cons_of_mem _ hm')

theorem Widened.shows (h : Widened names ms₀ extras ms) (hsub : (ms₀.map Prod.fst).Sublist names)
    (hnames : names.Nodup) : Shows names ms₀ ms where
  present m hm := by
    have hname : m.1 ∈ names := hsub.subset (List.mem_map_of_mem hm)
    refine lookup_eq_some_of_unique (h.perm.mem_iff.mpr (List.mem_append_left _ hm)) fun m' hm' he => ?_
    rcases List.mem_append.mp (h.perm.mem_iff.mp hm') with hm' | hm'
    · exact List.inj_on_of_nodup_map (hnames.sublist hsub) hm' hm he
    · exact absurd (he ▸ hname) (h.others m' hm')
  absent name hname hnot := by
    rw [List.lookup_eq_none_iff]
    intro m hm
    rcases List.mem_append.mp (h.perm.mem_iff.mp hm) with hm | hm
    · simpa using fun he : name = m.1 => hnot (he ▸ List.mem_map_of_mem hm)
    · simpa using fun he : name = m.1 => h.others m hm (he ▸ hname)

theorem Widened.nodup (h : Widened names ms₀ extras ms) (hsub : (ms₀.map Prod.fst).Sublist names)
    (hnames : names.Nodup) (hextras : (extras.map Prod.fst).Nodup) : (ms.map Prod.fst).Nodup := by
  rw [(h.perm.map Prod.fst).nodup_iff, List.map_append]
  refine List.Nodup.append (hnames.sublist hsub) hextras fun name hname hname' => ?_
  obtain ⟨m, hm, rfl⟩ := List.mem_map.mp hname'
  exact h.others m hm (hsub.subset hname)

end Members

section Lookups

variable {α β : Type} {ms : Members} {name : String} {x : Json} {a : α} {decode : Json → Option α}

theorem bind_of_eq_some {o : Option α} {f : α → Option β} (h : o = some a) : (o >>= f) = f a := by
  rw [h]
  rfl

theorem required_eq (h : ms.lookup name = some x) (hdecode : decode x = some a) :
    required ms name decode = some a := by
  rw [required, h]
  exact hdecode

theorem defaulted_eq {default : α} (h : ms.lookup name = some x) (hdecode : decode x = some a) :
    defaulted ms name default decode = some a := by
  rw [defaulted, h]
  exact hdecode

theorem optional_eq {encode : α → Json} {o : Option α}
    (h : ms.lookup name = some (nullable encode o)) (hnull : ∀ a, encode a ≠ .null)
    (hdecode : ∀ a ∈ o, decode (encode a) = some a) : optional ms name decode = some o :=
  defaulted_eq h (nullable?_nullable hnull hdecode)

theorem optional_of_absent (h : ms.lookup name = none) : optional ms name decode = some none := by
  rw [optional, defaulted, h]

theorem members?_object (names : List String) (ms : Members) :
    members? names (.object ms) = some ms := rfl

end Lookups

theorem text_ne_null (s : String) : text s ≠ .null := by
  simp [text]

theorem instant_ne_null (i : Instant) : instant i ≠ .null := by
  simp [instant]

theorem texts_ne_null (ss : List String) : texts ss ≠ .null := by
  simp [texts]

section Records

def newEntryNames : List String :=
  fieldNames ++ ["start", "duration"]

variable {ms : Members}

theorem optional_stop {e : Entry} (h : Shows entryNames (members (entry e)) ms) :
    optional ms "stop" instant? = some e.stop := by
  cases hstop : e.stop with
  | none =>
    refine optional_of_absent (h.absent "stop" (by decide) ?_)
    simp [members, entry, entryMembers, stopMember, hstop]
  | some i =>
    have hmem : ("stop", instant i) ∈ members (entry e) := by
      simp [members, entry, entryMembers, stopMember, hstop]
    have hlookup : ms.lookup "stop" = some (nullable instant (some i)) := h.present _ hmem
    exact optional_eq hlookup instant_ne_null fun i _ => instant?_instant i

theorem entry?_of_shows {e : Entry} (hfits : Word.fits e.duration = true)
    (h : Shows entryNames (members (entry e)) ms) : entry? (.object ms) = some e := by
  have hpresent := h.present
  simp only [members, entry, entryMembers, List.forall_mem_append, List.forall_mem_cons] at hpresent
  obtain ⟨⟨⟨hid, hdescription, huser, hworkspace, hproject, htask, hbillable, hstart, -⟩, -⟩,
    hduration, hcreatedWith, htags, hdurationOnly, hcreated, hupdated, -⟩ := hpresent
  unfold entry?
  rw [bind_of_eq_some (members?_object _ _),
    bind_of_eq_some (required_eq hid (identifier?_identifier _)),
    bind_of_eq_some (defaulted_eq hdescription (text?_text _)),
    bind_of_eq_some (required_eq huser (identifier?_identifier _)),
    bind_of_eq_some (required_eq hworkspace (identifier?_identifier _)),
    bind_of_eq_some (defaulted_eq hproject (identifier?_identifier _)),
    bind_of_eq_some (defaulted_eq htask (identifier?_identifier _)),
    bind_of_eq_some (defaulted_eq hbillable (bool?_bool _)),
    bind_of_eq_some (required_eq hstart (instant?_instant _)),
    bind_of_eq_some (optional_stop h),
    bind_of_eq_some (required_eq hduration (word?_integer hfits)),
    bind_of_eq_some (required_eq hcreatedWith (text?_text _)),
    bind_of_eq_some (defaulted_eq htags (tagSet?_texts _)),
    bind_of_eq_some (defaulted_eq hdurationOnly (bool?_bool _)),
    bind_of_eq_some (required_eq hcreated (instant?_instant _)),
    bind_of_eq_some (required_eq hupdated (instant?_instant _))]
  rfl

theorem fieldsOf?_of_shows {f : EntryFields} (h : ∀ m ∈ fieldMembers f, ms.lookup m.1 = some m.2) :
    fieldsOf? ms = some f := by
  simp only [fieldMembers, List.forall_mem_cons] at h
  obtain ⟨hdescription, hworkspace, hproject, htask, hbillable, hcreatedWith, htags, hdurationOnly,
    -⟩ := h
  unfold fieldsOf?
  rw [bind_of_eq_some (optional_eq hdescription text_ne_null fun s _ => text?_text s),
    bind_of_eq_some (optional_eq hworkspace text_ne_null fun s _ => text?_text s),
    bind_of_eq_some (optional_eq hproject text_ne_null fun s _ => text?_text s),
    bind_of_eq_some (optional_eq htask text_ne_null fun s _ => text?_text s),
    bind_of_eq_some (defaulted_eq hbillable (bool?_bool _)),
    bind_of_eq_some (optional_eq hcreatedWith text_ne_null fun s _ => text?_text s),
    bind_of_eq_some (optional_eq htags texts_ne_null fun ss _ => texts?_texts ss),
    bind_of_eq_some (defaulted_eq hdurationOnly (bool?_bool _))]
  rfl

theorem newEntry?_of_shows {n : NewEntry} (hfits : ∀ d ∈ n.duration, Word.fits d = true)
    (h : Shows newEntryNames (members (newEntry n)) ms) : newEntry? (.object ms) = some n := by
  have hpresent := h.present
  simp only [members, newEntry, List.forall_mem_append] at hpresent
  obtain ⟨hfields, hrest⟩ := hpresent
  simp only [List.forall_mem_cons] at hrest
  obtain ⟨hstart, hduration, -⟩ := hrest
  unfold newEntry?
  dsimp only
  rw [bind_of_eq_some (optional_eq hstart instant_ne_null fun i _ => instant?_instant i),
    bind_of_eq_some (optional_eq hduration (by simp) fun d hd => word?_integer (hfits d hd)),
    bind_of_eq_some (fieldsOf?_of_shows hfields)]
  rfl

theorem patch?_of_shows {p : Patch} (h : Shows patchNames (members (patch p)) ms) :
    patch? (.object ms) = some p := by
  have hpresent := h.present
  simp only [members, patch, List.forall_mem_cons] at hpresent
  obtain ⟨hdescription, hworkspace, hproject, htask, hbillable, hstart, hstop, htags, hdurationOnly,
    -⟩ := hpresent
  unfold patch?
  rw [bind_of_eq_some (members?_object _ _),
    bind_of_eq_some (optional_eq hdescription text_ne_null fun s _ => text?_text s),
    bind_of_eq_some (optional_eq hworkspace text_ne_null fun s _ => text?_text s),
    bind_of_eq_some (optional_eq hproject text_ne_null fun s _ => text?_text s),
    bind_of_eq_some (optional_eq htask text_ne_null fun s _ => text?_text s),
    bind_of_eq_some (optional_eq hbillable (by simp) fun b _ => bool?_bool b),
    bind_of_eq_some (optional_eq hstart instant_ne_null fun i _ => instant?_instant i),
    bind_of_eq_some (optional_eq hstop instant_ne_null fun i _ => instant?_instant i),
    bind_of_eq_some (optional_eq htags texts_ne_null fun ss _ => texts?_texts ss),
    bind_of_eq_some (optional_eq hdurationOnly (by simp) fun b _ => bool?_bool b)]
  rfl

theorem policy?_of_shows {p : Policy} (h : Shows policyNames (members (policy p)) ms) :
    policy? (.object ms) = some p := by
  have hpresent := h.present
  simp only [members, policy, List.forall_mem_cons] at hpresent
  obtain ⟨hresync, hsingle, -⟩ := hpresent
  unfold policy?
  rw [bind_of_eq_some (members?_object _ _), bind_of_eq_some (defaulted_eq hresync (bool?_bool _)),
    bind_of_eq_some (defaulted_eq hsingle (bool?_bool _))]
  rfl

theorem task?_of_shows {t : Task} (hfits : Word.fits t.trackedSeconds = true)
    (h : Shows taskNames (members (task t)) ms) : task? (.object ms) = some t := by
  have hpresent := h.present
  simp only [members, task, List.forall_mem_cons] at hpresent
  obtain ⟨hid, hproject, hname, htracked, hcreated, hupdated, -⟩ := hpresent
  unfold task?
  rw [bind_of_eq_some (members?_object _ _),
    bind_of_eq_some (required_eq hid (identifier?_identifier _)),
    bind_of_eq_some (defaulted_eq hproject (identifier?_identifier _)),
    bind_of_eq_some (required_eq hname (text?_text _)),
    bind_of_eq_some (defaulted_eq htracked (word?_integer hfits)),
    bind_of_eq_some (required_eq hcreated (instant?_instant _)),
    bind_of_eq_some (required_eq hupdated (instant?_instant _))]
  rfl

theorem fields?_of_shows {f : EntryFields} (h : Shows fieldNames (members (fields f)) ms) :
    fields? (.object ms) = some f :=
  fieldsOf?_of_shows h.present

end Records

section Plain

variable {d : Nat}

theorem isPlain_integer {n : Int} (h : Word.fits n = true) : (Json.integer n).IsPlain d := by
  obtain ⟨hlow, hhigh⟩ := Bool.and_eq_true_iff.mp h
  exact .integer (of_decide_eq_true hlow) ((of_decide_eq_true hhigh).trans (by decide))

theorem isPlain_texts (ss : List String) : (texts ss).IsPlain (d + 1) := by
  refine .array fun x hx => ?_
  obtain ⟨s, -, rfl⟩ := List.mem_map.mp hx
  exact .string s

theorem isPlain_nullable {α : Type} {encode : α → Json} {o : Option α}
    (h : ∀ a ∈ o, (encode a).IsPlain d) : (nullable encode o).IsPlain d := by
  cases o with
  | none => exact .null
  | some a => exact h a rfl

theorem isPlain_entry {e : Entry} (h : Word.fits e.duration = true) :
    ∀ m ∈ members (entry e), m.2.IsPlain (d + 1) := by
  have hstop : ∀ m ∈ stopMember e.stop, m.2.IsPlain (d + 1) := by
    cases e.stop with
    | none => exact fun m hm => by cases hm
    | some i => exact List.forall_mem_singleton.mpr (.string _)
  simp only [members, entry, entryMembers, List.forall_mem_append, List.forall_mem_cons]
  exact ⟨⟨⟨.string _, .string _, .string _, .string _, .string _, .string _, .bool _, .string _,
    List.forall_mem_nil _⟩, hstop⟩, isPlain_integer h, .string _, isPlain_texts _, .bool _, .string _,
    .string _, List.forall_mem_nil _⟩

theorem isPlain_fields (f : EntryFields) :
    ∀ m ∈ members (fields f), m.2.IsPlain (d + 1) := by
  have htext (o : Option String) : (nullable text o).IsPlain (d + 1) :=
    isPlain_nullable fun s _ => .string s
  have htexts := isPlain_nullable (o := f.tags) fun ss _ => isPlain_texts (d := d) ss
  simp only [members, fields, fieldMembers, List.forall_mem_cons]
  exact ⟨htext _, htext _, htext _, htext _, .bool _, htext _, htexts, .bool _,
    List.forall_mem_nil _⟩

theorem isPlain_newEntry {n : NewEntry} (h : ∀ k ∈ n.duration, Word.fits k = true) :
    ∀ m ∈ members (newEntry n), m.2.IsPlain (d + 1) := by
  have hstart : (nullable instant n.start).IsPlain (d + 1) :=
    isPlain_nullable fun i _ => .string i.text
  have hduration : (nullable Json.integer n.duration).IsPlain (d + 1) :=
    isPlain_nullable fun k hk => isPlain_integer (h k hk)
  simp only [members, newEntry, List.forall_mem_append, List.forall_mem_cons]
  exact ⟨isPlain_fields n.fields, hstart, hduration, List.forall_mem_nil _⟩

theorem isPlain_patch (p : Patch) : ∀ m ∈ members (patch p), m.2.IsPlain (d + 1) := by
  have htext (o : Option String) : (nullable text o).IsPlain (d + 1) :=
    isPlain_nullable fun s _ => .string s
  have hbool (o : Option Bool) : (nullable Json.bool o).IsPlain (d + 1) :=
    isPlain_nullable fun b _ => .bool b
  have hinstant (o : Option Instant) : (nullable instant o).IsPlain (d + 1) :=
    isPlain_nullable fun i _ => .string i.text
  have htexts : (nullable texts p.tags).IsPlain (d + 1) :=
    isPlain_nullable fun ss _ => isPlain_texts ss
  simp only [members, patch, List.forall_mem_cons]
  exact ⟨htext _, htext _, htext _, htext _, hbool _, hinstant _, hinstant _, htexts, hbool _,
    List.forall_mem_nil _⟩

theorem isPlain_policy (p : Policy) : ∀ m ∈ members (policy p), m.2.IsPlain d := by
  simp only [members, policy, List.forall_mem_cons]
  exact ⟨.bool _, .bool _, List.forall_mem_nil _⟩

theorem isPlain_task {t : Task} (h : Word.fits t.trackedSeconds = true) :
    ∀ m ∈ members (task t), m.2.IsPlain d := by
  simp only [members, task, List.forall_mem_cons]
  exact ⟨.string _, .string _, .string _, isPlain_integer h, .string _, .string _,
    List.forall_mem_nil _⟩

end Plain

def decodeText {α : Type} (decode : Json → Option α) (s : String) : Option α :=
  (Json.read s).toOption.bind decode

/-- What `a` is encoded as is decoded as `a`, and so is any object that has more members, of names that
are not looked up, with the members in any order; and both texts of such an object are, if the members
added to it are distinct and each can be told from its text. -/
structure Restores {α : Type} (names : List String) (encode : α → Json) (decode : Json → Option α)
    (a : α) : Prop where
  object : encode a = .object (members (encode a))
  decoded : ∀ extras ms, Widened names (members (encode a)) extras ms →
    decode (.object ms) = some a
  texts : ∀ extras ms, Widened names (members (encode a)) extras ms →
    (extras.map Prod.fst).Nodup → (∀ m ∈ extras, m.2.IsPlain 126) →
      decodeText decode (Json.object ms).compact = some a ∧
        decodeText decode (Json.object ms).pretty = some a

theorem restores_of_shows {α : Type} {names : List String} {encode : α → Json}
    {decode : Json → Option α} {a : α} (hobject : encode a = .object (members (encode a)))
    (hnames : names.Nodup) (hsub : ((members (encode a)).map Prod.fst).Sublist names)
    (hplain : ∀ m ∈ members (encode a), m.2.IsPlain 126)
    (hdecode : ∀ ms, Shows names (members (encode a)) ms → decode (.object ms) = some a) :
    Restores names encode decode a where
  object := hobject
  decoded extras ms h := hdecode ms (h.shows hsub hnames)
  texts extras ms h hnodup hextras := by
    have hms : (Json.object ms).IsPlain Json.maxDepth := by
      refine .object (fun m hm => ?_) (h.nodup hsub hnames hnodup)
      rcases List.mem_append.mp (h.perm.mem_iff.mp hm) with hm | hm
      · exact hplain m hm
      · exact hextras m hm
    have hdecoded := hdecode ms (h.shows hsub hnames)
    unfold decodeText
    rw [Json.read_compact hms, Json.read_pretty hms]
    exact ⟨hdecoded, hdecoded⟩

section Kinds

theorem entry_names (e : Entry) : ((members (entry e)).map Prod.fst).Sublist entryNames := by
  cases hstop : e.stop <;>
    simp only [members, entry, entryMembers, stopMember, hstop, List.map_append, List.map_cons,
      List.map_nil] <;>
    decide

theorem restores_entry {e : Entry} (h : Word.fits e.duration = true) :
    Restores entryNames entry entry? e :=
  restores_of_shows rfl (by decide) (entry_names e) (isPlain_entry h) fun _ => entry?_of_shows h

theorem restores_newEntry {n : NewEntry} (h : ∀ k ∈ n.duration, Word.fits k = true) :
    Restores newEntryNames newEntry newEntry? n :=
  restores_of_shows rfl (by decide) (List.Sublist.refl newEntryNames) (isPlain_newEntry h)
    fun _ => newEntry?_of_shows h

theorem restores_fields (f : EntryFields) : Restores fieldNames fields fields? f :=
  restores_of_shows rfl (by decide) (List.Sublist.refl fieldNames) (isPlain_fields f)
    fun _ => fields?_of_shows

theorem restores_patch (p : Patch) : Restores patchNames patch patch? p :=
  restores_of_shows rfl (by decide) (List.Sublist.refl patchNames) (isPlain_patch p)
    fun _ => patch?_of_shows

theorem restores_policy (p : Policy) : Restores policyNames policy policy? p :=
  restores_of_shows rfl (by decide) (List.Sublist.refl policyNames) (isPlain_policy p)
    fun _ => policy?_of_shows

theorem restores_task {t : Task} (h : Word.fits t.trackedSeconds = true) :
    Restores taskNames task task? t :=
  restores_of_shows rfl (by decide) (List.Sublist.refl taskNames) (isPlain_task h)
    fun _ => task?_of_shows h

end Kinds

theorem exchange_restores :
    (∀ e : Entry, Word.fits e.duration = true → Restores entryNames entry entry? e) ∧
    (∀ n : NewEntry, (∀ k ∈ n.duration, Word.fits k = true) →
      Restores newEntryNames newEntry newEntry? n) ∧
    (∀ f : EntryFields, Restores fieldNames fields fields? f) ∧
    (∀ p : Patch, Restores patchNames patch patch? p) ∧
    (∀ p : Policy, Restores policyNames policy policy? p) ∧
    ∀ t : Task, Word.fits t.trackedSeconds = true → Restores taskNames task task? t :=
  ⟨fun _ => restores_entry, fun _ => restores_newEntry, restores_fields, restores_patch,
    restores_policy, fun _ => restores_task⟩

def distantEntry : Entry where
  id := ⟨.ofNat 1⟩
  description := "say \"yes\"\n\\"
  user := ⟨.ofNat 2⟩
  workspace := ⟨.ofNat 3⟩
  project := .absent
  task := ⟨.ofNat 4⟩
  billable := true
  start := .earliest
  stop := some ⟨253402387199, 1000000001, by decide, by decide, by decide, by decide⟩
  duration := Word.smallest
  createdWith := ""
  tags := .ofList ["b", "a", "é"]
  durationOnly := false
  created := ⟨0, 120000000, by decide, by decide, by decide, by decide⟩
  updated := ⟨0, 123456000, by decide, by decide, by decide, by decide⟩

theorem exchange_restores_distant :
    entry? (.object (("colour", .array [.float .zero]) :: (members (entry distantEntry)).reverse)) =
      some distantEntry ∧
    decodeText entry? (Json.object (("colour", .null) :: (members (entry distantEntry)).reverse)).pretty =
      some distantEntry := by
  have h := exchange_restores.1 distantEntry (by decide)
  have hwidened (x : Json) : Widened entryNames (members (entry distantEntry)) [("colour", x)]
      (("colour", x) :: (members (entry distantEntry)).reverse) := by
    have hname : "colour" ∉ entryNames := by decide
    refine ⟨List.forall_mem_singleton.mpr hname, ?_⟩
    exact ((List.reverse_perm _).cons _).trans (List.perm_append_singleton _ _).symm
  have hplain : ∀ m ∈ [("colour", Json.null)], m.2.IsPlain 126 := List.forall_mem_singleton.mpr .null
  exact ⟨h.decoded _ _ (hwidened _), (h.texts _ _ (hwidened _) (by decide) hplain).2⟩

end Timesheet.Exchange
