import Timesheet.Proofs.Admission
import Timesheet.Proofs.Patching
import Timesheet.Proofs.Rereading
import Timesheet.Proofs.Table
import Timesheet.Proofs.Trimming

/-!
Tags as sets. Main statement: a session stores no tag that is blank or has blanks around it, unless
there was one; and an edit adds or removes the set of what is left of the supplied texts when they are
trimmed, so that edits of one entry compose as operations on sets.
-/

namespace Timesheet

open Service

/-- What is left of one of the texts, unless that one is blank. -/
def Supplies (texts : List String) (t : String) : Prop :=
  t ≠ "" ∧ ∃ s ∈ texts, Text.trim s = t

def TagMode.Leaves (mode : TagMode) (old supplied : Prop) : Prop :=
  match mode with
  | add => old ∨ supplied
  | remove => old ∧ ¬supplied

def IsTag (t : String) : Prop :=
  t ≠ "" ∧ Text.IsTrimmed t.toList

variable {X Y : List String} {mode mode' : TagMode}

instance (t : String) : Decidable (IsTag t) :=
  decidable_of_iff (t ≠ "" ∧ Text.trim t = t) (and_congr_right fun _ => Text.trim_eq_self_iff)

theorem supplies_iff {t : String} : Supplies X t ↔ t ∈ (TagSet.normalize X).items :=
  TagSet.mem_normalize.symm

theorem isTag_of_supplies {t : String} (h : Supplies X t) : IsTag t := by
  obtain ⟨hne, s, -, rfl⟩ := h
  refine ⟨hne, ?_⟩
  rw [Text.trim_toList]
  exact Text.isTrimmed_trimmed _

namespace TagSet

variable {s u : TagSet} {t : String}

theorem contains_iff : s.contains t = true ↔ t ∈ s.items := by
  rw [Shelf.contains, Option.isSome_iff_exists]
  constructor
  · rintro ⟨a, ha⟩
    obtain ⟨hmem, rfl⟩ := Shelf.find?_eq_some.mp ha
    exact hmem
  · exact fun h => ⟨t, Shelf.find?_eq_some.mpr ⟨h, rfl⟩⟩

theorem mem_apply :
    t ∈ (mode.apply s (normalize X)).items ↔ mode.Leaves (t ∈ s.items) (Supplies X t) := by
  cases mode with
  | add => exact (mem_foldl_put _ s).trans (Or.comm.trans (or_congr_right supplies_iff.symm))
  | remove =>
    have hnot : (!(normalize X).contains t) = true ↔ ¬Supplies X t := by
      rw [Bool.not_eq_true', ← Bool.not_eq_true, contains_iff, supplies_iff]
    exact List.mem_filter.trans (and_congr_right fun _ => hnot)

theorem normalize_congr (h : ∀ t, Supplies X t ↔ Supplies Y t) : normalize X = normalize Y :=
  Shelf.ext_mem fun t => supplies_iff.symm.trans ((h t).trans supplies_iff)

theorem apply_again :
    mode.apply (mode.apply s (normalize X)) (normalize X) = mode.apply s (normalize X) := by
  apply Shelf.ext_mem
  intro t
  rw [mem_apply, mem_apply]
  cases mode <;> simp only [TagMode.Leaves] <;> tauto

theorem apply_comm (h : ∀ t, Supplies X t → ¬Supplies Y t) :
    mode'.apply (mode.apply s (normalize X)) (normalize Y) =
      mode.apply (mode'.apply s (normalize Y)) (normalize X) := by
  apply Shelf.ext_mem
  intro t
  have hdisjoint := h t
  simp only [mem_apply]
  cases mode <;> cases mode' <;> simp only [TagMode.Leaves] <;> tauto

def AreTrimmed (s : TagSet) : Prop :=
  ∀ t ∈ s.items, IsTag t

theorem areTrimmed_normalize (X : List String) : (normalize X).AreTrimmed :=
  fun _ ht => isTag_of_supplies (supplies_iff.mpr ht)

theorem AreTrimmed.apply (h : s.AreTrimmed) (X : List String) (mode : TagMode) :
    (mode.apply s (normalize X)).AreTrimmed := by
  intro t ht
  have hleft := mem_apply.mp ht
  cases mode with
  | add => exact hleft.elim (h t) isTag_of_supplies
  | remove => exact h t hleft.1

end TagSet

section Sessions

variable {σ κ ρ : Type} [Store σ] [KeyOrder κ] [DecidableEq κ] {key : ρ → κ} {policy : Policy}
  {d : Desk σ} {r : Request}

theorem EntryFields.areTrimmed_validate {f : EntryFields} {details : EntryDetails}
    (h : f.validate = .ok details) : details.tags.AreTrimmed := by
  obtain ⟨workspace, createdWith, -, -, -, -, -, hdetails⟩ := validate_eq_ok h
  rw [hdetails]
  exact TagSet.areTrimmed_normalize _

theorem NewEntry.areTrimmed_entry {input : NewEntry} {id : EntryId} {user : UserId} {now : Instant}
    {e : Entry} (h : input.entry id user now = .ok e) : e.tags.AreTrimmed := by
  unfold NewEntry.entry at h
  simp only [bind_eq_ok, mapError_eq_ok] at h
  obtain ⟨details, hdetails, start, -, duration, -, hentry⟩ := h
  obtain ⟨-, -, stop, -, -, rfl⟩ := Entry.finished_eq_ok.mp hentry
  exact EntryFields.areTrimmed_validate hdetails

theorem Entry.PatchedTo.areTrimmed {e e' : Entry} {p : Patch} {now : Instant}
    (h : e.PatchedTo p now e') (he : e.tags.AreTrimmed) : e'.tags.AreTrimmed := by
  rw [h.tags]
  cases p.tags with
  | none => exact he
  | some tags => exact TagSet.areTrimmed_normalize tags

theorem Request.Makes.areTrimmed {old : Option Entry} {e' : Entry} (h : r.Makes policy d old (some e'))
    (hd : ∀ id e, Store.fetch d.store id = .ok e → e.tags.AreTrimmed) : e'.tags.AreTrimmed := by
  cases h with
  | create howner h => exact NewEntry.areTrimmed_entry h
  | start howner hfields hfree => exact EntryFields.areTrimmed_validate hfields
  | @edit _ _ _ _ e _ hr hid hfetch h =>
    have he := hd _ e hfetch
    cases r <;> cases hr
    · obtain ⟨-, -, rfl⟩ := Entry.stopAt_eq_ok.mp (mapError_eq_ok.mp h)
      exact he
    · exact (Entry.applyPatch_eq_ok_iff.mp h).areTrimmed he
    · obtain ⟨⟩ := h
      exact he.apply _ _

theorem EntryTable.session_trimmed (T : EntryTable σ key) {P : ρ → Prop}
    (hread : ∀ x e, P x → T.Reads x e → e.tags.AreTrimmed)
    (hwrite : ∀ e, e.tags.AreTrimmed → P (T.write e)) (policy : Policy) (rs : List Request)
    (hd : (T.entries d.store).Holds P) :
    (T.entries ((session policy rs).run d).2.store).Holds P := by
  refine T.session_keeps_entries (I := fun t => t.Holds P) (C := fun _ => True)
    (fun {d q old new} _ hmade hd => ?_) (fun _ _ _ _ => trivial) hd
  match new, hmade with
  | some e', hmade =>
    have he' : e'.tags.AreTrimmed := hmade.areTrimmed fun id e hfetch => by
      obtain ⟨x, hx, hreads⟩ := T.reads_of_fetch hfetch
      exact hread x e (hd.of_find? hx) hreads
    change (T.put e' _).Holds P
    rw [T.put_eq]
    exact hd.put (hwrite e' he')
  | none, .delete hid hfetch =>
    change (T.erase _ _).Holds P
    rw [T.erase_eq]
    exact hd.erase _

end Sessions

namespace EntryRow

def ShowsTrimmed (r : EntryRow) : Prop :=
  ∀ tags, Json.readStrings r.tags = .ok tags → ∀ t ∈ tags, IsTag t

theorem showsTrimmed_ofEntry {e : Entry} (h : e.tags.AreTrimmed) : (ofEntry e).ShowsTrimmed := by
  intro tags htags
  obtain ⟨⟩ := (Json.readStrings_compact e.tags.items).symm.trans htags
  exact h

theorem ShowsTrimmed.of_denotes {r : EntryRow} {e : Entry} (h : r.ShowsTrimmed) (hr : r.Denotes e) :
    e.tags.AreTrimmed := by
  obtain ⟨tags, htags, heq⟩ := hr.tags
  intro t ht
  rw [← heq, TagSet.ofList, TagSet.mem_foldl_put] at ht
  exact h tags htags t (ht.resolve_right (List.not_mem_nil))

end EntryRow

namespace Entry

variable {e : Entry} {now later : Instant}

theorem editTags_again :
    (e.editTags X mode now).editTags X mode now = e.editTags X mode now := by
  unfold editTags
  rw [TagSet.apply_again]

theorem editTags_comm (h : ∀ t, Supplies X t → ¬Supplies Y t) :
    (e.editTags X mode now).editTags Y mode' later =
      (e.editTags Y mode' now).editTags X mode later := by
  unfold editTags
  rw [TagSet.apply_comm h]

theorem wholeSeconds_editTags :
    (e.editTags X mode now).wholeSeconds = e.wholeSeconds.editTags X mode now := by
  have hclock : now.wholeSecond.wholeSecond = now.wholeSecond :=
    Instant.wholeSecond_of_isWhole (Instant.wholeSecond_isWhole now)
  unfold wholeSeconds editTags
  simp only [hclock]

end Entry

theorem EntryRow.ofEntry_wholeSeconds (e : Entry) : ofEntry e.wholeSeconds = ofEntry e := by
  unfold ofEntry Entry.wholeSeconds
  simp only [Instant.stamp_wholeSecond, Option.map_map]
  congr 2
  funext i
  exact Instant.stamp_wholeSecond i

structure RereadView (σ τ : Type) [Store σ] extends EntryView σ τ where
  Lasts : Entry → Prop
  seen : Entry → Entry
  fetch_replaced {s s' : σ} {e x : Entry} (h : Store.replace s e = .ok s') :
    Store.fetch s' e.id = .ok x ↔ Lasts e ∧ seen e = x
  replace_replaced {s s' : σ} {e e' : Entry} (h : Store.replace s e = .ok s') (hid : e'.id = e.id) :
    Store.replace s' e' = Store.replace s e'
  replace_seen (s : σ) (e : Entry) : Store.replace s (seen e) = Store.replace s e
  seen_id (e : Entry) : (seen e).id = e.id
  seen_tags (e : Entry) : (seen e).tags = e.tags
  seen_editTags (e : Entry) (X : List String) (mode : TagMode) (now : Instant) :
    seen (e.editTags X mode now) = (seen e).editTags X mode now
  lasts_of_storable {e : Entry} (h : ∀ i ∈ e.instants, i.IsStorable) : Lasts e
  lasts_congr {e e' : Entry} (h : e.instants = e'.instants) : Lasts e → Lasts e'

def Memory.rereadView : RereadView Memory (Shelf Entry.id) where
  toEntryView := Memory.view
  Lasts _ := True
  seen := id
  fetch_replaced h := by
    obtain ⟨-, rfl⟩ := replace_eq_ok.mp h
    refine found_eq_ok.trans ?_
    rw [Shelf.find?_put_self, Option.some.injEq, true_and, id_eq]
  replace_replaced {m m' e e'} h hid := by
    obtain ⟨⟨old, hold⟩, rfl⟩ := replace_eq_ok.mp h
    have hput : (m.entries.put e).find? e'.id = some e := Shelf.find?_put_of_eq _ hid.symm
    rw [← hid] at hold
    change Memory.replace _ e' = Memory.replace m e'
    rw [replace_eq_ok.mpr ⟨⟨_, hput⟩, rfl⟩, replace_eq_ok.mpr ⟨⟨_, hold⟩, rfl⟩, Shelf.put_put hid]
  replace_seen _ _ := rfl
  seen_id _ := rfl
  seen_tags _ := rfl
  seen_editTags _ _ _ _ := rfl
  lasts_of_storable _ := trivial
  lasts_congr _ h := h

def Database.rereadView : RereadView Database (Shelf EntryRow.key) where
  toEntryView := Database.view
  Lasts e := ∀ i ∈ e.instants, i.IsStorable
  seen := Entry.wholeSeconds
  fetch_replaced {_ _ e _} h := by
    obtain ⟨-, rfl⟩ := replace_eq_ok.mp h
    refine fetch_eq_ok.trans (Iff.trans ?_ EntryRow.ofEntry_denotes)
    constructor
    · rintro ⟨r, hr, hdenotes⟩
      obtain rfl := Option.some.inj ((Shelf.find?_put_self _ (EntryRow.ofEntry e)).symm.trans hr)
      exact hdenotes
    · exact fun hdenotes => ⟨_, Shelf.find?_put_self _ _, hdenotes⟩
  replace_replaced {d d' e e'} h hid := by
    obtain ⟨⟨old, hold⟩, rfl⟩ := replace_eq_ok.mp h
    have hkey : (EntryRow.ofEntry e').key = (EntryRow.ofEntry e).key :=
      congrArg (fun id : EntryId => RowKey.named id.text) hid
    have hput : (d.entries.put (.ofEntry e)).find? (.named e'.id.text) = some (.ofEntry e) :=
      Shelf.find?_put_of_eq _ hkey.symm
    rw [← hid] at hold
    change Database.replace _ e' = Database.replace d e'
    rw [replace_eq_ok.mpr ⟨⟨_, hput⟩, rfl⟩, replace_eq_ok.mpr ⟨⟨_, hold⟩, rfl⟩, Shelf.put_put hkey]
  replace_seen d e := by
    change Database.replace d e.wholeSeconds = Database.replace d e
    unfold replace
    rw [EntryRow.ofEntry_wholeSeconds]
    rfl
  seen_id _ := rfl
  seen_tags _ := rfl
  seen_editTags _ _ _ _ := Entry.wholeSeconds_editTags
  lasts_of_storable h := h
  lasts_congr h := h ▸ id

section Edits

variable {σ τ : Type} [Store σ] {policy : Policy} {d : Desk σ} {a b : String} {id : EntryId} {e : Entry}
  {now later : Instant}

theorem run_updateTags (V : EntryView σ τ) (policy : Policy) (hid : Identifier.parse .entry a = .ok id)
    (hfetch : Store.fetch d.store id = .ok e) (X : List String) (mode : TagMode) (now : Instant) :
    ∃ s, Store.replace d.store (e.editTags X mode now) = .ok s ∧
      ((Request.updateTags a X mode now).program policy).run d =
        (.entry (.ok (e.editTags X mode now)), { d with store := s }) := by
  have hload := Operation.ran_addressing d .loadEntry id (.fetch id)
  simp only [Call.perform, hfetch, Except.mapError] at hload
  obtain rfl := V.id_of_fetch hfetch
  have hstored : Store.fetch d.store (e.editTags X mode now).id = .ok e := hfetch
  obtain ⟨s, hs⟩ := V.replaces hstored
  have hsave := Operation.ran_addressing d .updateEntry e.id (.replace (e.editTags X mode now))
  simp only [Call.perform, hs, changed, Except.mapError] at hsave
  refine ⟨s, hs, ?_⟩
  rw [Request.program, Program.run_map, Service.updateTags, identified_of_ok hid, pure_bind]
  have hsaved : Ran d (save (e.editTags X mode now) >>= fun _ =>
      (pure (e.editTags X mode now) : Operation Entry)).run (.ok (e.editTags X mode now))
      { d with store := s } _ :=
    Operation.ran_bind_ok hsave (Operation.ran_ok _ _)
  have hrun := Operation.ran_bind_ok (f := fun e => save (e.editTags X mode now) >>= fun _ =>
    pure (e.editTags X mode now)) hload hsaved
  exact congrArg (Prod.map Reply.entry fun d => d) hrun.run

theorem run_updateTags_of_not_found (policy : Policy)
    (h : ∀ id e, Identifier.parse .entry a = .ok id → Store.fetch d.store id ≠ .ok e)
    (X : List String) (mode : TagMode) (now : Instant) :
    ∃ g, ((Request.updateTags a X mode now).program policy).run d = (.entry (.error g), d) := by
  rw [Request.program, Program.run_map, Service.updateTags]
  cases hid : Identifier.parse .entry a with
  | error g => exact ⟨_, rfl⟩
  | ok id =>
    cases hfetch : Store.fetch d.store id with
    | ok e => exact absurd hfetch (h id e hid)
    | error g =>
      have hload := Operation.ran_addressing d .loadEntry id (.fetch id)
      simp only [Call.perform, hfetch, Except.mapError] at hload
      exact ⟨_, congrArg (Prod.map Reply.entry fun d => d) (Operation.ran_bind_error hload).run⟩

theorem run_session_single {r : Request} {reply : Reply} {d' : Desk σ}
    (h : (r.program policy).run d = (reply, d')) : (session policy [r]).run d = ([reply], d') := by
  simp only [session, Program.run_bind, h]
  rfl

theorem run_session_pair {r r' : Request} {reply reply' : Reply} {d₁ d₂ : Desk σ}
    (h : (r.program policy).run d = (reply, d₁)) (h' : (r'.program policy).run d₁ = (reply', d₂)) :
    (session policy [r, r']).run d = ([reply, reply'], d₂) := by
  simp only [session, Program.run_bind, h, h']
  rfl

namespace RereadView

variable (V : RereadView σ τ)

theorem run_edits (policy : Policy) (hid : Identifier.parse .entry a = .ok id)
    (hid' : Identifier.parse .entry b = .ok id) (hfetch : Store.fetch d.store id = .ok e)
    (X Y : List String) (mode mode' : TagMode) (now later : Instant) :
    let e₁ := e.editTags X mode now
    let e₂ := (V.seen e₁).editTags Y mode' later
    let run := (session policy [.updateTags a X mode now, .updateTags b Y mode' later]).run d
    (V.Lasts e₁ ∧ ∃ s, Store.replace d.store e₂ = .ok s ∧
      run = ([.entry (.ok e₁), .entry (.ok e₂)], { d with store := s })) ∨
    (¬V.Lasts e₁ ∧ ∃ s g, Store.replace d.store e₁ = .ok s ∧
      run = ([.entry (.ok e₁), .entry (.error g)], { d with store := s })) := by
  intro e₁ e₂ run
  obtain ⟨s, hs, hrun⟩ := run_updateTags V.toEntryView policy hid hfetch X mode now
  have hsame : e.id = id := V.id_of_fetch hfetch
  have hagain {x : Entry} : Store.fetch s id = .ok x ↔ V.Lasts e₁ ∧ V.seen e₁ = x :=
    hsame ▸ V.fetch_replaced hs
  by_cases hlasts : V.Lasts e₁
  · have hseen : Store.fetch s id = .ok (V.seen e₁) := hagain.mpr ⟨hlasts, rfl⟩
    obtain ⟨s', hs', hrun'⟩ := run_updateTags (d := { d with store := s }) V.toEntryView policy hid'
      hseen Y mode' later
    have hid₂ : e₂.id = e₁.id := V.seen_id e₁
    exact .inl ⟨hlasts, s', (V.replace_replaced hs hid₂).symm.trans hs', run_session_pair hrun hrun'⟩
  · have hnot : ∀ id x, Identifier.parse .entry b = .ok id → Store.fetch s id ≠ .ok x := by
      intro id' x hparse hx
      obtain ⟨⟩ := hid'.symm.trans hparse
      exact hlasts (hagain.mp hx).1
    obtain ⟨g, hrun'⟩ := run_updateTags_of_not_found (d := { d with store := s }) policy hnot Y mode'
      later
    exact .inr ⟨hlasts, s, g, hs, run_session_pair hrun hrun'⟩

end RereadView

structure TagsEdited (V : EntryView σ τ) (s s' : σ) (e e' : Entry) (X : List String) (mode : TagMode)
    (now : Instant) : Prop where
  tags : ∀ t, t ∈ e'.tags.items ↔ mode.Leaves (t ∈ e.tags.items) (Supplies X t)
  rest : e' = { e with tags := e'.tags, updated := now.wholeSecond }
  entries : V.entries s' = V.put e' (V.entries s)
  reread : ∀ x, Store.fetch s' e.id = .ok x → x.tags = e'.tags
  readable : (∀ i ∈ e'.instants, i.IsStorable) → ∃ x, Store.fetch s' e.id = .ok x

/-- The laws of edits of tags. Of two edits the later one has the later reading of the clock. -/
structure EditsTags (V : EntryView σ τ) (policy : Policy) (d : Desk σ) : Prop where
  edit {a : String} {id : EntryId} {e : Entry} (hid : Identifier.parse .entry a = .ok id)
    (hfetch : Store.fetch d.store id = .ok e) (X : List String) (mode : TagMode) (now : Instant) :
    ∃ e' s, ((Request.updateTags a X mode now).program policy).run d =
        (.entry (.ok e'), { d with store := s }) ∧
      TagsEdited V d.store s e e' X mode now
  undo {a b : String} {id : EntryId} {e e₁ e₂ : Entry} {X : List String} {now later : Instant}
    {d' : Desk σ} (hid : Identifier.parse .entry a = .ok id) (hid' : Identifier.parse .entry b = .ok id)
    (hfetch : Store.fetch d.store id = .ok e)
    (h : (session policy [.updateTags a X .add now, .updateTags b X .remove later]).run d =
      ([.entry (.ok e₁), .entry (.ok e₂)], d')) :
    V.entries d'.store = V.put e₂ (V.entries d.store) ∧
      ∀ t, t ∈ e₂.tags.items ↔ t ∈ e.tags.items ∧ ¬Supplies X t
  commute {a b : String} {id : EntryId} {e₁ e₂ : Entry} {X Y : List String} {mode mode' : TagMode}
    {now later : Instant} {d' : Desk σ} (hid : Identifier.parse .entry a = .ok id)
    (hid' : Identifier.parse .entry b = .ok id) (hdisjoint : ∀ t, Supplies X t → ¬Supplies Y t)
    (h : (session policy [.updateTags a X mode now, .updateTags b Y mode' later]).run d =
      ([.entry (.ok e₁), .entry (.ok e₂)], d')) :
    ∃ e₁', (session policy [.updateTags b Y mode' now, .updateTags a X mode later]).run d =
      ([.entry (.ok e₁'), .entry (.ok e₂)], d')
  again (a : String) (X : List String) (mode : TagMode) (now : Instant) :
    ((session policy [.updateTags a X mode now, .updateTags a X mode now]).run d).2 =
      ((session policy [.updateTags a X mode now]).run d).2

namespace RereadView

variable (V : RereadView σ τ)

theorem tagsEdited {s s' : σ} (h : Store.replace s (e.editTags X mode now) = .ok s') :
    TagsEdited V.toEntryView s s' e (e.editTags X mode now) X mode now where
  tags _ := TagSet.mem_apply
  rest := rfl
  entries := V.entries_replace h
  reread x hx := by
    obtain ⟨-, rfl⟩ := (V.fetch_replaced h).mp hx
    exact V.seen_tags _
  readable hstorable := ⟨_, (V.fetch_replaced h).mpr ⟨V.lasts_of_storable hstorable, rfl⟩⟩

theorem editsTags (policy : Policy) (d : Desk σ) : EditsTags V.toEntryView policy d where
  edit hid hfetch X mode now := by
    obtain ⟨s, hs, hrun⟩ := run_updateTags V.toEntryView policy hid hfetch X mode now
    exact ⟨_, s, hrun, V.tagsEdited hs⟩
  undo {a b id e e₁ e₂ X now later d'} hid hid' hfetch h := by
    rcases V.run_edits policy hid hid' hfetch X X .add .remove now later with
      ⟨-, s, hs, hrun⟩ | ⟨-, s, g, -, hrun⟩
    · obtain ⟨⟩ := hrun.symm.trans h
      refine ⟨V.entries_replace hs, fun t => ?_⟩
      have hadded : t ∈ (V.seen (e.editTags X .add now)).tags.items ↔
          t ∈ e.tags.items ∨ Supplies X t := by
        rw [V.seen_tags]
        exact TagSet.mem_apply
      refine TagSet.mem_apply.trans ?_
      rw [TagMode.Leaves, hadded, or_and_right]
      exact or_iff_left fun h => h.2 h.1
    · cases hrun.symm.trans h
  commute {a b id e₁ e₂ X Y mode mode' now later d'} hid hid' hdisjoint h := by
    cases hfetch : Store.fetch d.store id with
    | error g =>
      obtain ⟨g, hrun⟩ := run_updateTags_of_not_found policy (d := d) (fun id' x hparse hx => by
        obtain ⟨⟩ := hid.symm.trans hparse
        cases hfetch.symm.trans hx) X mode now
      cases (run_session_pair hrun rfl).symm.trans h
    | ok e =>
      rcases V.run_edits policy hid hid' hfetch X Y mode mode' now later with
        ⟨hlasts, s, hs, hrun⟩ | ⟨-, s, g, -, hrun⟩
      · obtain ⟨⟩ := hrun.symm.trans h
        have hinstants : (e.editTags X mode now).instants = (e.editTags Y mode' now).instants := rfl
        have hlasts' := V.lasts_congr hinstants hlasts
        have hcomm : (V.seen (e.editTags Y mode' now)).editTags X mode later =
            (V.seen (e.editTags X mode now)).editTags Y mode' later := by
          rw [V.seen_editTags, V.seen_editTags, Entry.editTags_comm hdisjoint]
        rcases V.run_edits policy hid' hid hfetch Y X mode' mode now later with
          ⟨-, s', hs', hrun'⟩ | ⟨hnot, -⟩
        · rw [hcomm] at hs' hrun'
          obtain ⟨⟩ := hs.symm.trans hs'
          exact ⟨_, hrun'⟩
        · exact absurd hlasts' hnot
      · cases hrun.symm.trans h
  again a X mode now := by
    by_cases hfound : ∃ id e, Identifier.parse .entry a = .ok id ∧ Store.fetch d.store id = .ok e
    · obtain ⟨id, e, hid, hfetch⟩ := hfound
      obtain ⟨s, hs, hrun⟩ := run_updateTags V.toEntryView policy hid hfetch X mode now
      rw [run_session_single hrun]
      rcases V.run_edits policy hid hid hfetch X X mode mode now now with
        ⟨-, s', hs', hrun'⟩ | ⟨-, s', g, hs', hrun'⟩
      · rw [V.seen_editTags, Entry.editTags_again, ← V.seen_editTags, V.replace_seen] at hs'
        obtain ⟨⟩ := hs.symm.trans hs'
        rw [hrun']
      · obtain ⟨⟩ := hs.symm.trans hs'
        rw [hrun']
    · obtain ⟨g, hrun⟩ := run_updateTags_of_not_found policy (d := d)
        (fun id x hparse hx => hfound ⟨id, x, hparse, hx⟩) X mode now
      rw [run_session_single hrun, run_session_pair hrun hrun]

end RereadView

end Edits

/-- Tags are sets of trimmed texts in every store that sessions leave, if they were before; and edits of
tags work on these sets by what the supplied texts come to, and by nothing else. -/
theorem tags_edit_as_sets (policy : Policy) :
    (∀ (rs : List Request) (ids : IdSource),
      (∀ m : Memory, m.entries.Holds (fun e => ∀ t ∈ e.tags.items, IsTag t) →
        ((session policy rs).run ⟨m, ids⟩).2.store.entries.Holds fun e => ∀ t ∈ e.tags.items, IsTag t) ∧
      ∀ d : Database, d.entries.Holds EntryRow.ShowsTrimmed →
        ((session policy rs).run ⟨d, ids⟩).2.store.entries.Holds EntryRow.ShowsTrimmed) ∧
    (∀ (X Y : List String), (∀ t, Supplies X t ↔ Supplies Y t) → ∀ a mode now,
      (Request.updateTags a X mode now).program policy =
        (Request.updateTags a Y mode now).program policy) ∧
    (∀ d : Desk Memory, EditsTags Memory.view policy d) ∧
    ∀ d : Desk Database, EditsTags Database.view policy d := by
  refine ⟨fun rs ids => ⟨fun m hm => ?_, fun d hd => ?_⟩, fun X Y h a mode now => ?_, fun d => ?_,
    fun d => ?_⟩
  · refine Memory.table.session_trimmed (d := ⟨m, ids⟩) (fun x e hx hreads => ?_) (fun e he => he)
      policy rs hm
    obtain rfl : x = e := hreads
    exact hx
  · exact Database.table.session_trimmed (d := ⟨d, ids⟩)
      (fun x e hx hreads => EntryRow.ShowsTrimmed.of_denotes hx hreads)
      (fun e he => EntryRow.showsTrimmed_ofEntry he) policy rs hd
  · simp only [Request.program, Service.updateTags, Entry.editTags, TagSet.normalize_congr h]
  · exact Memory.rereadView.editsTags policy d
  · exact Database.rereadView.editsTags policy d

def taggedTimer : Entry :=
  { timerFrom .epoch with tags := TagSet.ofList ["a", "b"] }

def editFirst (X : List String) (mode : TagMode) : Request :=
  .updateTags "00000000-0000-0000-0000-000000000001" X mode thirdSecond

def taggedDesk : Desk Database :=
  ⟨{ entries := Shelf.empty.put (.ofEntry taggedTimer) }, .after 1⟩

theorem tags_edit_as_sets_of_timer :
    (editFirst [" c ", "b", "\u00a0", "c"] .add).program {} = (editFirst ["b", "c"] .add).program {} ∧
    (∃ e₁ e₂ d, (session {} [editFirst ["b", " c"] .add, editFirst ["b", " c"] .remove]).run taggedDesk =
        ([.entry (.ok e₁), .entry (.ok e₂)], d) ∧
      (∀ t, t ∈ e₂.tags.items ↔ t = "a") ∧ d.store.entries.Holds EntryRow.ShowsTrimmed) ∧
    ∃ e₁ e₁' e₂ d,
      (session {} [editFirst [" c"] .add, editFirst ["b"] .remove]).run taggedDesk =
        ([.entry (.ok e₁), .entry (.ok e₂)], d) ∧
      (session {} [editFirst ["b"] .remove, editFirst [" c"] .add]).run taggedDesk =
        ([.entry (.ok e₁'), .entry (.ok e₂)], d) := by
  obtain ⟨htrimmed, hsame, -, hlaws⟩ := tags_edit_as_sets {}
  have hfetch : Store.fetch taggedDesk.store ⟨.ofNat 1⟩ = .ok taggedTimer := by
    refine Database.fetch_eq_ok.mpr ⟨_, Shelf.find?_put_self _ _, EntryRow.ofEntry_denotes_self.mpr ?_⟩
    decide +kernel
  have hpair (X Y : List String) (mode mode' : TagMode) : ∃ e₁ e₂ d,
      (session {} [editFirst X mode, editFirst Y mode']).run taggedDesk =
        ([.entry (.ok e₁), .entry (.ok e₂)], d) := by
    obtain ⟨e₁, s, hrun, hedited⟩ := (hlaws taggedDesk).edit parse_first hfetch X mode thirdSecond
    have hstorable : ∀ i ∈ e₁.instants, i.IsStorable := by
      rw [hedited.rest]
      change ∀ i ∈ (taggedTimer.editTags [] .add thirdSecond).instants, i.IsStorable
      decide +kernel
    obtain ⟨x, hx⟩ := hedited.readable hstorable
    obtain ⟨e₂, s', hrun', -⟩ := (hlaws ⟨s, .after 1⟩).edit parse_first hx Y mode' thirdSecond
    exact ⟨e₁, e₂, _, run_session_pair hrun hrun'⟩
  refine ⟨hsame _ _ (fun t => ?_) _ _ _, ?_, ?_⟩
  · have hnormal : TagSet.normalize [" c ", "b", "\u00a0", "c"] = TagSet.normalize ["b", "c"] := by
      decide +kernel
    rw [supplies_iff, supplies_iff, hnormal]
  · obtain ⟨e₁, e₂, d, hrun⟩ := hpair ["b", " c"] ["b", " c"] .add .remove
    obtain ⟨-, hleft⟩ := (hlaws taggedDesk).undo parse_first parse_first hfetch hrun
    refine ⟨e₁, e₂, d, hrun, fun t => (hleft t).trans ?_, ?_⟩
    · have hold : t ∈ taggedTimer.tags.items ↔ t = "a" ∨ t = "b" := by
        rw [show taggedTimer.tags.items = ["a", "b"] by decide +kernel]
        simp
      have hsupplied : Supplies ["b", " c"] t ↔ t = "b" ∨ t = "c" := by
        rw [supplies_iff, show (TagSet.normalize ["b", " c"]).items = ["b", "c"] by decide +kernel]
        simp
      rw [hold, hsupplied]
      constructor
      · rintro ⟨rfl | rfl, hnot⟩
        · rfl
        · exact absurd (.inl rfl) hnot
      · rintro rfl
        exact ⟨.inl rfl, by decide⟩
    · have hd : taggedDesk.store.entries.Holds EntryRow.ShowsTrimmed := by
        refine Shelf.holds_empty.put (EntryRow.showsTrimmed_ofEntry ?_)
        change ∀ t ∈ taggedTimer.tags.items, IsTag t
        decide +kernel
      have h := (htrimmed [editFirst ["b", " c"] .add, editFirst ["b", " c"] .remove] (.after 1)).2 _ hd
      change ((session {} _).run taggedDesk).2.store.entries.Holds _ at h
      rwa [hrun] at h
  · obtain ⟨e₁, e₂, d, hrun⟩ := hpair [" c"] ["b"] .add .remove
    have hdisjoint : ∀ t, Supplies [" c"] t → ¬Supplies ["b"] t := by
      intro t h h'
      rw [supplies_iff] at h h'
      revert t
      decide +kernel
    obtain ⟨e₁', hrun'⟩ := (hlaws taggedDesk).commute parse_first parse_first hdisjoint hrun
    exact ⟨e₁, e₁', e₂, d, hrun, hrun'⟩

end Timesheet
