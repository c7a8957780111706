import Timesheet.Proofs.Insertion
import Timesheet.Proofs.Rereading

/-!
Which finished entries are taken. Main statement: an entry is stored exactly if what is supplied for it
meets a list of conditions, and is then what was supplied; otherwise nothing is stored, and the answer
is about the first condition in the list that is not met.
-/

namespace Timesheet

open Service

/-- What supplied values must meet, and what is answered about those that do not. -/
structure Condition where
  Holds : Prop
  refusal : Refusal

/-- The refusal belongs to the first condition that does not hold. -/
inductive FirstBroken : List Condition → Refusal → Prop
  | here {c : Condition} {cs : List Condition} (h : ¬c.Holds) : FirstBroken (c :: cs) c.refusal
  | later {c : Condition} {cs : List Condition} {g : Refusal} (hc : c.Holds)
      (h : FirstBroken cs g) : FirstBroken (c :: cs) g

namespace FirstBroken

variable {cs cs' : List Condition} {g : Refusal}

theorem not_forall (h : FirstBroken cs g) : ¬∀ c ∈ cs, c.Holds := by
  induction h with
  | here h => exact fun hall => h (hall _ List.mem_cons_self)
  | later hc h ih => exact fun hall => ih fun c hc => hall c (List.mem_cons_of_mem _ hc)

theorem unique {g' : Refusal} (h : FirstBroken cs g) (h' : FirstBroken cs g') : g = g' := by
  induction h with
  | here h =>
    cases h' with
    | here h' => rfl
    | later hc h' => exact absurd hc h
  | later hc h ih =>
    cases h' with
    | here h' => exact absurd hc h'
    | later hc' h' => exact ih h'

theorem append (h : FirstBroken cs g) : FirstBroken (cs ++ cs') g := by
  induction h with
  | here h => exact .here h
  | later hc h ih => exact .later hc ih

theorem of_append (hall : ∀ c ∈ cs, c.Holds) (h : FirstBroken cs' g) :
    FirstBroken (cs ++ cs') g := by
  induction cs with
  | nil => exact h
  | cons c cs ih =>
    exact .later (hall c List.mem_cons_self) (ih fun c hc => hall c (List.mem_cons_of_mem _ hc))

end FirstBroken

def Ensures {α : Type} (cs : List Condition) (x : Except Refusal α) : Prop :=
  ((∀ c ∈ cs, c.Holds) ∧ ∃ a, x = .ok a) ∨ ∃ g, FirstBroken cs g ∧ x = .error g

namespace Ensures

variable {α β : Type} {cs cs' : List Condition} {x : Except Refusal α} {f : α → Except Refusal β}

theorem bind (hx : Ensures cs x) (hf : ∀ a, x = .ok a → Ensures cs' (f a)) :
    Ensures (cs ++ cs') (x >>= f) := by
  rcases hx with ⟨hall, a, rfl⟩ | ⟨g, hg, rfl⟩
  · rcases hf a rfl with ⟨hall', b, hb⟩ | ⟨g, hg, hb⟩
    · exact .inl ⟨List.forall_mem_append.mpr ⟨hall, hall'⟩, b, hb⟩
    · exact .inr ⟨g, hg.of_append hall, hb⟩
  · exact .inr ⟨g, hg.append, rfl⟩

theorem of_ok (a : α) : Ensures [] (.ok a : Except Refusal α) :=
  .inl ⟨List.forall_mem_nil _, a, rfl⟩

theorem bind_ok (hx : Ensures cs x) (f : α → β) : Ensures cs (x >>= fun a => .ok (f a)) := by
  have h := hx.bind fun a _ => of_ok (f a)
  rwa [List.append_nil] at h

theorem single {c : Condition} (hok : c.Holds → ∃ a, x = .ok a)
    (herror : ¬c.Holds → x = .error c.refusal) : Ensures [c] x := by
  by_cases hc : c.Holds
  · exact .inl ⟨List.forall_mem_singleton.mpr hc, hok hc⟩
  · exact .inr ⟨_, .here hc, herror hc⟩

end Ensures

namespace Condition

def parses (kind : IdentifierKind) (text : String) : Condition where
  Holds := ∃ id, Identifier.parse kind text = .ok id
  refusal := .identifier ⟨kind, text⟩

def given {α : Type} (field : Field) (x : Option α) : Condition where
  Holds := x ≠ none
  refusal := .invalid (.missing field)

def notBlank (field : Field) (text : String) : Condition where
  Holds := Text.trim text ≠ ""
  refusal := .invalid (.empty field)

def notNegative (duration : Int) : Condition where
  Holds := 0 ≤ duration
  refusal := .invalid (.negativeDuration duration)

def startStorable (start : Instant) : Condition where
  Holds := start.wholeSecond.IsStorable
  refusal := .invalid (.instantOutOfRange .start start.wholeSecond)

def endStorable (start : Instant) (duration : Int) : Condition where
  Holds := start.second + duration ≤ Instant.lastStorable
  refusal := .invalid (.durationOutOfRange start.wholeSecond duration)

end Condition

section Conditions

open Condition

def nonBlank (text : Option String) : Option String :=
  (text.map Text.trim).filter fun s => s ≠ ""

def EntryFields.conditions (f : EntryFields) : List Condition :=
  [given .workspace f.workspace] ++ (f.workspace.toList.map (parses .workspace) ++
    ((nonBlank f.project).toList.map (parses .project) ++
      ((nonBlank f.task).toList.map (parses .task) ++
        ([given .createdWith f.createdWith] ++ f.createdWith.toList.map (notBlank .createdWith)))))

/-- The conditions on what is supplied for an entry, in the order in which they are looked at. -/
def NewEntry.conditions (input : NewEntry) (owner : String) : List Condition :=
  [parses .user owner] ++ (input.fields.conditions ++
    ([given .start input.start] ++ ([given .duration input.duration] ++
      (input.duration.toList.map notNegative ++ (input.start.toList.map startStorable ++
        input.start.toList.flatMap fun start =>
          input.duration.toList.map (endStorable start))))))

structure NewEntry.Fills (input : NewEntry) (owner : String) (id : EntryId) (now : Instant)
    (e : Entry) : Prop where
  id : e.id = id
  description : e.description = input.fields.description.getD ""
  user : Identifier.parse .user owner = .ok e.user
  workspace : ∃ text, input.fields.workspace = some text ∧
    Identifier.parse .workspace text = .ok e.workspace
  project : match nonBlank input.fields.project with
    | some text => Identifier.parse .project text = .ok e.project
    | none => e.project = .absent
  task : match nonBlank input.fields.task with
    | some text => Identifier.parse .task text = .ok e.task
    | none => e.task = .absent
  billable : e.billable = input.fields.billable
  start : input.start.map Instant.wholeSecond = some e.start
  duration : input.duration = some e.duration
  stop : e.start.addSeconds? e.duration = e.stop
  stops : e.stop.isSome
  createdWith : input.fields.createdWith.map Text.trim = some e.createdWith
  tags : ∀ t, t ∈ e.tags.items ↔ t ≠ "" ∧ ∃ s ∈ input.fields.tags.getD [], Text.trim s = t
  durationOnly : e.durationOnly = input.fields.durationOnly
  created : e.created = now.wholeSecond
  updated : e.updated = now.wholeSecond

end Conditions

theorem Identifier.parse_eq_error {kind : IdentifierKind} {text : String} {g : InvalidIdentifier}
    (h : parse kind text = .error g) : g = ⟨kind, text⟩ := by
  unfold parse at h
  split at h
  · cases h
  · exact (Except.error.inj h).symm

theorem Identifier.parseOptional_eq (kind : IdentifierKind) (text : Option String) :
    parseOptional kind text =
      match nonBlank text with
      | some s => parse kind s
      | none => .ok absent := by
  unfold parseOptional nonBlank
  cases text with
  | none => rfl
  | some s => by_cases h : Text.trim s = "" <;> simp [h, Option.filter]

namespace Instant

variable {i j : Instant} {d : Int}

theorem second_of_addSeconds? (hd : 0 ≤ d) (h : i.addSeconds? d = some j) :
    j.second = i.second + d := by
  rcases addSeconds?_eq_some h with ⟨rfl, rfl⟩ | ⟨hne, -, hs, -⟩ | ⟨-, -, hs, -⟩
  · omega
  · rw [hs, if_pos (by omega)]
  · exact hs

theorem exists_addSeconds? (hi : i.IsWhole) (hd : 0 ≤ d) (h : i.second + d ≤ lastSecond) :
    ∃ j, i.addSeconds? d = some j := by
  have hfirst := i.first_le
  have hsome (hpos : 0 < nanosPerSecond) : ∃ j, of? (i.second + d) 0 = some j := by
    refine ⟨_, dif_pos ⟨by omega, h, by omega, fun h => by omega⟩⟩
  obtain ⟨j, hj⟩ := hsome (by decide)
  unfold addSeconds?
  by_cases hzero : d = 0
  · exact ⟨i, if_pos hzero⟩
  · rw [if_neg hzero]
    by_cases hleap : i.isLeap
    · have hnano : i.nano = nanosPerSecond :=
        hi.resolve_left fun h => (not_isLeap_iff hi).mpr h hleap
      rw [if_pos hleap, if_pos (by omega), hnano, Nat.sub_self]
      exact ⟨j, hj⟩
    · rw [if_neg hleap, (not_isLeap_iff hi).mp hleap]
      exact ⟨j, hj⟩

end Instant

namespace Entry

variable {start : Instant} {duration : Int}

theorem endOf_reaches (hwhole : start.IsWhole) (hstart : start.IsStorable) (hd : 0 ≤ duration)
    (hend : start.second + duration ≤ Instant.lastStorable) :
    ∃ stop, endOf start duration = .ok stop := by
  have hlast : Instant.lastStorable ≤ Instant.lastSecond := by decide
  obtain ⟨stop, hadd⟩ := Instant.exists_addSeconds? hwhole hd (hend.trans hlast)
  have hsecond := Instant.second_of_addSeconds? hd hadd
  exact ⟨stop, endOf_eq_ok.mpr ⟨hadd, by rw [hsecond]; have := hstart.1; omega, hsecond ▸ hend⟩⟩

theorem endOf_exceeds (hd : 0 ≤ duration)
    (hend : Instant.lastStorable < start.second + duration) :
    endOf start duration = .error (.durationOutOfRange start duration) := by
  unfold endOf
  cases hadd : start.addSeconds? duration with
  | none => rfl
  | some stop =>
    have hsecond := Instant.second_of_addSeconds? hd hadd
    have hstop : ¬stop.IsStorable := fun h => by have := h.2; omega
    simp only [hstop, ↓reduceIte]

end Entry

namespace Ensures

theorem given {α : Type} (field : Field) (x : Option α) :
    Ensures [.given field x] (require field x) := by
  apply single
  · intro hx
    obtain ⟨a, rfl⟩ := Option.ne_none_iff_exists'.mp hx
    exact ⟨a, rfl⟩
  · intro hx
    obtain rfl := not_not.mp hx
    rfl

theorem parses (kind : IdentifierKind) (text : String) :
    Ensures [.parses kind text] (readIdentifier (Identifier.parse kind text)) := by
  apply single
  · rintro ⟨id, hid⟩
    exact ⟨id, mapError_eq_ok.mpr hid⟩
  · intro hnone
    cases hid : Identifier.parse kind text with
    | ok id => exact absurd ⟨id, hid⟩ hnone
    | error g =>
      obtain rfl := Identifier.parse_eq_error hid
      rfl

theorem parsesOptional (kind : IdentifierKind) (text : Option String) :
    Ensures ((nonBlank text).toList.map (.parses kind))
      (readIdentifier (Identifier.parseOptional kind text)) := by
  rw [Identifier.parseOptional_eq]
  cases nonBlank text with
  | none => exact of_ok _
  | some s => exact parses kind s

theorem notBlank (field : Field) (text : Option String) :
    Ensures ([.given field text] ++ text.toList.map (.notBlank field)) (requireText field text) := by
  apply (given field text).bind
  intro s hs
  obtain rfl := require_eq_ok.mp hs
  apply single
  · intro h
    exact ⟨Text.trim s, if_neg h⟩
  · intro h
    exact if_pos (not_not.mp h)

theorem validate (f : EntryFields) : Ensures f.conditions f.validate := by
  apply (given .workspace f.workspace).bind
  intro text htext
  rw [require_eq_ok.mp htext]
  apply (parses .workspace text).bind
  intro workspace _
  apply (parsesOptional .project f.project).bind
  intro project _
  apply (parsesOptional .task f.task).bind
  intro task _
  exact (notBlank .createdWith f.createdWith).bind_ok _

theorem finished (id : EntryId) (user : UserId) (details : EntryDetails) (start now : Instant)
    (duration : Int) :
    Ensures [.notNegative duration, .startStorable start, .endStorable start duration]
      ((Entry.finished id user details start duration now).mapError .invalid) := by
  by_cases hd : 0 ≤ duration
  · have hguard : ¬duration < 0 := by omega
    by_cases hstart : start.wholeSecond.IsStorable
    · by_cases hend : start.second + duration ≤ Instant.lastStorable
      · left
        obtain ⟨stop, hstop⟩ := Entry.endOf_reaches start.wholeSecond_isWhole hstart hd
          (start.wholeSecond_second.symm ▸ hend)
        obtain ⟨hadd, hstorable⟩ := Entry.endOf_eq_ok.mp hstop
        refine ⟨?_, _, mapError_eq_ok.mpr
          (Entry.finished_eq_ok.mpr ⟨hd, hstart, stop, hstorable, hadd, rfl⟩)⟩
        simp only [List.forall_mem_cons]
        exact ⟨hd, hstart, hend, List.forall_mem_nil _⟩
      · right
        have hexceeds : Entry.endOf start.wholeSecond duration =
            .error (.durationOutOfRange start.wholeSecond duration) :=
          Entry.endOf_exceeds hd (by rw [Instant.wholeSecond_second]; omega)
        refine ⟨_, .later hd (.later hstart (.here hend)), mapError_eq_error.mpr ⟨_, ?_, rfl⟩⟩
        rw [Entry.finished, if_neg hguard, storable, if_pos hstart]
        exact bind_eq_error.mpr (.inr ⟨_, rfl, bind_eq_error.mpr (.inl hexceeds)⟩)
    · refine .inr ⟨_, .later hd (.here hstart), ?_⟩
      rw [Entry.finished, if_neg hguard, storable, if_neg hstart]
      rfl
  · refine .inr ⟨_, .here hd, ?_⟩
    rw [Entry.finished, if_pos (by omega)]
    rfl

theorem entry (input : NewEntry) (owner : String) (id : EntryId) (now : Instant) :
    Ensures (input.conditions owner) (do
      let user ← readIdentifier (Identifier.parse .user owner)
      input.entry id user now) := by
  apply (parses .user owner).bind
  intro user _
  apply (validate input.fields).bind
  intro details _
  apply (given .start input.start).bind
  intro start hstart
  apply (given .duration input.duration).bind
  intro duration hduration
  rw [require_eq_ok.mp hstart, require_eq_ok.mp hduration]
  exact finished id user details start now duration

end Ensures

namespace TagSet

variable {t : String}

theorem mem_put {s : TagSet} {a : String} : t ∈ (s.put a).items ↔ t = a ∨ t ∈ s.items := by
  constructor
  · exact Shelf.mem_place
  · rintro (rfl | h)
    · exact Shelf.mem_put_self s t
    · by_cases hne : t = a
      · exact hne ▸ Shelf.mem_put_self s a
      · exact Shelf.mem_put_of_ne hne h

theorem mem_foldl_put (tags : List String) (s : TagSet) :
    t ∈ (tags.foldl Shelf.put s).items ↔ t ∈ tags ∨ t ∈ s.items := by
  induction tags generalizing s with
  | nil => simp
  | cons a tags ih =>
    rw [List.foldl_cons, ih, mem_put, List.mem_cons]
    tauto

theorem mem_normalize {tags : List String} :
    t ∈ (normalize tags).items ↔ t ≠ "" ∧ ∃ s ∈ tags, Text.trim s = t := by
  unfold normalize ofList
  rw [mem_foldl_put]
  simp [Shelf.empty, and_comm]

end TagSet

theorem EntryFields.validate_eq_ok {f : EntryFields} {details : EntryDetails}
    (h : f.validate = .ok details) : ∃ workspace createdWith,
      f.workspace = some workspace ∧
        Identifier.parse .workspace workspace = .ok details.workspace ∧
        Identifier.parseOptional .project f.project = .ok details.project ∧
        Identifier.parseOptional .task f.task = .ok details.task ∧
        f.createdWith = some createdWith ∧
        details = {
          details with
          description := f.description.getD ""
          billable := f.billable
          createdWith := Text.trim createdWith
          tags := TagSet.normalize (f.tags.getD [])
          durationOnly := f.durationOnly } := by
  unfold validate requireText readIdentifier at h
  simp only [bind_eq_ok, mapError_eq_ok, require_eq_ok] at h
  obtain ⟨workspace, hworkspace, workspace', hparsed, project, hproject, task, htask, label,
    ⟨createdWith, hcreatedWith, hlabel⟩, ⟨⟩⟩ := h
  refine ⟨workspace, createdWith, hworkspace, hparsed, hproject, htask, hcreatedWith, ?_⟩
  split at hlabel
  · cases hlabel
  · obtain ⟨⟩ := hlabel
    rfl

theorem Identifier.named_or_absent {kind : IdentifierKind} {text : Option String}
    {id : Identifier kind} (h : parseOptional kind text = .ok id) :
    match nonBlank text with
    | some s => parse kind s = .ok id
    | none => id = absent := by
  rw [parseOptional_eq] at h
  cases hs : nonBlank text with
  | some s => simpa [hs] using h
  | none => simpa [hs, eq_comm] using h

theorem NewEntry.fills {input : NewEntry} {owner : String} {id : EntryId} {user : UserId}
    {now : Instant} {e : Entry} (howner : Identifier.parse .user owner = .ok user)
    (h : input.entry id user now = .ok e) : input.Fills owner id now e := by
  obtain ⟨details, start, duration, hfields, hstart, hduration, hfinished⟩ := entry_eq_ok.mp h
  obtain ⟨-, -, stop, -, hadd, rfl⟩ := Entry.finished_eq_ok.mp hfinished
  obtain ⟨workspace, createdWith, hworkspace, hparsed, hproject, htask, hcreatedWith, hdetails⟩ :=
    EntryFields.validate_eq_ok hfields
  exact {
    id := rfl
    description := congrArg EntryDetails.description hdetails
    user := howner
    workspace := ⟨workspace, hworkspace, hparsed⟩
    project := Identifier.named_or_absent hproject
    task := Identifier.named_or_absent htask
    billable := congrArg EntryDetails.billable hdetails
    start := congrArg (Option.map Instant.wholeSecond) hstart
    duration := hduration
    stop := hadd
    stops := rfl
    createdWith := by
      rw [hcreatedWith]
      exact congrArg some (congrArg EntryDetails.createdWith hdetails).symm
    tags t := by
      rw [← TagSet.mem_normalize]
      exact iff_of_eq (congrArg (t ∈ ·.tags.items) hdetails)
    durationOnly := congrArg EntryDetails.durationOnly hdetails
    created := rfl
    updated := rfl }

theorem Entry.hasPlainInstants_finished {id : EntryId} {user : UserId} {details : EntryDetails}
    {start now : Instant} {duration : Int} {e : Entry} (hnow : now.IsStorable)
    (h : finished id user details start duration now = .ok e) : e.HasPlainInstants := by
  intro i hi
  rcases (finished_writtenAt h).instants i hi with rfl | hplain | ⟨e₀, ⟨⟩, -⟩
  · exact ⟨now.wholeSecond_isWhole, Instant.wholeSecond_isStorable.mpr hnow⟩
  · exact hplain

section Stores

variable {σ τ : Type} [Store σ] {policy : Policy} {input : NewEntry} {owner : String}
  {now : Instant} {d : Desk σ}

theorem Request.create_refused {g : Refusal} (h : (do
      let user ← readIdentifier (Identifier.parse .user owner)
      input.entry d.ids.next user now) = .error g) :
    (((Request.create input owner now).program policy).run d).1 = .entry (.error (.refused g)) ∧
      (((Request.create input owner now).program policy).run d).2.store = d.store := by
  have hnot {old new : Option Entry} (hmade : (create input owner now).Makes policy d old new) :
      False := by
    cases hmade with
    | create howner hentry =>
      rw [howner] at h
      cases hentry.symm.trans h
    | edit hr => cases hr
  have hsame {f : ServiceFault} (hf : (create input owner now).Fails policy d f) :
      f = .refused g := by
    cases hf with
    | unowned hr howner =>
      obtain ⟨⟩ := hr
      rw [howner] at h
      obtain ⟨⟩ := h
      rfl
    | uncreated howner hentry =>
      rw [howner] at h
      obtain ⟨⟩ := hentry.symm.trans h
      rfl
    | uninserted hmade => exact (hnot hmade).elim
    | unsaved hmade => exact (hnot hmade).elim
    | unnamed hr => cases hr
    | unloaded hr => cases hr
    | unedited hr => cases hr
  have hop : (create input owner now).operation? policy = some (Service.create input owner now) :=
    rfl
  rw [program_of_operation? hop, Program.run_map]
  cases performed (d := d) hop (fun i hi => (Option.some.inj hi).symm) with
  | failed hf hran hstore hquiet =>
    obtain rfl := hsame hf
    rw [hran.run]
    exact ⟨rfl, hstore⟩
  | kept hmade he h hsame hquiet hran => exact (hnot hmade).elim
  | synced hmade he h htasks hprojects hsync ha hran => exact (hnot hmade).elim

/-- What becomes of an entry that is to be created, in a store with a table of entries. -/
structure Admits (V : EntryView σ τ) (policy : Policy) (input : NewEntry) (owner : String)
    (now : Instant) (d : Desk σ) : Prop where
  stored : (∀ c ∈ input.conditions owner, c.Holds) →
    ∃ e, input.Fills owner d.ids.next now e ∧
      ((((Request.create input owner now).program policy).run d).1 = .entry (.ok e) ∨
        ∃ cause, (((Request.create input owner now).program policy).run d).1 =
          .entry (.error (.stale e.id cause))) ∧
      V.entries (((Request.create input owner now).program policy).run d).2.store =
        V.put e (V.entries d.store) ∧
      Store.fetch (((Request.create input owner now).program policy).run d).2.store e.id = .ok e
  refused : (¬∀ c ∈ input.conditions owner, c.Holds) →
    ∃ g, FirstBroken (input.conditions owner) g ∧
      (((Request.create input owner now).program policy).run d).1 = .entry (.error (.refused g)) ∧
      (((Request.create input owner now).program policy).run d).2.store = d.store

theorem admits_of_inserts (V : EntryView σ τ)
    (h : ∀ e : Entry, e.id = d.ids.next → (now.IsStorable → e.HasPlainInstants) →
      (∃ s, Store.insert d.store e = .ok s) ∧
        ∀ t, V.entries t = V.put e (V.entries d.store) → Store.fetch t e.id = .ok e) :
    Admits V policy input owner now d := by
  rcases Ensures.entry input owner d.ids.next now with ⟨hall, e, hentry⟩ | ⟨g, hg, hentry⟩
  · refine ⟨fun _ => ?_, fun hnot => absurd hall hnot⟩
    obtain ⟨user, hparsed, hmake⟩ := bind_eq_ok.mp hentry
    have howner := mapError_eq_ok.mp hparsed
    have hfills := NewEntry.fills howner hmake
    obtain ⟨details, start, duration, -, -, -, hfinished⟩ := NewEntry.entry_eq_ok.mp hmake
    obtain ⟨⟨s, hinsert⟩, hfetch⟩ :=
      h e hfills.id fun hnow => Entry.hasPlainInstants_finished hnow hfinished
    have hmade : (Request.create input owner now).Makes policy d none (some e) :=
      .create howner hmake
    obtain ⟨hreply, hentries⟩ := V.add_answered hmade hinsert
    exact ⟨e, hfills, hreply, hentries, hfetch _ hentries⟩
  · exact ⟨fun hall => absurd hall hg.not_forall,
      fun _ => ⟨g, hg, Request.create_refused hentry⟩⟩

end Stores

theorem Condition.endStorable_words {start : Instant} {duration : Int} (hstart : start.IsStorable)
    (hd : 0 ≤ duration) :
    (Word.largest / 1000 < duration → ¬(endStorable start duration).Holds) ∧
      (duration ≤ Word.largest / 1000 →
        Word.fits (1000 * duration) ∧ Word.fits (start.second + duration)) := by
  have hlow : -62167219200 ≤ start.second := hstart.1
  have hhigh : start.second ≤ 253402300799 := hstart.2
  have hsmallest : Word.smallest = -9223372036854775808 := rfl
  have hlargest : Word.largest = 9223372036854775807 := rfl
  constructor
  · intro h hend
    have hend : start.second + duration ≤ 253402300799 := hend
    omega
  · intro h
    exact ⟨Word.fits_of_bounds (by omega) (by omega), Word.fits_of_bounds (by omega) (by omega)⟩

theorem create_admits (policy : Policy) (input : NewEntry) (owner : String) (now : Instant) :
    (∀ d : Desk Memory, Admits Memory.view policy input owner now d) ∧
    (now.IsStorable → ∀ d : Desk Database,
      d.store.entries.find? (.named d.ids.next.text) = none →
        Admits Database.view policy input owner now d) ∧
    ∀ start duration, Instant.IsStorable start → 0 ≤ duration →
      (Word.largest / 1000 < duration → ¬(Condition.endStorable start duration).Holds) ∧
        (duration ≤ Word.largest / 1000 →
          Word.fits (1000 * duration) ∧ Word.fits (start.second + duration)) := by
  refine ⟨fun d => ?_, fun hnow d hlacks => ?_, fun start duration => Condition.endStorable_words⟩
  · exact admits_of_inserts Memory.view fun e _ _ => ⟨⟨_, rfl⟩, fun t => Memory.fetch_of_put⟩
  · refine admits_of_inserts Database.view fun e hid hplain => ⟨?_, fun t ht => ?_⟩
    · exact ⟨_, Database.insert_eq_ok.mpr ⟨hid ▸ hlacks, rfl⟩⟩
    · exact Database.fetch_of_put ht (EntryRow.ofEntry_denotes_self.mpr (hplain hnow))

def lastSecond : Instant :=
  .ofSecond 253402300799 (by decide)

def untilEnd (duration : Int) : NewEntry where
  fields := { timerFields with createdWith := some " test ", task := some " " }
  start := some lastSecond
  duration := some duration

def untilEndChecks : List Condition :=
  [.parses .user "00000000-0000-0000-0000-000000000002",
    .given .workspace (some "00000000-0000-0000-0000-000000000003"),
    .parses .workspace "00000000-0000-0000-0000-000000000003",
    .given .createdWith (some " test "), .notBlank .createdWith " test ",
    .given .start (some lastSecond)]

theorem untilEndChecks_hold : ∀ c ∈ untilEndChecks, c.Holds := by
  simp only [untilEndChecks, List.forall_mem_cons]
  exact ⟨⟨⟨.ofNat 2⟩, by decide +kernel⟩, nofun, ⟨⟨.ofNat 3⟩, by decide +kernel⟩, nofun,
    (by decide +kernel : Text.trim " test " ≠ ""), nofun, List.forall_mem_nil _⟩

theorem nonBlank_untilEnd (n : Int) : nonBlank (untilEnd n).fields.task = none := by
  change nonBlank (some " ") = none
  decide +kernel

theorem conditions_untilEnd (n : Int) :
    (untilEnd n).conditions "00000000-0000-0000-0000-000000000002" =
      untilEndChecks ++ [.given .duration (some n), .notNegative n, .startStorable lastSecond,
        .endStorable lastSecond n] := by
  simp only [NewEntry.conditions, EntryFields.conditions, nonBlank_untilEnd]
  rfl

theorem create_admits_lastSecond :
    (∃ e : Entry, e.createdWith = "test" ∧ e.task = .absent ∧ e.stop = some lastSecond ∧
      Store.fetch (((Request.create (untilEnd 0) "00000000-0000-0000-0000-000000000002"
        .epoch).program {}).run ⟨({} : Database), .after 0⟩).2.store ⟨.ofNat 1⟩ = .ok e) ∧
    (((Request.create (untilEnd 1) "00000000-0000-0000-0000-000000000002" .epoch).program {}).run
      ⟨({} : Database), .after 0⟩).1 =
        .entry (.error (.refused (.invalid (.durationOutOfRange lastSecond 1)))) := by
  have hstart : lastSecond.wholeSecond.IsStorable := by decide
  have hadmits (n : Int) := (create_admits {} (untilEnd n) "00000000-0000-0000-0000-000000000002"
    .epoch).2.1 (by decide) ⟨{}, .after 0⟩ rfl
  constructor
  · obtain ⟨e, hfills, -, -, hfetch⟩ := (hadmits 0).stored (by
      rw [conditions_untilEnd]
      refine List.forall_mem_append.mpr ⟨untilEndChecks_hold, ?_⟩
      simp only [List.forall_mem_cons]
      exact ⟨nofun, (by decide : (0 : Int) ≤ 0), hstart,
        (by decide : lastSecond.second + 0 ≤ Instant.lastStorable), List.forall_mem_nil _⟩)
    have hid : e.id = ⟨.ofNat 1⟩ := hfills.id
    have hlabel : Text.trim " test " = e.createdWith := Option.some.inj hfills.createdWith
    have hstart : lastSecond.wholeSecond = e.start := Option.some.inj hfills.start
    have hduration : 0 = e.duration := Option.some.inj hfills.duration
    have habsent := hfills.task
    rw [nonBlank_untilEnd] at habsent
    refine ⟨e, hlabel ▸ by decide +kernel, habsent, ?_, hid ▸ hfetch⟩
    rw [← hfills.stop, ← hstart, ← hduration]
    decide
  · have hend : ¬(Condition.endStorable lastSecond 1).Holds :=
      (by decide : ¬lastSecond.second + 1 ≤ Instant.lastStorable)
    have hbroken : FirstBroken ((untilEnd 1).conditions "00000000-0000-0000-0000-000000000002")
        (.invalid (.durationOutOfRange lastSecond 1)) := by
      rw [conditions_untilEnd]
      exact .of_append untilEndChecks_hold (.later nofun (.later (by decide : (0 : Int) ≤ 1)
        (.later hstart (.here hend))))
    obtain ⟨g, hg, hreply, -⟩ := (hadmits 1).refused hbroken.not_forall
    rw [hreply, hg.unique hbroken]

end Timesheet
