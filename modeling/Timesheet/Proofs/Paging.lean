import Timesheet.Proofs.Agreement
import Timesheet.Proofs.Range
import Timesheet.Proofs.SingleTimer

/-!
Lists that are asked for page by page. Main statement: the pages of the running entries of an owner, or
of those created in a range, are put together again the list of them, and are full until it ends.
-/

namespace Timesheet

open Service

namespace Page

variable {α β : Type}

def nth (size : Nat) (h : 1 ≤ size) (i : Nat) : Page :=
  ⟨i + 1, size, Nat.le_add_left 1 i, h⟩

theorem nth_select (size : Nat) (h : 1 ≤ size) (i : Nat) (s : List α) :
    (nth size h i).select s = (s.drop (i * size)).take size := rfl

theorem flatMap_nth_select (size : Nat) (h : 1 ≤ size) (s : List α) (k : Nat) :
    (List.range k).flatMap (fun i => (nth size h i).select s) = s.take (k * size) := by
  induction k with
  | zero => simp
  | succ k ih =>
    rw [List.range_succ, List.flatMap_append, ih, List.flatMap_singleton, nth_select,
      ← List.take_add, Nat.succ_mul]

theorem map_select (p : Page) (f : α → β) (s : List α) : (p.select s).map f = p.select (s.map f) := by
  unfold select
  rw [List.map_take, List.map_drop]

/-- The list is cut up: into pages of the same size, one that is left over, and empty ones. -/
structure CutUp (size : Nat) (listed : List α) (pages : Nat → List α) : Prop where
  joined : ∀ k, listed.length ≤ k * size → (List.range k).flatMap pages = listed
  full : ∀ i j, i < j → pages j ≠ [] → (pages i).length = size
  past : ∀ i, listed.length ≤ i * size → pages i = []
  length : ∀ i, (pages i).length = min size (listed.length - i * size)

theorem cutUp_select (size : Nat) (h : 1 ≤ size) (listed : List α) :
    CutUp size listed fun i => (nth size h i).select listed where
  joined k hk := by
    rw [flatMap_nth_select]
    exact List.take_of_length_le hk
  full i j hij hj := by
    -- Page `i` ends where page `i + 1` begins, and that is not after page `j`.
    have hlt : j * size < listed.length := by
      by_contra hle
      exact hj (by rw [nth_select, List.drop_eq_nil_of_le (not_lt.mp hle), List.take_nil])
    have hstep : (i + 1) * size ≤ j * size := Nat.mul_le_mul_right size hij
    rw [Nat.succ_mul] at hstep
    rw [nth_select, List.length_take, List.length_drop]
    omega
  past i hi := by rw [nth_select, List.drop_eq_nil_of_le hi, List.take_nil]
  length i := by rw [nth_select, List.length_take, List.length_drop]

theorem offset_lt {p : Page} (hnumber : p.number < 2 ^ 32) (hsize : p.size < 2 ^ 32) :
    p.offset < Word.count := by
  calc
    p.offset ≤ 2 ^ 32 * p.size := Nat.mul_le_mul_right _ (by omega)
    _ < 2 ^ 32 * 2 ^ 32 := Nat.mul_lt_mul_of_pos_left hsize (by decide)
    _ = Word.count := by decide

end Page

theorem Database.selectPage_eq {rows : List EntryRow} (h : rows.length ≤ Word.largestCount)
    (page : Page) : selectPage page rows = page.select rows := by
  unfold selectPage Page.select
  rw [drop_clampCount h, take_clampCount]
  rw [List.length_drop]
  omega

/-- The pages of a query cut up the list of the entries that match, which is in the order of their
identifiers and has each of them once. -/
def Paged {σ : Type} [Store σ] (policy : Policy) (query : Page → Request) (d : Desk σ)
    (Matches : Entry → Prop) : Prop :=
  ∃ listed : List Entry,
    (listed.Pairwise fun a b => KeyOrder.before a.id b.id = true) ∧
    (∀ e, e ∈ listed ↔ Matches e) ∧
    ∀ size (h : 1 ≤ size), ∃ pages, Page.CutUp size listed pages ∧
      ∀ i, ((query (Page.nth size h i)).program policy).run d = (.entries (.ok (pages i)), d)

section Queries

variable {σ : Type} [Store σ] {policy : Policy} {d : Desk σ} {listed : List Entry}
  {Matches : Entry → Prop}

theorem paged_of_select {query : Page → Request}
    (hsorted : listed.Pairwise fun a b => KeyOrder.before a.id b.id = true)
    (hmem : ∀ e, e ∈ listed ↔ Matches e)
    (hquery : ∀ page, ((query page).program policy).run d =
      (.entries (.ok (page.select listed)), d)) : Paged policy query d Matches :=
  ⟨listed, hsorted, hmem, fun size h => ⟨_, Page.cutUp_select size h listed, fun _ => hquery _⟩⟩

theorem run_running (policy : Policy) {owner : String} {user : UserId}
    (howner : Identifier.parse .user owner = .ok user) (page : Page) (d : Desk σ) :
    ((Request.running owner page).program policy).run d =
      (.entries ((Store.running d.store user page).mapError (.store .listRunning)), d) := by
  rw [Request.program, Program.run_map, Service.running, identified_of_ok howner]
  rfl

theorem run_range_of_isPlain (policy : Policy) {owner : String} {user : UserId}
    (howner : Identifier.parse .user owner = .ok user) (page : Page) {first last : Instant}
    (hfirst : first.IsPlain) (hlast : last.IsPlain) (hle : first ≤ last) (d : Desk σ) :
    ((Request.range owner page first last).program policy).run d =
      (.entries ((Store.createdBetween d.store user page first last).mapError
        (.store .listRange)), d) := by
  have hnot : ¬last < first := Instant.not_lt.mpr hle
  rw [run_range policy howner, hfirst.clampStorable, hlast.clampStorable]
  simp only [hnot, ↓reduceIte]

end Queries

section Rows

/-- The row can be read as an entry, and its identifier, owner and time of creation are spelled as
they are written. -/
structure EntryRow.Spells (r : EntryRow) (e : Entry) : Prop where
  denotes : r.Denotes e
  key : r.key = .named e.id.text
  user : r.user = e.user.text
  created : r.created = e.created.stamp

variable {r : EntryRow} {e : Entry} {rows : List EntryRow} {user : UserId} {first last : Instant}

theorem EntryRow.Spells.plain (h : r.Spells e) : e.created.IsPlain := by
  have hread := h.denotes.created
  rw [h.created] at hread
  obtain ⟨hstorable, hwhole⟩ := Instant.ofStamp?_stamp_eq_some.mp hread
  exact ⟨hwhole ▸ e.created.wholeSecond_isWhole, hstorable⟩

theorem EntryRow.Spells.between (h : r.Spells e) (hfirst : first.IsPlain) (hlast : last.IsPlain) :
    (Text.upTo first.stamp r.created && Text.upTo r.created last.stamp) =
      decide (first ≤ e.created ∧ e.created ≤ last) := by
  rw [h.created, between_stamp hfirst.2.2 hlast.2.2 h.plain, Instant.wholeSecond_of_isWhole hfirst.1]

theorem exists_entries (h : ∀ r ∈ rows, ∃ e, EntryRow.Spells r e) :
    ∃ es : List Entry, rows.map EntryRow.entry = es.map .ok ∧
      rows.map EntryRow.key = es.map fun e => .named e.id.text := by
  induction rows with
  | nil => exact ⟨[], rfl, rfl⟩
  | cons r rows ih =>
    obtain ⟨e, he⟩ := h r List.mem_cons_self
    obtain ⟨es, hentries, hkeys⟩ := ih fun r hr => h r (List.mem_cons_of_mem _ hr)
    refine ⟨e :: es, ?_, ?_⟩
    · rw [List.map_cons, List.map_cons, hentries, EntryRow.entry_eq_ok.mpr he.denotes]
    · rw [List.map_cons, List.map_cons, hkeys, he.key]

theorem mem_entries_iff {es : List Entry} (h : rows.map EntryRow.entry = es.map .ok) :
    e ∈ es ↔ ∃ r ∈ rows, r.Denotes e := by
  have hok : e ∈ es ↔ Except.ok e ∈ es.map (Except.ok (ε := DatabaseFault)) := by simp
  rw [hok, ← h, List.mem_map]
  simp only [EntryRow.entry_eq_ok]

/-- Every row of the owner, however the owner is spelled, can be read and spells its entry. -/
def Database.SpellsOut (d : Database) (user : UserId) : Prop :=
  d.entries.Holds fun r => Identifier.parse .user r.user = .ok user → ∃ e, r.Spells e

namespace Database

variable {d : Database}

theorem SpellsOut.mem_ofUser_iff (h : d.SpellsOut user) (hr : r.Denotes e) :
    r ∈ d.ofUser user ↔ r ∈ d.entries.items ∧ e.user = user := by
  unfold ofUser
  rw [List.mem_filter, decide_eq_true_eq]
  refine and_congr_right fun hmem => ?_
  constructor
  · intro huser
    have hread := hr.user
    rw [huser, Identifier.parse_text] at hread
    exact (Except.ok.inj hread).symm
  · rintro rfl
    obtain ⟨e', he'⟩ := h r hmem hr.user
    rw [he'.user, he'.denotes.unique hr]

theorem SpellsOut.exists_listed (h : d.SpellsOut user)
    (hlength : d.entries.items.length ≤ Word.largestCount) {p : EntryRow → Bool} {q : Entry → Prop}
    (hpq : ∀ r e, EntryRow.Spells r e → (p r = true ↔ q e)) :
    ∃ listed : List Entry, (listed.Pairwise fun a b => KeyOrder.before a.id b.id = true) ∧
      (∀ e, e ∈ listed ↔ (∃ r ∈ d.entries.items, r.Denotes e) ∧ e.user = user ∧ q e) ∧
      ∀ page, readRows (selectPage page ((d.ofUser user).filter p)) = .ok (page.select listed) := by
  have howner {r : EntryRow} (hr : r ∈ d.ofUser user) : ∃ e, r.Spells e := by
    obtain ⟨hmem, huser⟩ := List.mem_filter.mp hr
    rw [decide_eq_true_eq] at huser
    exact h r hmem (huser ▸ Identifier.parse_text user)
  have hspells : ∀ r ∈ (d.ofUser user).filter p, ∃ e, EntryRow.Spells r e :=
    fun r hr => howner (List.mem_filter.mp hr).1
  obtain ⟨listed, hentries, hkeys⟩ := exists_entries hspells
  refine ⟨listed, ?_, fun e => ?_, fun page => ?_⟩
  · have hascending : (((d.ofUser user).filter p).map EntryRow.key).Pairwise
        fun j k => KeyOrder.before j k = true :=
      List.pairwise_map.mpr ((d.entries.ascending.filter _).filter _)
    rw [hkeys, List.pairwise_map] at hascending
    exact hascending.imp fun {a b} hab => (named_text_keepsOrder .entry a.id b.id).symm.trans hab
  · rw [mem_entries_iff hentries]
    constructor
    · rintro ⟨r, hr, he⟩
      obtain ⟨hr, hp⟩ := List.mem_filter.mp hr
      obtain ⟨e', he'⟩ := howner hr
      obtain ⟨hmem, huser⟩ := (h.mem_ofUser_iff he).mp hr
      obtain rfl := he'.denotes.unique he
      exact ⟨⟨r, hmem, he⟩, huser, (hpq r e' he').mp hp⟩
    · rintro ⟨⟨r, hmem, he⟩, huser, hq⟩
      have hr := (h.mem_ofUser_iff he).mpr ⟨hmem, huser⟩
      obtain ⟨e', he'⟩ := howner hr
      obtain rfl := he'.denotes.unique he
      exact ⟨r, List.mem_filter.mpr ⟨hr, (hpq r e' he').mpr hq⟩, he⟩
  · have hle : ((d.ofUser user).filter p).length ≤ Word.largestCount :=
      ((List.length_filter_le _ _).trans (List.length_filter_le _ _)).trans hlength
    rw [selectPage_eq hle, readRows_eq_ok, Page.map_select, hentries, ← Page.map_select]

end Database

end Rows

section Stores

variable {owner : String} {user : UserId} {first last : Instant}

theorem Memory.paged_running (policy : Policy) (howner : Identifier.parse .user owner = .ok user)
    (d : Desk Memory) : Paged policy (.running owner) d fun e =>
      e ∈ d.store.entries.items ∧ e.user = user ∧ e.isRunning = true := by
  refine paged_of_select ((d.store.entries.ascending.filter _).filter _) (fun e => ?_) fun page =>
    run_running policy howner page d
  simp only [List.mem_filter, decide_eq_true_eq, and_assoc]

theorem Memory.paged_range (policy : Policy) (howner : Identifier.parse .user owner = .ok user)
    (hfirst : first.IsPlain) (hlast : last.IsPlain) (hle : first ≤ last) (d : Desk Memory) :
    Paged policy (fun page => .range owner page first last) d fun e =>
      e ∈ d.store.entries.items ∧ e.user = user ∧ first ≤ e.created ∧ e.created ≤ last := by
  refine paged_of_select ((d.store.entries.ascending.filter _).filter _) (fun e => ?_) fun page =>
    run_range_of_isPlain policy howner page hfirst hlast hle d
  simp only [List.mem_filter, decide_eq_true_eq, and_assoc]

theorem Database.paged_running (policy : Policy) (howner : Identifier.parse .user owner = .ok user)
    {d : Desk Database} (hlength : d.store.entries.items.length ≤ Word.largestCount)
    (h : d.store.SpellsOut user) : Paged policy (.running owner) d fun e =>
      (∃ r ∈ d.store.entries.items, r.Denotes e) ∧ e.user = user ∧ e.isRunning = true := by
  obtain ⟨listed, hsorted, hmem, hread⟩ := h.exists_listed hlength fun r e hr =>
    EntryRow.isRunningRow_iff (EntryRow.entry_eq_ok.mpr hr.denotes)
  refine paged_of_select hsorted hmem fun page => ?_
  have hanswer : Store.running d.store user page = .ok (page.select listed) := hread page
  rw [run_running policy howner, hanswer]
  rfl

theorem Database.paged_range (policy : Policy) (howner : Identifier.parse .user owner = .ok user)
    (hfirst : first.IsPlain) (hlast : last.IsPlain) (hle : first ≤ last) {d : Desk Database}
    (hlength : d.store.entries.items.length ≤ Word.largestCount) (h : d.store.SpellsOut user) :
    Paged policy (fun page => .range owner page first last) d fun e =>
      (∃ r ∈ d.store.entries.items, r.Denotes e) ∧ e.user = user ∧ first ≤ e.created ∧
        e.created ≤ last := by
  obtain ⟨listed, hsorted, hmem, hread⟩ := h.exists_listed hlength
    (p := fun r => Text.upTo first.stamp r.created && Text.upTo r.created last.stamp)
    fun r e hr => by rw [hr.between hfirst hlast, decide_eq_true_eq]
  refine paged_of_select hsorted hmem fun page => ?_
  have hanswer : Store.createdBetween d.store user page first last =
      .ok (page.select listed) := hread page
  rw [run_range_of_isPlain policy howner page hfirst hlast hle, hanswer]
  rfl

end Stores

/-- Paging loses and repeats nothing. No page that two words of 32 bits can name is out of the reach
of an offset, and holding the offset and the size at the largest count leaves every page as it is. -/
theorem queries_page (policy : Policy) {owner : String} {user : UserId} {first last : Instant}
    (howner : Identifier.parse .user owner = .ok user) (hfirst : first.IsPlain)
    (hlast : last.IsPlain) (hle : first ≤ last) :
    (∀ d : Desk Memory,
      (Paged policy (.running owner) d fun e =>
        e ∈ d.store.entries.items ∧ e.user = user ∧ e.isRunning = true) ∧
      Paged policy (fun page => .range owner page first last) d fun e =>
        e ∈ d.store.entries.items ∧ e.user = user ∧ first ≤ e.created ∧ e.created ≤ last) ∧
    (∀ d : Desk Database, d.store.entries.items.length ≤ Word.largestCount →
      d.store.SpellsOut user →
      (Paged policy (.running owner) d fun e =>
        (∃ r ∈ d.store.entries.items, r.Denotes e) ∧ e.user = user ∧ e.isRunning = true) ∧
      Paged policy (fun page => .range owner page first last) d fun e =>
        (∃ r ∈ d.store.entries.items, r.Denotes e) ∧ e.user = user ∧ first ≤ e.created ∧
          e.created ≤ last) ∧
    ∀ page : Page, page.number < 2 ^ 32 → page.size < 2 ^ 32 → page.offset < Word.count ∧
      ∀ rows : List EntryRow, rows.length ≤ Word.largestCount →
        Database.selectPage page rows = page.select rows :=
  ⟨fun d => ⟨Memory.paged_running policy howner d,
      Memory.paged_range policy howner hfirst hlast hle d⟩,
    fun _ hlength h => ⟨Database.paged_running policy howner hlength h,
      Database.paged_range policy howner hfirst hlast hle hlength h⟩,
    fun page hnumber hsize => ⟨Page.offset_lt hnumber hsize,
      fun _ hlength => Database.selectPage_eq hlength page⟩⟩

theorem firstTimer_spells : firstTimer.Spells (timerFrom .epoch) where
  denotes := firstTimer_denotes
  key := rfl
  user := rfl
  created := rfl

theorem queries_page_of_firstTimer :
    ∃ e, ((Request.running "00000000-0000-0000-0000-000000000002" .single).program {}).run
      ⟨({ entries := Shelf.empty.put firstTimer } : Database), .after 1⟩ =
        (.entries (.ok [e]), ⟨{ entries := Shelf.empty.put firstTimer }, .after 1⟩) := by
  have howner : Identifier.parse .user "00000000-0000-0000-0000-000000000002" =
      .ok ⟨.ofNat 2⟩ := by decide +kernel
  have hepoch : Instant.epoch.IsPlain := by decide
  obtain ⟨-, hdatabase, -⟩ := queries_page {} howner hepoch hepoch (by decide)
  obtain ⟨⟨listed, -, hmem, hpages⟩, -⟩ := hdatabase
    ⟨{ entries := Shelf.empty.put firstTimer }, .after 1⟩ (by decide)
    (Shelf.holds_empty.put fun _ => ⟨_, firstTimer_spells⟩)
  obtain ⟨pages, hcut, hrun⟩ := hpages 1 le_rfl
  have hlisted : timerFrom .epoch ∈ listed :=
    (hmem _).mpr ⟨⟨firstTimer, Shelf.mem_put_self _ _, firstTimer_denotes⟩, rfl, rfl⟩
  have hlength : (pages 0).length = 1 := by
    rw [hcut.length]
    have := List.length_pos_of_mem hlisted
    omega
  obtain ⟨e, he⟩ := List.length_eq_one_iff.mp hlength
  exact ⟨e, he ▸ hrun 0⟩

/-- A running entry whose owner was spelled in capitals is on no page. -/
theorem queries_page_not_always :
    ¬∀ (d : Desk Database) (owner : String) (user : UserId),
      Identifier.parse .user owner = .ok user →
      d.store.entries.items.length ≤ Word.largestCount →
      d.store.entries.Holds (fun r => ∃ e, r.Denotes e ∧ e.HasPlainInstants) →
        Paged {} (.running owner) d fun e =>
          (∃ r ∈ d.store.entries.items, r.Denotes e) ∧ e.user = user ∧ e.isRunning = true := by
  intro h
  let row := { firstTimer with user := "00000000-0000-0000-0000-00000000000A" }
  let e := { timerFrom .epoch with user := ⟨.ofNat 10⟩ }
  have howner : Identifier.parse .user "00000000-0000-0000-0000-00000000000a" =
      .ok ⟨.ofNat 10⟩ := by decide +kernel
  have hdenotes : row.Denotes e := by
    have huser : Identifier.parse .user row.user = .ok e.user := by decide +kernel
    exact { firstTimer_denotes with user := huser }
  have hplain : ∀ i ∈ e.instants, i.IsPlain := by decide
  obtain ⟨listed, -, hmem, hpages⟩ := h ⟨{ entries := Shelf.empty.put row }, .after 1⟩
    _ _ howner (by decide) (Shelf.holds_empty.put ⟨e, hdenotes, hplain⟩)
  obtain ⟨pages, hcut, hrun⟩ := hpages 1 le_rfl
  have hlisted : e ∈ listed := (hmem e).mpr ⟨⟨row, Shelf.mem_put_self _ _, hdenotes⟩, rfl, rfl⟩
  have hnone : pages 0 = [] := by
    have hrows : ({ entries := Shelf.empty.put row } : Database).ofUser ⟨.ofNat 10⟩ = [] := by
      decide +kernel
    have hlist : Store.running ({ entries := Shelf.empty.put row } : Database) ⟨.ofNat 10⟩
        (Page.nth 1 le_rfl 0) = .ok [] := by
      change Database.running _ _ _ = _
      rw [Database.running, hrows]
      rfl
    have hanswer := hrun 0
    rw [run_running {} howner, hlist] at hanswer
    obtain ⟨hpage, -⟩ := Prod.mk.inj hanswer
    exact (Except.ok.inj (Reply.entries.inj hpage)).symm
  have hlength := hcut.length 0
  rw [hnone] at hlength
  have := List.length_pos_of_mem hlisted
  simp only [List.length_nil] at hlength
  omega

end Timesheet
