import TrafficStats.Proofs.Cleanup.Mapping
import TrafficStats.Proofs.Total.Gathered

/-!
# Cleanup that nobody disturbs

Over tables that nobody else edits a pass takes out of the tag table exactly the rows that can
be read, have no detail row and may be deleted; if a detail row cannot be read, it takes out
none. Which rows these are depends on nothing that a pass changes, so a second pass finds
nothing left to delete, and fails at the same rows as the first (`cleanTags_converges`).
-/

namespace TrafficStats

open Query RowResult SharedTables

variable {K V : Type} [Ranked K]

/-! ### Rows that are taken out -/

namespace Rows

variable {α : Type} (rows : Rows K α)

def filter (stays : K × α → Bool) : Rows K α :=
  ⟨rows.entries.filter stays, rows.sorted.filter _⟩

theorem get?_filter_eq_some_iff (stays : K × α → Bool) (k : K) (a : α) :
    (rows.filter stays).get? k = some a ↔ rows.get? k = some a ∧ stays (k, a) = true := by
  rw [get?_eq_some_iff, get?_eq_some_iff]
  exact List.mem_filter

theorem filter_filter (stays : K × α → Bool) :
    (rows.filter stays).filter stays = rows.filter stays := by
  apply ext
  simp [filter]

/-- What stays anyway is as often among what stays as among all rows. -/
theorem countP_filter {p stays : K × α → Bool} (implies : ∀ e, p e = true → stays e = true) :
    (rows.filter stays).entries.countP p = rows.entries.countP p := by
  rw [filter, List.countP_filter]
  refine List.countP_congr fun e _ => ?_
  rw [Bool.and_eq_true]
  exact ⟨And.left, fun h => ⟨h, implies e h⟩⟩

end Rows

namespace MemoryStore

variable (store : MemoryStore K V)

def removeAll [DecidableEq K] (keys : List K) : MemoryStore K V :=
  { store with rows := store.rows.filter fun e => e.1 ∉ keys }

theorem remove_eq_removeAll [DecidableEq K] (k : K) : store.remove k = store.removeAll [k] := by
  simp [remove, removeAll, Rows.erase, Rows.filter, rank_eq_rank_iff]

@[simp] theorem removeAll_nil [DecidableEq K] : store.removeAll [] = store := by
  simp [removeAll, Rows.filter]

theorem removeAll_append [DecidableEq K] (keys more : List K) :
    (store.removeAll keys).removeAll more = store.removeAll (keys ++ more) := by
  simp [removeAll, Rows.filter, List.filter_filter, Bool.and_comm]

theorem get?_removeAll [DecidableEq K] {keys : List K} {k : K} (kept : k ∉ keys) (slot : Slot V) :
    (store.removeAll keys).rows.get? k = some slot ↔ store.rows.get? k = some slot := by
  simp [removeAll, Rows.get?_filter_eq_some_iff, kept]

theorem countP_liveRows (p : K × V → Bool) :
    store.liveRows.countP p = store.rows.entries.countP fun e => (Slot.liveRow? e).any p := by
  rw [liveRows, List.countP_filterMap]
  refine List.countP_congr fun e _ => ?_
  cases Slot.liveRow? e <;> simp

end MemoryStore

namespace Cleanup

variable (store : MemoryStore UInt64 SocketTag) (live : List SocketTag)

/-- Whether an entry is not live and can be deleted. -/
def isRemovable (entry : UInt64 × SocketTag) : Bool :=
  entry.2 ∉ live && !store.refusesDelete entry.1

/-- Whether an entry is not live and stays because its delete fails. -/
def isRetained (entry : UInt64 × SocketTag) : Bool :=
  entry.2 ∉ live && store.refusesDelete entry.1

def removable (entries : List (UInt64 × SocketTag)) : List UInt64 :=
  (entries.filter (isRemovable store live)).map Prod.fst

/-- The account of a pass after some more entries were examined. -/
def examined (report : CleanupReport) (entries : List (UInt64 × SocketTag)) : CleanupReport :=
  { report with
    scanned := report.scanned + entries.length
    deleted := report.deleted + entries.countP (isRemovable store live)
    failed := report.failed + entries.countP (isRetained store live) }

theorem examined_cons (report : CleanupReport) (entry : UInt64 × SocketTag)
    (entries : List (UInt64 × SocketTag)) :
    examined store live (examined store live report [entry]) entries =
      examined store live report (entry :: entries) := by
  simp only [examined, List.countP_cons, List.countP_nil, List.length_cons, List.length_nil,
    CleanupReport.mk.injEq, true_and, and_true]
  omega

theorem removable_cons (entry : UInt64 × SocketTag) (entries : List (UInt64 × SocketTag)) :
    removable store live [entry] ++ removable store live entries =
      removable store live (entry :: entries) := by
  rw [removable, removable, ← List.map_append, ← List.filter_append]
  rfl

def withoutTags (tables : MemoryTables) (cookies : List UInt64) : MemoryTables :=
  { tables with cookieTags := tables.cookieTags.removeAll cookies }

variable {store live} {tables : MemoryTables} {entry : UInt64 × SocketTag}

theorem leads_delete (cookie : UInt64) :
    Leads (Undisturbed tables) (onTables ((access .cookieTags).delete cookie)) fun answer s =>
      answer = (tables.cookieTags.delete cookie).1 ∧
        Undisturbed { tables with cookieTags := (tables.cookieTags.delete cookie).2 } s := by
  intro s hs
  simp only [onTables, access, call, hs.before_eq]
  obtain ⟨rfl, pending⟩ := hs
  exact ⟨rfl, rfl, pending⟩

/-- An entry that is examined is deleted if it is not live, unless its delete fails. -/
theorem leads_removeStale (available : tables.cookieTags.unavailable = false)
    (there : ∃ slot, tables.cookieTags.rows.get? entry.1 = some slot) (report : CleanupReport) :
    Leads (Undisturbed tables) (removeStale (access .cookieTags) live report entry)
      fun report' s => report' = examined tables.cookieTags live report [entry] ∧
        Undisturbed (withoutTags tables (removable tables.cookieTags live [entry])) s := by
  unfold removeStale
  by_cases used : entry.2 ∈ live
  · rw [if_pos used]
    have stays : removable tables.cookieTags live [entry] = [] := by
      simp [removable, isRemovable, used]
    rw [stays, withoutTags, MemoryStore.removeAll_nil]
    refine .pure fun s hs => ⟨?_, hs⟩
    simp [examined, isRemovable, isRetained, used]
  · rw [if_neg used]
    refine (leads_delete entry.1).bind fun answer => ?_
    obtain ⟨refusal, e, failed⟩ | ⟨⟨-, allowed⟩, ⟨slot, -, deleted⟩ | ⟨gone, -⟩⟩ :=
      tables.cookieTags.delete_cases entry.1
    · have refused : tables.cookieTags.refusesDelete entry.1 = true := by
        rw [available] at refusal
        exact refusal.resolve_left Bool.false_ne_true
      have stays : removable tables.cookieTags live [entry] = [] := by
        simp [removable, isRemovable, refused]
      rw [failed, stays, withoutTags, MemoryStore.removeAll_nil]
      rintro s ⟨rfl, after⟩
      refine ⟨?_, after⟩
      simp [examined, isRemovable, isRetained, used, refused]
      rfl
    · have goes : removable tables.cookieTags live [entry] = [entry.1] := by
        simp [removable, isRemovable, used, allowed]
      rw [deleted, goes, withoutTags, ← MemoryStore.remove_eq_removeAll]
      rintro s ⟨rfl, after⟩
      refine ⟨?_, after⟩
      simp [examined, isRemovable, isRetained, used, allowed]
      rfl
    · obtain ⟨slot, found⟩ := there
      rw [gone] at found
      cases found

theorem leads_foldlM_removeStale_alone (available : tables.cookieTags.unavailable = false)
    {entries : List (UInt64 × SocketTag)} (nodup : (entries.map Prod.fst).Nodup)
    (there : ∀ entry ∈ entries, ∃ slot, tables.cookieTags.rows.get? entry.1 = some slot)
    (report : CleanupReport) :
    Leads (Undisturbed tables) (entries.foldlM (removeStale (access .cookieTags) live) report)
      fun report' s => report' = examined tables.cookieTags live report entries ∧
        Undisturbed (withoutTags tables (removable tables.cookieTags live entries)) s := by
  induction entries generalizing tables report with
  | nil =>
      refine .pure fun s hs => ⟨rfl, ?_⟩
      simpa [removable, withoutTags] using hs
  | cons entry entries ih =>
      obtain ⟨absent, nodup⟩ := List.nodup_cons.mp nodup
      rw [List.foldlM_cons]
      refine (leads_removeStale available (there entry List.mem_cons_self) report).bind
        fun report' => ?_
      rintro s ⟨rfl, before⟩
      have there' : ∀ other ∈ entries, ∃ slot, (withoutTags tables
          (removable tables.cookieTags live [entry])).cookieTags.rows.get? other.1 = some slot := by
        intro other h
        obtain ⟨slot, found⟩ := there other (List.mem_cons_of_mem _ h)
        have kept : other.1 ∉ removable tables.cookieTags live [entry] := by
          intro mem
          obtain ⟨own, hown, same⟩ := List.mem_map.mp mem
          rw [List.mem_singleton.mp (List.mem_of_mem_filter hown)] at same
          exact absent (same ▸ List.mem_map_of_mem h)
        exact ⟨slot, (tables.cookieTags.get?_removeAll kept slot).mpr found⟩
      have available' : (withoutTags tables
        (removable tables.cookieTags live [entry])).cookieTags.unavailable = false := available
      obtain ⟨eq, after⟩ := ih available' nodup there' _ s before
      refine ⟨eq.trans (examined_cons _ live report entry entries), ?_⟩
      rw [← removable_cons, withoutTags, ← MemoryStore.removeAll_append]
      exact after

end Cleanup

open Cleanup

namespace MemoryTables

variable (tables : MemoryTables)

/-- The owners and tags of the detail rows that can be read. -/
def tagsInUse : List SocketTag :=
  live tables.detail.liveRows

/-- Whether a row of the tag table outlasts a pass that deletes. -/
def outlasts (e : UInt64 × Slot SocketTag) : Bool :=
  !(Slot.liveRow? e).any (isRemovable tables.cookieTags tables.tagsInUse)

/-- The tables with other rows in the tag table. -/
def withTagRows (rows : Rows UInt64 (Slot SocketTag)) : MemoryTables :=
  { tables with cookieTags := { tables.cookieTags with rows } }

def cleaned : MemoryTables :=
  if 0 < tables.detail.malformedRows then tables
  else tables.withTagRows (tables.cookieTags.rows.filter tables.outlasts)

def cleanup : CleanupReport :=
  if 0 < tables.detail.malformedRows then
    ⟨tables.cookieTags.liveRows.length, 0, 0, tables.cookieTags.malformedRows,
      tables.detail.malformedRows⟩
  else
    examined tables.cookieTags tables.tagsInUse
      { CleanupReport.zero with failed := tables.cookieTags.malformedRows }
      tables.cookieTags.liveRows

variable {tables}

@[simp] theorem rows_withTagRows (rows : Rows UInt64 (Slot SocketTag)) :
    (tables.withTagRows rows).cookieTags.rows = rows := rfl

@[simp] theorem outlasts_withTagRows (rows : Rows UInt64 (Slot SocketTag)) :
    (tables.withTagRows rows).outlasts = tables.outlasts := rfl

theorem cleaned_of_incomplete (incomplete : 0 < tables.detail.malformedRows) :
    tables.cleaned = tables := if_pos incomplete

theorem cleaned_of_complete (complete : tables.detail.malformedRows = 0) :
    tables.cleaned = tables.withTagRows (tables.cookieTags.rows.filter tables.outlasts) :=
  if_neg (Nat.not_lt.mpr (Nat.le_of_eq complete))

theorem cleanup_of_complete (complete : tables.detail.malformedRows = 0) :
    tables.cleanup = examined tables.cookieTags tables.tagsInUse
      { CleanupReport.zero with failed := tables.cookieTags.malformedRows }
      tables.cookieTags.liveRows :=
  if_neg (Nat.not_lt.mpr (Nat.le_of_eq complete))

theorem cleanup_of_incomplete (incomplete : 0 < tables.detail.malformedRows) :
    tables.cleanup = ⟨tables.cookieTags.liveRows.length, 0, 0, tables.cookieTags.malformedRows,
      tables.detail.malformedRows⟩ := if_pos incomplete

end MemoryTables

namespace Cleanup

open MemoryTables

variable {tables : MemoryTables}

theorem examined_congr (store : MemoryStore UInt64 SocketTag) {live live' : List SocketTag}
    (same : ∀ tag, tag ∈ live ↔ tag ∈ live') :
    examined store live = examined store live' ∧ removable store live = removable store live' := by
  have removes : isRemovable store live = isRemovable store live' := by
    funext entry
    simp [isRemovable, same]
  have retains : isRetained store live = isRetained store live' := by
    funext entry
    simp [isRetained, same]
  constructor
  · funext report entries
    rw [examined, removes, retains]
    rfl
  · funext entries
    rw [removable, removes]
    rfl

/-- A row of the table is removed if it can be read and is removable. -/
theorem mem_removable_liveRows {store : MemoryStore UInt64 SocketTag} {live : List SocketTag}
    {cookie : UInt64} {slot : Slot SocketTag} (h : (cookie, slot) ∈ store.rows.entries) :
    cookie ∈ removable store live store.liveRows ↔
      (Slot.liveRow? (cookie, slot)).any (isRemovable store live) = true := by
  have found := (Rows.get?_eq_some_iff store.rows cookie slot).mpr h
  rw [removable, List.mem_map]
  constructor
  · rintro ⟨⟨cookie', tag⟩, mem, rfl⟩
    obtain ⟨listed, removes⟩ := List.mem_filter.mp mem
    rw [MemoryStore.mem_liveRows, found] at listed
    cases listed
    exact removes
  · intro removes
    cases slot with
    | malformed reason => cases removes
    | live tag =>
        refine ⟨(cookie, tag), List.mem_filter.mpr ⟨?_, removes⟩, rfl⟩
        exact (store.mem_liveRows cookie tag).mpr found

/-- Taking out what is removable leaves what outlasts the pass. -/
theorem removeAll_removable :
    (tables.cookieTags.removeAll
        (removable tables.cookieTags tables.tagsInUse tables.cookieTags.liveRows)).rows =
      tables.cookieTags.rows.filter tables.outlasts := by
  apply Rows.ext
  refine List.filter_congr ?_
  rintro ⟨cookie, slot⟩ h
  rw [Bool.eq_iff_iff, decide_eq_true_eq, mem_removable_liveRows h, MemoryTables.outlasts,
    Bool.not_eq_true']
  exact Iff.of_eq (Bool.not_eq_true _)

/-- A pass deletes what it may delete, if all detail rows could be read. -/
theorem leads_sweep_alone (available : tables.cookieTags.unavailable = false) {listing : Listing}
    (listed : Listed tables.cookieTags.allRows listing) {l : LiveTags}
    (collected : Collected tables.detail.allRows l) :
    Leads (Undisturbed tables) (sweep (access .cookieTags) listing l) fun report s =>
      report = tables.cleanup ∧ Undisturbed tables.cleaned s := by
  obtain ⟨listedTags, unlisted⟩ := listed
  obtain ⟨liveTags, uncollected⟩ := collected
  rw [MemoryStore.readable_allRows] at listedTags liveTags
  rw [MemoryStore.unreadable_allRows] at unlisted uncollected
  unfold sweep MemoryTables.cleanup MemoryTables.cleaned
  rw [uncollected]
  by_cases incomplete : 0 < tables.detail.malformedRows
  · rw [if_pos incomplete, if_pos incomplete, if_pos incomplete]
    refine .quiet_bind (fun _ => rfl) fun _ => .pure fun s hs => ⟨?_, hs⟩
    rw [← Array.length_toList, listedTags, unlisted]
  · rw [if_neg incomplete, if_neg incomplete, if_neg incomplete, listedTags, unlisted]
    have there : ∀ entry ∈ tables.cookieTags.liveRows,
        ∃ slot, tables.cookieTags.rows.get? entry.1 = some slot :=
      fun entry h => ⟨_, (tables.cookieTags.mem_liveRows entry.1 entry.2).mp h⟩
    obtain ⟨account, cookies⟩ := examined_congr tables.cookieTags liveTags
    refine (leads_foldlM_removeStale_alone available tables.cookieTags.nodup_liveRows there
      _).bind fun report => ?_
    refine .quiet_bind (fun _ => rfl) fun _ => .pure ?_
    rintro s ⟨rfl, after⟩
    rw [cookies, withoutTags] at after
    refine ⟨congrFun (congrFun account _) _, ?_⟩
    rw [← removeAll_removable]
    exact after

/-- A pass over available tables that nobody else edits. -/
theorem leads_pass_alone (tagsAvailable : tables.cookieTags.unavailable = false)
    (detailAvailable : tables.detail.unavailable = false) :
    Leads (Undisturbed tables) (pass (access .cookieTags) (access .detail)) fun answer s =>
      answer = .ok tables.cleanup ∧ Undisturbed tables.cleaned s := by
  have tagsShown := shows_of_available .cookieTags tagsAvailable
  have detailShown := shows_of_available .detail detailAvailable
  refine .ensures_bind (tagsShown.delivers _ rfl) fun answer started => ?_
  obtain ⟨c, rfl, delivers⟩ := started
  have listed := delivers.foldRows Listed (fun _ r _ h => ensures_listTag h r) []
    (b := ⟨#[], 0⟩) ⟨rfl, rfl⟩
  refine .ensures_bind listed fun listing listed => ?_
  refine .ensures_bind (detailShown.delivers _ rfl) fun answer started => ?_
  obtain ⟨c, rfl, delivers⟩ := started
  have collected := delivers.foldRows Collected (fun _ r _ h => ensures_noteLive h r) []
    (b := ⟨[], 0⟩) ⟨fun _ => Iff.rfl, rfl⟩
  refine .ensures_bind collected fun l collected => ?_
  refine (leads_sweep_alone tagsAvailable listed collected).bind fun report => .pure ?_
  rintro s ⟨rfl, after⟩
  exact ⟨rfl, after⟩

/-- Some detail row, readable or not, counts for an owner and tag. -/
def HasDetailRow (tables : MemoryTables) (tag : SocketTag) : Prop :=
  ∃ k slot, tables.detail.rows.get? k = some slot ∧ k.socketTag = tag

/-- What makes a row of the tag table stay in a pass that deletes. -/
inductive Stays (tables : MemoryTables) (cookie : UInt64) : Slot SocketTag → Prop
  | malformed (reason : String) : Stays tables cookie (.malformed reason)
  | inUse {tag : SocketTag} (counts : HasDetailRow tables tag) : Stays tables cookie (.live tag)
  | retained {tag : SocketTag} (refused : tables.cookieTags.refusesDelete cookie = true) :
      Stays tables cookie (.live tag)

/-- If all detail rows can be read, the tags in use are those with a detail row. -/
theorem mem_tagsInUse (complete : tables.detail.malformedRows = 0) (tag : SocketTag) :
    tag ∈ tables.tagsInUse ↔ HasDetailRow tables tag := by
  have readable : ∀ k slot, tables.detail.rows.get? k = some slot → ∃ raw, slot = .live raw := by
    intro k slot found
    have isLive := List.countP_eq_zero.mp complete _ ((Rows.get?_eq_some_iff _ _ _).mp found)
    cases slot with
    | live raw => exact ⟨raw, rfl⟩
    | malformed reason => exact absurd rfl isLive
  rw [MemoryTables.tagsInUse, live, List.mem_map]
  constructor
  · rintro ⟨⟨k, raw⟩, mem, rfl⟩
    exact ⟨k, _, (tables.detail.mem_liveRows k raw).mp mem, rfl⟩
  · rintro ⟨k, slot, found, rfl⟩
    obtain ⟨raw, rfl⟩ := readable k slot found
    exact ⟨(k, raw), (tables.detail.mem_liveRows k raw).mpr found, rfl⟩

theorem outlasts_iff (complete : tables.detail.malformedRows = 0) (cookie : UInt64)
    (slot : Slot SocketTag) :
    tables.outlasts (cookie, slot) = true ↔ Stays tables cookie slot := by
  cases slot with
  | malformed reason => exact ⟨fun _ => .malformed reason, fun _ => rfl⟩
  | live tag =>
      have reads : tables.outlasts (cookie, .live tag) = true ↔
          tag ∈ tables.tagsInUse ∨ tables.cookieTags.refusesDelete cookie = true := by
        simp [MemoryTables.outlasts, Slot.liveRow?, isRemovable]
      rw [reads, mem_tagsInUse complete]
      constructor
      · rintro (counts | refused)
        · exact .inUse counts
        · exact .retained refused
      · intro stays
        cases stays with
        | inUse counts => exact .inl counts
        | retained refused => exact .inr refused

/-- What a pass over available tables reports and leaves. -/
structure CleansUp (tables : MemoryTables) (report : CleanupReport) (after : MemoryTables) :
    Prop where
  -- Nothing changes but the rows of the tag table.
  frame : after = tables.withTagRows after.cookieTags.rows
  scanned : report.scanned = tables.cookieTags.liveRows.length
  alreadyAbsent : report.alreadyAbsent = 0
  unreadableRows : report.unreadableRows = tables.detail.malformedRows
  refused : 0 < tables.detail.malformedRows →
    after.cookieTags = tables.cookieTags ∧ report.deleted = 0 ∧
      report.failed = tables.cookieTags.malformedRows
  swept : tables.detail.malformedRows = 0 →
    (∀ cookie slot, after.cookieTags.rows.get? cookie = some slot ↔
      tables.cookieTags.rows.get? cookie = some slot ∧ Stays tables cookie slot) ∧
    report.deleted + after.cookieTags.size = tables.cookieTags.size ∧
    report.failed = tables.cookieTags.malformedRows +
      tables.cookieTags.liveRows.countP (isRetained tables.cookieTags tables.tagsInUse)

theorem cleansUp_cleaned : CleansUp tables tables.cleanup tables.cleaned := by
  rcases Nat.eq_zero_or_pos tables.detail.malformedRows with complete | incomplete
  · rw [cleanup_of_complete complete, cleaned_of_complete complete]
    have removed : tables.cookieTags.liveRows.countP
        (isRemovable tables.cookieTags tables.tagsInUse) =
          tables.cookieTags.rows.entries.countP fun e => ¬ tables.outlasts e := by
      rw [MemoryStore.countP_liveRows]
      exact List.countP_congr fun e _ => by simp [MemoryTables.outlasts]
    have kept : (tables.cookieTags.rows.filter tables.outlasts).size =
        tables.cookieTags.rows.entries.countP tables.outlasts :=
      List.countP_eq_length_filter.symm
    have total := List.length_eq_countP_add_countP tables.outlasts
      (l := tables.cookieTags.rows.entries)
    constructor
    case frame => rfl
    case scanned => exact Nat.zero_add _
    case alreadyAbsent => rfl
    case unreadableRows => exact complete.symm
    case refused =>
      intro incomplete
      omega
    case swept =>
      refine fun _ => ⟨fun cookie slot => ?_, ?_, rfl⟩
      · rw [rows_withTagRows, Rows.get?_filter_eq_some_iff, outlasts_iff complete]
      · change 0 + _ + (tables.cookieTags.rows.filter tables.outlasts).size =
          tables.cookieTags.rows.entries.length
        omega
  · rw [cleanup_of_incomplete incomplete, cleaned_of_incomplete incomplete]
    constructor
    case swept =>
      intro complete
      omega
    all_goals first | rfl | exact fun _ => ⟨rfl, rfl, rfl⟩

/-! ### Further passes -/

/-- What outlasts a pass outlasts every later pass. -/
theorem cleaned_cleaned : tables.cleaned.cleaned = tables.cleaned := by
  rcases Nat.eq_zero_or_pos tables.detail.malformedRows with complete | incomplete
  · have complete' : (tables.withTagRows (tables.cookieTags.rows.filter
        tables.outlasts)).detail.malformedRows = 0 := complete
    rw [cleaned_of_complete complete, cleaned_of_complete complete', outlasts_withTagRows,
      rows_withTagRows, Rows.filter_filter]
    rfl
  · rw [cleaned_of_incomplete incomplete, cleaned_of_incomplete incomplete]

/-- A later pass deletes nothing and fails where the first one did. -/
theorem cleanup_cleaned (tables : MemoryTables) :
    tables.cleaned.cleanup.deleted = 0 ∧ tables.cleaned.cleanup.failed = tables.cleanup.failed := by
  rcases Nat.eq_zero_or_pos tables.detail.malformedRows with complete | incomplete
  · have complete' : (tables.withTagRows (tables.cookieTags.rows.filter
        tables.outlasts)).detail.malformedRows = 0 := complete
    rw [cleaned_of_complete complete, cleanup_of_complete complete, cleanup_of_complete complete']
    have counted (p : UInt64 × SocketTag → Bool) :=
      (tables.withTagRows (tables.cookieTags.rows.filter
        tables.outlasts)).cookieTags.countP_liveRows p
    have malformed : (tables.cookieTags.rows.filter tables.outlasts).entries.countP
        (fun e => (Slot.liveRow? e).isNone) = tables.cookieTags.malformedRows := by
      refine Rows.countP_filter _ fun e unreadable => ?_
      rw [outlasts, Option.isNone_iff_eq_none.mp unreadable]
      rfl
    have retained : (tables.cookieTags.rows.filter tables.outlasts).entries.countP
        (fun e => (Slot.liveRow? e).any (isRetained tables.cookieTags tables.tagsInUse)) =
          tables.cookieTags.liveRows.countP (isRetained tables.cookieTags tables.tagsInUse) := by
      rw [MemoryStore.countP_liveRows]
      refine Rows.countP_filter _ fun e stays => ?_
      obtain ⟨entry, row, stays⟩ := Option.any_eq_true _ _ |>.mp stays
      simp_all [outlasts, isRetained, isRemovable]
    have removed : (tables.cookieTags.rows.filter tables.outlasts).entries.countP
        (fun e => (Slot.liveRow? e).any (isRemovable tables.cookieTags tables.tagsInUse)) = 0 := by
      refine List.countP_eq_zero.mpr fun e mem removes => ?_
      have stays := (List.mem_filter.mp mem).2
      rw [outlasts, removes] at stays
      cases stays
    constructor
    · exact (Nat.zero_add _).trans ((counted _).trans removed)
    · exact congrArg₂ (· + ·) malformed ((counted _).trans retained)
  · rw [cleaned_of_incomplete incomplete, cleanup_of_incomplete incomplete]
    exact ⟨rfl, rfl⟩

end Cleanup

namespace Accounting

/-- A session after so many passes. -/
def afterCleanups {σ : Type} (a : Accounting σ) (s : Session σ) : Nat → Session σ
  | 0 => s
  | passes + 1 => (a.cleanTags (a.afterCleanups s passes)).2

variable {a : Accounting SharedTables} {tables : MemoryTables} {s : Session SharedTables}

/-- What a service does about the tags while nobody else edits the tables: a first pass cleans
up, and every further one finds nothing to delete, fails where the first one did and leaves the
tables as they are. -/
def CleansUpOnce (a : Accounting SharedTables) (tables : MemoryTables)
    (s : Session SharedTables) : Prop :=
  ∃ report, (a.cleanTags s).1 = .ok report ∧
    Cleanup.CleansUp tables report (a.cleanTags s).2.tables.tables ∧
    ∀ n, ∃ later, (a.cleanTags (a.afterCleanups s (n + 1))).1 = .ok later ∧
      later.deleted = 0 ∧ later.failed = report.failed ∧
      (a.afterCleanups s (n + 2)).tables.tables = (a.cleanTags s).2.tables.tables

theorem leads_cleanTags (shared : a.tables = tableSet)
    (tagsAvailable : tables.cookieTags.unavailable = false)
    (detailAvailable : tables.detail.unavailable = false) :
    Leads (Undisturbed tables) a.cleanTags fun answer s =>
      answer = .ok tables.cleanup ∧ Undisturbed tables.cleaned s := by
  unfold cleanTags
  rw [shared]
  exact Cleanup.leads_pass_alone tagsAvailable detailAvailable

theorem available_cleaned (tagsAvailable : tables.cookieTags.unavailable = false)
    (detailAvailable : tables.detail.unavailable = false) :
    tables.cleaned.cookieTags.unavailable = false ∧
      tables.cleaned.detail.unavailable = false := by
  unfold MemoryTables.cleaned
  split
  · exact ⟨tagsAvailable, detailAvailable⟩
  · exact ⟨tagsAvailable, detailAvailable⟩

/-- After at least one pass the tables are clean. -/
theorem undisturbed_afterCleanups (shared : a.tables = tableSet)
    (tagsAvailable : tables.cookieTags.unavailable = false)
    (detailAvailable : tables.detail.unavailable = false)
    (alone : Undisturbed tables s.tables) (n : Nat) :
    Undisturbed tables.cleaned (a.afterCleanups s (n + 1)).tables := by
  induction n with
  | zero => exact (leads_cleanTags shared tagsAvailable detailAvailable s alone).2
  | succ n ih =>
      obtain ⟨tagsAvailable', detailAvailable'⟩ := available_cleaned tagsAvailable detailAvailable
      have again := (leads_cleanTags shared tagsAvailable' detailAvailable' _ ih).2
      rw [Cleanup.cleaned_cleaned] at again
      exact again

/-- A pass over available tables leaves the tags in use, those that cannot be read and those
whose deletes fail, and further passes change nothing. -/
theorem cleanTags_converges (shared : a.tables = tableSet)
    (tagsAvailable : tables.cookieTags.unavailable = false)
    (detailAvailable : tables.detail.unavailable = false)
    (alone : Undisturbed tables s.tables) : a.CleansUpOnce tables s := by
  obtain ⟨answer, first⟩ := leads_cleanTags shared tagsAvailable detailAvailable s alone
  refine ⟨tables.cleanup, answer, ?_, fun n => ?_⟩
  · rw [first.tables]
    exact Cleanup.cleansUp_cleaned
  · obtain ⟨tagsAvailable', detailAvailable'⟩ := available_cleaned tagsAvailable detailAvailable
    have before := undisturbed_afterCleanups shared tagsAvailable detailAvailable alone n
    have after := undisturbed_afterCleanups shared tagsAvailable detailAvailable alone (n + 1)
    obtain ⟨later, -⟩ := leads_cleanTags shared tagsAvailable' detailAvailable' _ before
    obtain ⟨deleted, failed⟩ := Cleanup.cleanup_cleaned tables
    exact ⟨_, later, deleted, failed, after.tables.trans first.tables.symm⟩

/-- A tag in use, a stale tag, a stale tag whose delete fails and one that cannot be read. -/
def retainedTag : MemoryTables :=
  { MemoryTables.empty with
    detail := .ofList [(⟨10, 7, 1⟩, ⟨1, 1, 1, 1⟩)]
    cookieTags := ((MemoryStore.ofList [(1, ⟨10, 7⟩), (2, ⟨10, 8⟩), (3, ⟨11, 0⟩)]).insertMalformed 4
      "short value").failDeletesOf 3 }

/-- Of these only the stale tag that may be deleted goes. -/
theorem cleanTags_converges_retainedTag :
    CleansUpOnce (.new tableSet) retainedTag (.start (.quiet retainedTag)) ∧
      ((new tableSet).cleanTags (.start (.quiet retainedTag))).1 = .ok ⟨3, 1, 0, 2, 0⟩ ∧
      ((new tableSet).cleanTags
        ((new tableSet).afterCleanups (.start (.quiet retainedTag)) 1)).1 = .ok ⟨2, 0, 0, 2, 0⟩ ∧
      ((new tableSet).afterCleanups (.start (.quiet retainedTag)) 2).tables.tables.cookieTags.rows.keys
        = [1, 3, 4] :=
  ⟨cleanTags_converges rfl rfl rfl (undisturbed_quiet _), by decide +kernel, by decide +kernel,
    by decide +kernel⟩

end Accounting

end TrafficStats
