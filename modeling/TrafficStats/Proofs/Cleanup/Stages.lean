import TrafficStats.Cleanup.Pass
import TrafficStats.Proofs.Shared.Walk

/-!
# The stages of a cleanup pass

A pass over shared tables goes through up to three stages: it walks over the socket tags,
then over the detail rows, and then deletes. `Cleanup.Stages` records what such a pass
leaves in the history and how the answer follows from it; the tables may be edited
between any two calls. `pass_stages` says that every pass is of this form, so that
everything else about passes can be read off their histories.
-/

namespace TrafficStats

open TableField RowResult

namespace Moment

/-- The row of the tag table that an enumeration delivered in a moment. -/
def tagRow? (m : Moment) : Option (RowResult UInt64 SocketTag) :=
  match m.call with
  | .cookieTags (.next answer) => answer
  | _ => none

/-- The row of the detail table that an enumeration delivered in a moment. -/
def detailRow? (m : Moment) : Option (RowResult DetailKey RawCounters) :=
  match m.call with
  | .detail (.next answer) => answer
  | _ => none

/-- The cookie whose tag was to be deleted in a moment. -/
def deletedCookie? (m : Moment) : Option UInt64 :=
  match m.call with
  | .cookieTags (.delete cookie _) => some cookie
  | _ => none

def isDelete (m : Moment) : Bool :=
  match m.call with
  | .detail (.delete ..) | .device (.delete ..) | .ifaceNames (.delete ..)
  | .cookieTags (.delete ..) => true
  | _ => false

def isDetail (m : Moment) : Bool :=
  match m.call with
  | .detail _ => true
  | _ => false

/-- The row that a delete took out of the tag table: it was there before and is not there
after. -/
def removal? (m : Moment) : Option (UInt64 × Slot SocketTag) :=
  m.deletedCookie?.bind fun cookie =>
    match m.tables.cookieTags.rows.get? cookie,
      (m.tables.cookieTags.delete cookie).2.rows.get? cookie with
    | some slot, none => some (cookie, slot)
    | _, _ => none

/-- Whether a delete removed a row. -/
def removes (m : Moment) : Bool :=
  m.removal?.isSome

/-- Whether a delete found that somebody else had removed the row. -/
def findsGone (m : Moment) : Bool :=
  match m.call with
  | .cookieTags (.delete _ (.ok .alreadyAbsent)) => true
  | _ => false

def isRefused (m : Moment) : Bool :=
  match m.call with
  | .cookieTags (.delete _ (.error _)) => true
  | _ => false

/-- The delete of a tag, on the tables that it finds. -/
def deletion (cookie : UInt64) (tables : MemoryTables) : Moment :=
  ⟨tables, .cookieTags (.delete cookie (tables.cookieTags.delete cookie).1)⟩

@[simp] theorem deletedCookie?_deletion (cookie : UInt64) (tables : MemoryTables) :
    (deletion cookie tables).deletedCookie? = some cookie := rfl

/-- A delete removes its row exactly if it is not refused and there is a row. -/
theorem removal?_deletion_eq_some_iff {cookie cookie' : UInt64} {tables : MemoryTables}
    {slot : Slot SocketTag} :
    (deletion cookie tables).removal? = some (cookie', slot) ↔
      cookie' = cookie ∧ tables.cookieTags.rows.get? cookie = some slot ∧
        tables.cookieTags.unavailable = false ∧
        tables.cookieTags.refusesDelete cookie = false := by
  simp only [removal?, deletedCookie?_deletion, Option.bind_some]
  change (match tables.cookieTags.rows.get? cookie,
      (tables.cookieTags.delete cookie).2.rows.get? cookie with
    | some slot, none => some (cookie, slot)
    | _, _ => none) = _ ↔ _
  obtain ⟨refusal, e, he⟩ | ⟨⟨hu, hr⟩, ⟨slot', found, hd⟩ | ⟨gone, hd⟩⟩ :=
    tables.cookieTags.delete_cases cookie
  · rw [he]
    cases hk : tables.cookieTags.rows.get? cookie with
    | none => simp
    | some slot' =>
        simp only [reduceCtorEq, false_iff]
        rintro ⟨-, -, hu, hr⟩
        rcases refusal with h | h
        · rw [hu] at h
          cases h
        · rw [hr] at h
          cases h
  · rw [hd, found]
    simp [hu, hr, eq_comm]
  · rw [hd, gone]
    simp

variable {cookie : UInt64} {tables : MemoryTables}

/-- A delete that is refused counts as refused and as nothing else. -/
theorem flags_of_refused {e : StoreError}
    (h : tables.cookieTags.delete cookie = (.error e, tables.cookieTags)) :
    (deletion cookie tables).removes = false ∧ (deletion cookie tables).findsGone = false ∧
      (deletion cookie tables).isRefused = true := by
  refine ⟨?_, by simp [deletion, findsGone, h], by simp [deletion, isRefused, h]⟩
  simp only [removes, removal?, deletion, deletedCookie?, Option.bind_some, h]
  cases tables.cookieTags.rows.get? cookie with
  | none => rfl
  | some slot => rfl

theorem flags_of_deleted {slot : Slot SocketTag}
    (found : tables.cookieTags.rows.get? cookie = some slot)
    (h : tables.cookieTags.delete cookie = (.ok .deleted, tables.cookieTags.remove cookie)) :
    (deletion cookie tables).removes = true ∧ (deletion cookie tables).findsGone = false ∧
      (deletion cookie tables).isRefused = false := by
  refine ⟨?_, by simp [deletion, findsGone, h], by simp [deletion, isRefused, h]⟩
  simp [removes, removal?, deletion, deletedCookie?, h, found]

theorem flags_of_gone (gone : tables.cookieTags.rows.get? cookie = none)
    (h : tables.cookieTags.delete cookie = (.ok .alreadyAbsent, tables.cookieTags)) :
    (deletion cookie tables).removes = false ∧ (deletion cookie tables).findsGone = true ∧
      (deletion cookie tables).isRefused = false := by
  refine ⟨?_, by simp [deletion, findsGone, h], by simp [deletion, isRefused, h]⟩
  simp [removes, removal?, deletion, deletedCookie?, h, gone]

end Moment

namespace Cleanup

open Moment

/-- The owners and tags that the rows of a walk over the detail table count for. -/
def liveTags (rows : List (RowResult DetailKey RawCounters)) : List SocketTag :=
  (readable rows).map fun row => row.1.socketTag

/-- The listed tags that no row of the detail table counts for. -/
def stale (listed : List (RowResult UInt64 SocketTag))
    (rows : List (RowResult DetailKey RawCounters)) : List (UInt64 × SocketTag) :=
  (readable listed).filter fun entry => entry.2 ∉ liveTags rows

/-- The deletes of a list of cookies, each on the tables as it found them. -/
inductive Deletions : List UInt64 → List Moment → Prop
  | nil : Deletions [] []
  | cons {cookies : List UInt64} {moments : List Moment} (cookie : UInt64)
      (tables : MemoryTables) (rest : Deletions cookies moments) :
      Deletions (cookie :: cookies) (deletion cookie tables :: moments)

namespace Deletions

variable {cookies : List UInt64} {moments : List Moment}

theorem filterMap_deletedCookie? (h : Deletions cookies moments) :
    moments.filterMap deletedCookie? = cookies := by
  induction h with
  | nil => rfl
  | cons cookie tables _ ih => simp [ih]

/-- What no delete tells is not found in a list of deletes. -/
theorem filterMap_eq_nil {α : Type} {told? : Moment → Option α} (h : Deletions cookies moments)
    (hnone : ∀ cookie tables, told? (deletion cookie tables) = none) :
    moments.filterMap told? = [] := by
  induction h with
  | nil => rfl
  | cons cookie tables _ ih => simp [hnone, ih]

theorem exists_deletion (h : Deletions cookies moments) {m : Moment} (hm : m ∈ moments) :
    ∃ cookie ∈ cookies, m = deletion cookie m.tables := by
  induction h with
  | nil => cases hm
  | cons cookie tables _ ih =>
      rcases List.mem_cons.mp hm with rfl | hm
      · exact ⟨cookie, List.mem_cons_self, rfl⟩
      · obtain ⟨cookie', hmem, eq⟩ := ih hm
        exact ⟨cookie', List.mem_cons_of_mem _ hmem, eq⟩

/-- Every delete removes its row, or finds it gone, or is refused. -/
theorem length_eq (h : Deletions cookies moments) :
    cookies.length =
      moments.countP removes + moments.countP findsGone + moments.countP isRefused := by
  induction h with
  | nil => rfl
  | cons cookie tables _ ih =>
      rw [List.length_cons, ih]
      obtain ⟨-, e, he⟩ | ⟨-, ⟨slot, found, hd⟩ | ⟨gone, hd⟩⟩ :=
        tables.cookieTags.delete_cases cookie
      · obtain ⟨removes, findsGone, isRefused⟩ := flags_of_refused he
        simp only [List.countP_cons, removes, findsGone, isRefused, Bool.false_eq_true, if_false,
          if_true]
        omega
      · obtain ⟨removes, findsGone, isRefused⟩ := flags_of_deleted found hd
        simp only [List.countP_cons, removes, findsGone, isRefused, Bool.false_eq_true, if_false,
          if_true]
        omega
      · obtain ⟨removes, findsGone, isRefused⟩ := flags_of_gone gone hd
        simp only [List.countP_cons, removes, findsGone, isRefused, Bool.false_eq_true, if_false,
          if_true]
        omega

end Deletions

/-- What happens after the tags were listed, and the answer that follows from it. The deletes
are made in the order of the listing. -/
inductive Settled (listed : List (RowResult UInt64 SocketTag)) :
    List Moment → Except QueryError CleanupReport → Prop
  | noDetail {tables : MemoryTables} {cause : StoreError} :
      Settled listed [⟨tables, .detail (.iterate (.error cause))⟩]
        (.error (.tableUnavailable .detail cause))
  | refused {tables : MemoryTables} {moments : List Moment}
      {rows : List (RowResult DetailKey RawCounters)}
      (walk : detail.Walk tables.detail.rows.keys moments rows)
      (incomplete : 0 < unreadable rows) :
      Settled listed (⟨tables, .detail (.iterate (.ok ()))⟩ :: moments)
        (.ok ⟨(readable listed).length, 0, 0, unreadable listed, unreadable rows⟩)
  | finished {tables : MemoryTables} {moments deletes : List Moment}
      {rows : List (RowResult DetailKey RawCounters)}
      (walk : detail.Walk tables.detail.rows.keys moments rows)
      (complete : unreadable rows = 0)
      (deletions : Deletions ((stale listed rows).map Prod.fst) deletes) :
      Settled listed (⟨tables, .detail (.iterate (.ok ()))⟩ :: (moments ++ deletes))
        (.ok ⟨(readable listed).length, deletes.countP removes, deletes.countP findsGone,
          unreadable listed + deletes.countP isRefused, 0⟩)

/-- The history of a whole pass and its answer. Whether a table is available is looked at
when its walk starts. -/
inductive Stages : List Moment → Except QueryError CleanupReport → Prop
  | noTags {tables : MemoryTables} {cause : StoreError} :
      Stages [⟨tables, .cookieTags (.iterate (.error cause))⟩]
        (.error (.tableUnavailable .cookieTags cause))
  | listed {tables : MemoryTables} {moments history : List Moment}
      {listed : List (RowResult UInt64 SocketTag)}
      {answer : Except QueryError CleanupReport}
      (walk : cookieTags.Walk tables.cookieTags.rows.keys moments listed)
      (rest : Settled listed history answer) :
      Stages (⟨tables, .cookieTags (.iterate (.ok ()))⟩ :: (moments ++ history)) answer

def Listing.add (l : Listing) : RowResult UInt64 SocketTag → Listing
  | .ok entry => { l with tags := l.tags.push entry }
  | .error _ => { l with unreadable := l.unreadable + 1 }

theorem handles_listTag : SharedTables.Handles listTag Listing.add := by
  intro l r s
  cases r with
  | error e => exact ⟨rfl, rfl⟩
  | ok entry => exact ⟨rfl, rfl⟩

theorem foldl_listing_add (rows : List (RowResult UInt64 SocketTag)) (l : Listing) :
    rows.foldl Listing.add l =
      ⟨l.tags ++ (readable rows).toArray, l.unreadable + unreadable rows⟩ := by
  induction rows generalizing l with
  | nil => simp [readable, unreadable]
  | cons r rows ih =>
      rw [List.foldl_cons, ih]
      cases r with
      | error e =>
          simp only [Listing.add, readable_cons_error, unreadable_cons_error, Listing.mk.injEq,
            true_and]
          omega
      | ok entry => simp [Listing.add]

def LiveTags.add (l : LiveTags) : RowResult DetailKey RawCounters → LiveTags
  | .ok (k, _) => { l with tags := k.socketTag :: l.tags }
  | .error _ => { l with unreadable := l.unreadable + 1 }

theorem handles_noteLive : SharedTables.Handles noteLive LiveTags.add := by
  intro l r s
  cases r with
  | error e => exact ⟨rfl, rfl⟩
  | ok row => exact ⟨rfl, rfl⟩

theorem foldl_live_add (rows : List (RowResult DetailKey RawCounters)) (l : LiveTags) :
    rows.foldl LiveTags.add l =
      ⟨(liveTags rows).reverse ++ l.tags, l.unreadable + unreadable rows⟩ := by
  induction rows generalizing l with
  | nil => simp [liveTags, readable, unreadable]
  | cons r rows ih =>
      rw [List.foldl_cons, ih]
      cases r with
      | error e =>
          simp only [LiveTags.add, liveTags, readable_cons_error, unreadable_cons_error,
            LiveTags.mk.injEq, true_and]
          omega
      | ok row => simp [LiveTags.add, liveTags]

/-- The account of a pass after some more entries were examined and the given deletes made. -/
def account (report : CleanupReport) (examined : Nat) (deletes : List Moment) : CleanupReport :=
  ⟨report.scanned + examined, report.deleted + deletes.countP removes,
    report.alreadyAbsent + deletes.countP findsGone, report.failed + deletes.countP isRefused,
    report.unreadableRows⟩

theorem account_account (report : CleanupReport) (m n : Nat) (deletes more : List Moment) :
    account (account report m deletes) n more = account report (m + n) (deletes ++ more) := by
  simp only [account, List.countP_append, Nat.add_assoc]

variable {live : List SocketTag} {entry : UInt64 × SocketTag}

theorem removeStale_of_mem (h : entry.2 ∈ live) (report : CleanupReport)
    (s : Session SharedTables) :
    removeStale (SharedTables.access .cookieTags) live report entry s =
      (account report 1 [], s) := by
  simp only [removeStale, if_pos h]
  rfl

theorem removeStale_of_notMem (h : entry.2 ∉ live) (report : CleanupReport)
    (s : Session SharedTables) :
    ∃ m, m = deletion entry.1 m.tables ∧
      (removeStale (SharedTables.access .cookieTags) live report entry s).1 =
        account report 1 [m] ∧
      (removeStale (SharedTables.access .cookieTags) live report entry s).2.tables.history.toList
        = s.tables.history.toList ++ [m] := by
  generalize ht : SharedTables.atCall cookieTags .delete s = tables
  have history := SharedTables.history_afterCall cookieTags .delete s
    (.delete entry.1 (tables.cookieTags.delete entry.1).1)
    (cookieTags.set tables (tables.cookieTags.delete entry.1).2)
  refine ⟨deletion entry.1 tables, rfl, ?_⟩
  simp only [removeStale, if_neg h, Query.bind_apply, SharedTables.delete_apply, ht]
  rw [ht] at history
  have get_eq : cookieTags.get tables = tables.cookieTags := rfl
  simp only [get_eq]
  obtain ⟨-, e, he⟩ | ⟨-, ⟨slot, found, hd⟩ | ⟨gone, hd⟩⟩ :=
    tables.cookieTags.delete_cases entry.1
  · obtain ⟨removes, findsGone, isRefused⟩ := flags_of_refused he
    simp only [he] at history ⊢
    exact ⟨by simp [account, Query.bind_apply, Query.pure_apply, removes, findsGone, isRefused],
      history.trans (by rw [deletion, he]; rfl)⟩
  · obtain ⟨removes, findsGone, isRefused⟩ := flags_of_deleted found hd
    simp only [hd] at history ⊢
    exact ⟨by simp [account, Query.pure_apply, removes, findsGone, isRefused],
      history.trans (by rw [deletion, hd]; rfl)⟩
  · obtain ⟨removes, findsGone, isRefused⟩ := flags_of_gone gone hd
    simp only [hd] at history ⊢
    exact ⟨by simp [account, Query.pure_apply, removes, findsGone, isRefused],
      history.trans (by rw [deletion, hd]; rfl)⟩

/-- Examining a list of entries deletes the stale ones among them, in their order. -/
theorem foldlM_removeStale (live : List SocketTag) (entries : List (UInt64 × SocketTag))
    (report : CleanupReport) (s : Session SharedTables) :
    ∃ deletes, Deletions ((entries.filter fun entry => entry.2 ∉ live).map Prod.fst) deletes ∧
      (entries.foldlM (removeStale (SharedTables.access .cookieTags) live) report s).1 =
        account report entries.length deletes ∧
      (entries.foldlM (removeStale (SharedTables.access .cookieTags) live) report
          s).2.tables.history.toList = s.tables.history.toList ++ deletes := by
  induction entries generalizing report s with
  | nil => exact ⟨[], .nil, rfl, (List.append_nil _).symm⟩
  | cons entry entries ih =>
      rw [List.foldlM_cons, Query.bind_apply, List.length_cons, Nat.add_comm]
      by_cases h : entry.2 ∈ live
      · rw [removeStale_of_mem h, List.filter_cons_of_neg (by simpa using h)]
        obtain ⟨deletes, deletions, answer, history⟩ := ih (account report 1 []) s
        exact ⟨deletes, deletions, answer.trans (account_account ..), history⟩
      · rw [List.filter_cons_of_pos (by simpa using h), List.map_cons]
        obtain ⟨m, hm, settled, first⟩ := removeStale_of_notMem h report s
        obtain ⟨deletes, deletions, answer, history⟩ := ih (account report 1 [m])
          (removeStale (SharedTables.access .cookieTags) live report entry s).2
        rw [settled]
        refine ⟨m :: deletes, ?_, answer.trans (account_account ..), ?_⟩
        · rw [hm]
          exact .cons entry.1 m.tables deletions
        · rw [history, first, List.append_assoc]
          rfl

variable {rows : List (RowResult DetailKey RawCounters)}

/-- What a walk over the tag table leaves to be examined. -/
def listingOf (listed : List (RowResult UInt64 SocketTag)) : Listing :=
  ⟨(readable listed).toArray, unreadable listed⟩

def liveOf (rows : List (RowResult DetailKey RawCounters)) : LiveTags :=
  ⟨(liveTags rows).reverse, unreadable rows⟩

theorem sweep_of_incomplete (listed : List (RowResult UInt64 SocketTag))
    (incomplete : 0 < unreadable rows) (s : Session SharedTables) :
    (sweep (SharedTables.access .cookieTags) (listingOf listed) (liveOf rows) s).1 =
        ⟨(readable listed).length, 0, 0, unreadable listed, unreadable rows⟩ ∧
      (sweep (SharedTables.access .cookieTags) (listingOf listed) (liveOf rows) s).2.tables =
        s.tables := by
  rw [sweep, if_pos (show 0 < (liveOf rows).unreadable from incomplete)]
  exact ⟨rfl, rfl⟩

theorem sweep_of_complete (listed : List (RowResult UInt64 SocketTag))
    (complete : unreadable rows = 0) (s : Session SharedTables) :
    ∃ deletes, Deletions ((stale listed rows).map Prod.fst) deletes ∧
      (sweep (SharedTables.access .cookieTags) (listingOf listed) (liveOf rows) s).1 =
        ⟨(readable listed).length, deletes.countP removes, deletes.countP findsGone,
          unreadable listed + deletes.countP isRefused, 0⟩ ∧
      (sweep (SharedTables.access .cookieTags) (listingOf listed) (liveOf rows)
        s).2.tables.history.toList = s.tables.history.toList ++ deletes := by
  have entries : (listingOf listed).tags.toList = readable listed := by simp [listingOf]
  obtain ⟨deletes, deletions, answer, history⟩ :=
    foldlM_removeStale (liveOf rows).tags (listingOf listed).tags.toList
      { CleanupReport.zero with failed := (listingOf listed).unreadable } s
  have nothing : ¬ 0 < (liveOf rows).unreadable := by
    change ¬ 0 < unreadable rows
    omega
  rw [sweep, if_neg nothing]
  refine ⟨deletes, ?_, answer.trans ?_, history⟩
  · simpa only [entries, stale, liveOf, List.mem_reverse] using deletions
  · simp only [account, entries, CleanupReport.zero, Nat.zero_add]
    rfl

/-- The walk over the tag table comes to a listing of its rows. -/
theorem foldRows_listTag (keys : List UInt64) (s : Session SharedTables) :
    ∃ moments listed, cookieTags.Walk keys moments listed ∧
      ((SharedTables.access .cookieTags).foldRows listTag (keys.map .key) ⟨#[], 0⟩ s).1 =
        listingOf listed ∧
      ((SharedTables.access .cookieTags).foldRows listTag (keys.map .key) ⟨#[], 0⟩
        s).2.tables.history.toList = s.tables.history.toList ++ moments := by
  obtain ⟨moments, listed, walk, answer, history⟩ :=
    SharedTables.foldRows_walk cookieTags handles_listTag keys ⟨#[], 0⟩ s
  refine ⟨moments, listed, walk, answer.trans ?_, history⟩
  simp [foldl_listing_add, listingOf]

theorem foldRows_noteLive (keys : List DetailKey) (s : Session SharedTables) :
    ∃ moments rows, detail.Walk keys moments rows ∧
      ((SharedTables.access .detail).foldRows noteLive (keys.map .key) ⟨[], 0⟩ s).1 =
        liveOf rows ∧
      ((SharedTables.access .detail).foldRows noteLive (keys.map .key) ⟨[], 0⟩
        s).2.tables.history.toList = s.tables.history.toList ++ moments := by
  obtain ⟨moments, rows, walk, answer, history⟩ :=
    SharedTables.foldRows_walk detail handles_noteLive keys ⟨[], 0⟩ s
  refine ⟨moments, rows, walk, answer.trans ?_, history⟩
  simp [foldl_live_add, liveOf]

theorem settle_stages (listed : List (RowResult UInt64 SocketTag)) (s : Session SharedTables) :
    ∃ history,
      (settle (SharedTables.access .cookieTags) (SharedTables.access .detail)
          (listingOf listed) s).2.tables.history.toList = s.tables.history.toList ++ history ∧
      Settled listed history
        (settle (SharedTables.access .cookieTags) (SharedTables.access .detail)
          (listingOf listed) s).1 := by
  obtain ⟨tables, s₁, ⟨cause, hstart, start⟩ | ⟨hstart, start⟩⟩ :=
    SharedTables.iterate_cases detail s
  · rw [settle, Query.bind_apply, hstart]
    exact ⟨_, start, .noDetail⟩
  · obtain ⟨moments, rows, walk, live, walked⟩ := foldRows_noteLive tables.detail.rows.keys s₁
    generalize hs₂ : ((SharedTables.access detail).foldRows noteLive
      (tables.detail.rows.keys.map .key) ⟨[], 0⟩ s₁).2 = s₂ at walked
    have answer : settle (SharedTables.access .cookieTags) (SharedTables.access .detail)
        (listingOf listed) s =
          (.ok (sweep (SharedTables.access .cookieTags) (listingOf listed) (liveOf rows) s₂).1,
            (sweep (SharedTables.access .cookieTags) (listingOf listed) (liveOf rows) s₂).2) := by
      rw [settle, Query.bind_apply, hstart, ← live, ← hs₂]
      rfl
    rw [answer]
    rcases Nat.eq_zero_or_pos (unreadable rows) with complete | incomplete
    · obtain ⟨deletes, deletions, report, swept⟩ :=
        sweep_of_complete listed complete s₂
      rw [report]
      refine ⟨_, ?_, .finished walk complete deletions⟩
      rw [swept, walked, start, List.append_assoc, List.append_assoc]
      rfl
    · obtain ⟨report, frame⟩ := sweep_of_incomplete listed incomplete s₂
      rw [report]
      refine ⟨_, ?_, .refused walk incomplete⟩
      rw [frame, walked, start, List.append_assoc]
      rfl

/-- Every pass over shared tables goes through the stages, whatever edits are made between
its calls. -/
theorem pass_stages (s : Session SharedTables) :
    ∃ history,
      (pass (SharedTables.access .cookieTags) (SharedTables.access .detail)
          s).2.tables.history.toList = s.tables.history.toList ++ history ∧
      Stages history
        (pass (SharedTables.access .cookieTags) (SharedTables.access .detail) s).1 := by
  obtain ⟨tables, s₁, ⟨cause, hstart, start⟩ | ⟨hstart, start⟩⟩ :=
    SharedTables.iterate_cases cookieTags s
  · rw [pass, Query.bind_apply, hstart]
    exact ⟨_, start, .noTags⟩
  · obtain ⟨moments, listed, walk, listing, walked⟩ :=
      foldRows_listTag tables.cookieTags.rows.keys s₁
    generalize hs₂ : ((SharedTables.access cookieTags).foldRows listTag
      (tables.cookieTags.rows.keys.map .key) ⟨#[], 0⟩ s₁).2 = s₂ at walked
    have answer : pass (SharedTables.access .cookieTags) (SharedTables.access .detail) s =
        settle (SharedTables.access .cookieTags) (SharedTables.access .detail)
          (listingOf listed) s₂ := by
      rw [pass, Query.bind_apply, hstart, ← listing, ← hs₂]
      rfl
    rw [answer]
    obtain ⟨history, settled, rest⟩ := settle_stages listed s₂
    refine ⟨_, ?_, .listed walk rest⟩
    rw [settled, walked, start, List.append_assoc, List.append_assoc]
    rfl

end Cleanup

end TrafficStats
