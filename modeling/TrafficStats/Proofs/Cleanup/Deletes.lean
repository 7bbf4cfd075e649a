import TrafficStats.Proofs.Cleanup.Stages

/-!
# What a cleanup pass deletes

A pass decides by what its two walks delivered: it deletes the listed tags that no
delivered detail row counts for, each of them once, and nothing at all if it fails or if a
detail row could not be read. `DeletesStale` says so in terms of the history of a pass, and
every pass over any tables, under every schedule of edits by other processes, is proved to
be of this kind. A tag that keeps its value and whose detail row stays in place during the
second walk is therefore safe, whatever else happens.
-/

namespace TrafficStats.Cleanup

open TableField RowResult Moment

/-- A pass over the given tables while other processes act as scheduled: its answer, and the
session that it leaves behind. -/
def passOn (tables : MemoryTables) (schedule : List Intervention) :
    Except QueryError CleanupReport × Session SharedTables :=
  pass (SharedTables.access .cookieTags) (SharedTables.access .detail)
    (Session.start ⟨tables, schedule, #[]⟩)

def answerOf (tables : MemoryTables) (schedule : List Intervention) :
    Except QueryError CleanupReport :=
  (passOn tables schedule).1

/-- The calls that such a pass made, with the tables as each of them found them. -/
def historyOf (tables : MemoryTables) (schedule : List Intervention) : List Moment :=
  (passOn tables schedule).2.tables.history.toList

theorem stages_passOn (tables : MemoryTables) (schedule : List Intervention) :
    Stages (historyOf tables schedule) (answerOf tables schedule) := by
  obtain ⟨history, eq, stages⟩ := pass_stages (Session.start ⟨tables, schedule, #[]⟩)
  have same : historyOf tables schedule = history := eq
  rw [same]
  exact stages

/-- The rows of the tag table that a pass was given. -/
def listedIn (history : List Moment) : List (RowResult UInt64 SocketTag) :=
  history.filterMap tagRow?

/-- The rows of the detail table that a pass was given. -/
def detailRowsIn (history : List Moment) : List (RowResult DetailKey RawCounters) :=
  history.filterMap detailRow?

/-- The cookies whose tags a pass went to delete. -/
def deletesIn (history : List Moment) : List UInt64 :=
  history.filterMap deletedCookie?

def NoDeletes (history : List Moment) : Prop :=
  ∀ m ∈ history, m.isDelete = false

theorem isDelete_of_deletedCookie? {m : Moment} {cookie : UInt64}
    (h : m.deletedCookie? = some cookie) : m.isDelete = true := by
  obtain ⟨tables, call⟩ := m
  unfold deletedCookie? at h
  split at h
  · rename_i eq
    simp only at eq
    rw [eq]
    rfl
  · cases h

namespace NoDeletes

variable {history : List Moment}

theorem deletedCookie?_eq_none (h : NoDeletes history) {m : Moment} (hm : m ∈ history) :
    m.deletedCookie? = none := by
  cases hc : m.deletedCookie? with
  | none => rfl
  | some cookie =>
      have isDelete := isDelete_of_deletedCookie? hc
      rw [h m hm] at isDelete
      cases isDelete

theorem deletesIn_eq_nil (h : NoDeletes history) : deletesIn history = [] := by
  rw [deletesIn, List.filterMap_eq_nil_iff]
  intro m hm
  exact h.deletedCookie?_eq_none hm

theorem countP_removes (h : NoDeletes history) : history.countP removes = 0 := by
  rw [List.countP_eq_zero]
  intro m hm
  simp [removes, removal?, h.deletedCookie?_eq_none hm]

theorem append {more : List Moment} (h : NoDeletes history) (hm : NoDeletes more) :
    NoDeletes (history ++ more) := by
  intro m mem
  rcases List.mem_append.mp mem with mem | mem
  · exact h m mem
  · exact hm m mem

theorem cons {m : Moment} (hm : m.isDelete = false) (h : NoDeletes history) :
    NoDeletes (m :: history) := by
  intro m' mem
  rcases List.mem_cons.mp mem with rfl | mem
  · exact hm
  · exact h m' mem

theorem nil : NoDeletes [] := by
  intro m hm
  cases hm

theorem of_walk {K V : Type} [Ranked K] {field : TableField K V} {keys : List K}
    {rows : List (RowResult K V)} (walk : field.Walk keys history rows)
    (hfield : ∀ tables answer, (⟨tables, field.event (.next answer)⟩ : Moment).isDelete = false) :
    NoDeletes history := by
  intro m hm
  obtain ⟨answer, hcall⟩ := walk.exists_event m hm
  obtain ⟨tables, call⟩ := m
  cases hcall
  exact hfield tables answer

end NoDeletes

variable {listed : List (RowResult UInt64 SocketTag)}
variable {rows : List (RowResult DetailKey RawCounters)}
variable {history moments : List Moment} {answer : Except QueryError CleanupReport}

theorem detailRowsIn_start (tables : MemoryTables) (start : Except StoreError Unit)
    (moments : List Moment) :
    detailRowsIn (⟨tables, .detail (.iterate start)⟩ :: moments) = detailRowsIn moments := rfl

theorem listedIn_start (tables : MemoryTables) (start : Except StoreError Unit)
    (moments : List Moment) :
    listedIn (⟨tables, .cookieTags (.iterate start)⟩ :: moments) = listedIn moments := rfl

theorem detailRowsIn_walk {keys : List DetailKey} (walk : detail.Walk keys moments rows) :
    detailRowsIn moments = rows :=
  walk.filterMap_moments fun _ _ => rfl

theorem listedIn_walk {keys : List UInt64} (walk : cookieTags.Walk keys moments listed) :
    listedIn moments = listed :=
  walk.filterMap_moments fun _ _ => rfl

theorem detailRowsIn_append (history more : List Moment) :
    detailRowsIn (history ++ more) = detailRowsIn history ++ detailRowsIn more :=
  List.filterMap_append

theorem listedIn_append (history more : List Moment) :
    listedIn (history ++ more) = listedIn history ++ listedIn more :=
  List.filterMap_append

theorem deletesIn_append (history more : List Moment) :
    deletesIn (history ++ more) = deletesIn history ++ deletesIn more :=
  List.filterMap_append

/-- After the tags were listed, no more rows of the tag table are looked at. -/
theorem Settled.listedIn_eq_nil (h : Settled listed history answer) : listedIn history = [] := by
  cases h with
  | noDetail => rfl
  | refused walk incomplete => exact walk.filterMap_moments_eq_nil fun _ _ => rfl
  | @finished _ moments deletes _ walk complete deletions =>
      have walked : listedIn moments = [] := walk.filterMap_moments_eq_nil fun _ _ => rfl
      have deleted : listedIn deletes = [] := deletions.filterMap_eq_nil fun _ _ => rfl
      change listedIn (moments ++ deletes) = []
      rw [listedIn_append, walked, deleted, List.append_nil]

/-- The listing is told apart from what comes after it. -/
theorem listedIn_stages {keys : List UInt64} (tables : MemoryTables)
    (walk : cookieTags.Walk keys moments listed) (settled : Settled listed history answer) :
    listedIn (⟨tables, .cookieTags (.iterate (.ok ()))⟩ :: (moments ++ history)) = listed := by
  rw [listedIn_start, listedIn_append, listedIn_walk walk, settled.listedIn_eq_nil,
    List.append_nil]

/-- How a pass ends: without any delete if it failed or could not read all detail rows, and
otherwise with the deletes of the stale tags. -/
inductive Ends (listed : List (RowResult UInt64 SocketTag)) :
    List Moment → Except QueryError CleanupReport → Prop
  | failed {history : List Moment} {e : QueryError} (quiet : NoDeletes history) :
      Ends listed history (.error e)
  | refused {history : List Moment} (quiet : NoDeletes history)
      (incomplete : 0 < unreadable (detailRowsIn history)) :
      Ends listed history (.ok ⟨(readable listed).length, 0, 0, unreadable listed,
        unreadable (detailRowsIn history)⟩)
  | swept {front deletes : List Moment} (quiet : NoDeletes front)
      (complete : unreadable (detailRowsIn front) = 0)
      (deletions : Deletions ((stale listed (detailRowsIn front)).map Prod.fst) deletes) :
      Ends listed (front ++ deletes)
        (.ok ⟨(readable listed).length, deletes.countP removes, deletes.countP findsGone,
          unreadable listed + deletes.countP isRefused, 0⟩)

theorem Settled.ends (h : Settled listed history answer) : Ends listed history answer := by
  cases h with
  | noDetail => exact .failed (.cons rfl .nil)
  | @refused tables moments rows walk incomplete =>
      have walked := detailRowsIn_start tables (.ok ()) moments
      rw [detailRowsIn_walk walk] at walked
      rw [← walked] at incomplete ⊢
      exact .refused (.cons rfl (.of_walk walk fun _ _ => rfl)) incomplete
  | @finished tables moments deletes rows walk complete deletions =>
      have walked := detailRowsIn_start tables (.ok ()) moments
      rw [detailRowsIn_walk walk] at walked
      rw [← walked] at complete deletions
      exact .swept (.cons rfl (.of_walk walk fun _ _ => rfl)) complete deletions

/-- A detail row that is there and readable at the start of a walk and at all of its steps is
delivered. -/
theorem exists_row_of_walk {tables : MemoryTables} {k : DetailKey}
    (walk : detail.Walk tables.detail.rows.keys moments rows)
    (start : ∃ raw, tables.detail.rows.get? k = some (.live raw))
    (present : ∀ m ∈ moments, m.isDetail = true →
      ∃ raw, m.tables.detail.rows.get? k = some (.live raw)) :
    ∃ raw, .ok (k, raw) ∈ detailRowsIn moments := by
  obtain ⟨raw, found⟩ := start
  have visited := (Rows.mem_keys_iff tables.detail.rows k).mpr ⟨_, found⟩
  rw [detailRowsIn_walk walk]
  refine walk.exists_ok_of_present visited fun m hm => present m hm ?_
  obtain ⟨answer, hcall⟩ := walk.exists_event m hm
  rw [Moment.isDetail, hcall]
  rfl

theorem Settled.exists_row_of_present (h : Settled listed history answer) {k : DetailKey}
    (present : ∀ m ∈ history, m.isDetail = true →
      ∃ raw, m.tables.detail.rows.get? k = some (.live raw)) :
    (∃ e, answer = .error e) ∨ ∃ raw, .ok (k, raw) ∈ detailRowsIn history := by
  cases h with
  | noDetail => exact .inl ⟨_, rfl⟩
  | @refused tables moments rows walk incomplete =>
      have start := present _ List.mem_cons_self rfl
      rw [detailRowsIn_start]
      exact .inr (exists_row_of_walk walk start fun m hm =>
        present m (List.mem_cons_of_mem _ hm))
  | @finished tables moments deletes rows walk complete deletions =>
      have start := present _ List.mem_cons_self rfl
      obtain ⟨raw, hraw⟩ := exists_row_of_walk walk start fun m hm =>
        present m (List.mem_cons_of_mem _ (List.mem_append_left _ hm))
      refine .inr ⟨raw, ?_⟩
      rw [detailRowsIn_start, detailRowsIn_append]
      exact List.mem_append_left _ hraw

theorem Deletions.detailRowsIn_eq_nil {cookies : List UInt64} (h : Deletions cookies moments) :
    detailRowsIn moments = [] :=
  h.filterMap_eq_nil fun _ _ => rfl

/-- A pass that answers has been given the detail table to its end. -/
theorem Settled.enumerated (h : Settled listed history answer) {report : CleanupReport}
    (ok : answer = .ok report) : detail.Enumerated history (detailRowsIn history) := by
  cases h with
  | noDetail => cases ok
  | @refused tables moments rows walk incomplete =>
      rw [detailRowsIn_start, detailRowsIn_walk walk]
      exact ⟨tables, moments, walk, List.Sublist.refl _⟩
  | @finished tables moments deletes rows walk complete deletions =>
      rw [detailRowsIn_start, detailRowsIn_append, detailRowsIn_walk walk,
        deletions.detailRowsIn_eq_nil, List.append_nil]
      exact ⟨tables, moments, walk, (List.sublist_append_left moments deletes).cons_cons _⟩

theorem Ends.prepend {front : List Moment} (h : Ends listed history answer)
    (quiet : NoDeletes front) (noRows : detailRowsIn front = []) :
    Ends listed (front ++ history) answer := by
  have same (more : List Moment) : detailRowsIn (front ++ more) = detailRowsIn more := by
    rw [detailRowsIn_append, noRows, List.nil_append]
  cases h with
  | failed quiet' => exact .failed (quiet.append quiet')
  | refused quiet' incomplete =>
      rw [← same] at incomplete ⊢
      exact .refused (quiet.append quiet') incomplete
  | swept quiet' complete deletions =>
      rw [← List.append_assoc]
      rw [← same] at complete deletions
      exact .swept (quiet.append quiet') complete deletions

namespace Stages

theorem ends (h : Stages history answer) : Ends (listedIn history) history answer := by
  cases h with
  | noTags => exact .failed (.cons rfl .nil)
  | @listed tables moments rest listed _ walk settled =>
      rw [listedIn_stages tables walk settled, ← List.cons_append]
      refine settled.ends.prepend (.cons rfl (.of_walk walk fun _ _ => rfl)) ?_
      exact walk.filterMap_moments_eq_nil fun _ _ => rfl

/-- No cookie is listed twice. -/
theorem listed_nodup (h : Stages history answer) :
    ((readable (listedIn history)).map Prod.fst).Nodup := by
  cases h with
  | noTags => exact List.nodup_nil
  | @listed tables moments rest listed _ walk settled =>
      rw [listedIn_stages tables walk settled]
      exact walk.readable_nodup tables.cookieTags.rows.sorted_keys

/-- A pass that answers has been given both tables to their ends. -/
theorem enumerated (h : Stages history answer) {report : CleanupReport}
    (ok : answer = .ok report) :
    cookieTags.Enumerated history (listedIn history) ∧
      detail.Enumerated history (detailRowsIn history) := by
  cases h with
  | noTags => cases ok
  | @listed tables moments rest listed _ walk settled =>
      rw [listedIn_stages tables walk settled]
      refine ⟨⟨tables, moments, walk, (List.sublist_append_left moments rest).cons_cons _⟩, ?_⟩
      have walked : detailRowsIn moments = [] := walk.filterMap_moments_eq_nil fun _ _ => rfl
      have rows : detailRowsIn (⟨tables, .cookieTags (.iterate (.ok ()))⟩ :: (moments ++ rest)) =
          detailRowsIn rest := by
        change detailRowsIn (moments ++ rest) = _
        rw [detailRowsIn_append, walked, List.nil_append]
      rw [rows]
      exact (settled.enumerated ok).mono ((List.sublist_append_right moments rest).cons _)

/-- A listed tag was in the table when it was listed. -/
theorem exists_moment_of_listed (h : Stages history answer) {cookie : UInt64} {tag : SocketTag}
    (hmem : .ok (cookie, tag) ∈ listedIn history) :
    ∃ m ∈ history, m.tables.cookieTags.rows.get? cookie = some (.live tag) := by
  cases h with
  | noTags => cases hmem
  | @listed tables moments rest listed _ walk settled =>
      rw [listedIn_stages tables walk settled] at hmem
      obtain ⟨m, hm, found⟩ := walk.exists_moment_of_ok hmem
      exact ⟨m, List.mem_cons_of_mem _ (List.mem_append_left _ hm), found⟩

/-- A detail row that is there and readable whenever the pass looks at the detail table is
delivered to it, unless the pass fails. -/
theorem exists_row_of_present (h : Stages history answer) {k : DetailKey}
    (present : ∀ m ∈ history, m.isDetail = true →
      ∃ raw, m.tables.detail.rows.get? k = some (.live raw)) :
    (∃ e, answer = .error e) ∨ ∃ raw, .ok (k, raw) ∈ detailRowsIn history := by
  cases h with
  | noTags => exact .inl ⟨_, rfl⟩
  | @listed tables moments rest listed _ walk settled =>
      have delivered := settled.exists_row_of_present fun m hm =>
        present m (List.mem_cons_of_mem _ (List.mem_append_right _ hm))
      refine delivered.imp_right ?_
      rintro ⟨raw, hraw⟩
      refine ⟨raw, ?_⟩
      change _ ∈ detailRowsIn (_ :: moments ++ rest)
      rw [detailRowsIn_append]
      exact List.mem_append_right _ hraw

end Stages

/-- Whether a pass has all it needs to decide: it did not fail and could read all detail
rows. -/
def Decided (history : List Moment) (answer : Except QueryError CleanupReport) : Prop :=
  (∃ report, answer = .ok report) ∧ ∀ e, .error e ∉ detailRowsIn history

namespace Ends

theorem noDeletes (h : Ends listed history answer) (undecided : ¬ Decided history answer) :
    NoDeletes history := by
  cases h with
  | failed quiet => exact quiet
  | refused quiet incomplete => exact quiet
  | swept quiet complete deletions =>
      refine absurd ⟨⟨_, rfl⟩, ?_⟩ undecided
      rw [detailRowsIn_append, deletions.detailRowsIn_eq_nil, List.append_nil]
      exact unreadable_eq_zero_iff.mp complete

/-- A decided pass deletes the stale ones of the listed tags, in the order of the listing. -/
theorem deletesIn_eq (h : Ends listed history answer) (decided : Decided history answer) :
    deletesIn history = (stale listed (detailRowsIn history)).map Prod.fst := by
  obtain ⟨⟨report, ok⟩, all⟩ := decided
  cases h with
  | failed quiet => cases ok
  | refused quiet incomplete =>
      rw [unreadable_eq_zero_iff.mpr all] at incomplete
      exact absurd incomplete (Nat.lt_irrefl 0)
  | swept quiet complete deletions =>
      rw [deletesIn_append, quiet.deletesIn_eq_nil, List.nil_append, detailRowsIn_append,
        deletions.detailRowsIn_eq_nil, List.append_nil]
      exact deletions.filterMap_deletedCookie?

theorem deletesIn_nodup (h : Ends listed history answer)
    (nodup : ((readable listed).map Prod.fst).Nodup) : (deletesIn history).Nodup := by
  by_cases decided : Decided history answer
  · rw [h.deletesIn_eq decided]
    exact nodup.sublist (List.filter_sublist.map Prod.fst)
  · rw [(h.noDeletes decided).deletesIn_eq_nil]
    exact List.nodup_nil

/-- All deletes of a pass concern the tag table. -/
theorem exists_deletion (h : Ends listed history answer) {m : Moment} (hm : m ∈ history)
    (isDelete : m.isDelete = true) : ∃ cookie, m = deletion cookie m.tables := by
  have quietly {front : List Moment} (quiet : NoDeletes front) (hm : m ∈ front) :
      ∃ cookie, m = deletion cookie m.tables := by
    rw [quiet m hm] at isDelete
    cases isDelete
  cases h with
  | failed quiet => exact quietly quiet hm
  | refused quiet incomplete => exact quietly quiet hm
  | swept quiet complete deletions =>
      rcases List.mem_append.mp hm with hm | hm
      · exact quietly quiet hm
      · obtain ⟨cookie, -, eq⟩ := deletions.exists_deletion hm
        exact ⟨cookie, eq⟩

theorem unreadableRows_eq (h : Ends listed history answer) {report : CleanupReport}
    (ok : answer = .ok report) : report.unreadableRows = unreadable (detailRowsIn history) := by
  cases h with
  | failed quiet => cases ok
  | refused quiet incomplete =>
      cases ok
      rfl
  | swept quiet complete deletions =>
      cases ok
      rw [detailRowsIn_append, deletions.detailRowsIn_eq_nil, List.append_nil]
      exact complete.symm

theorem report_eq (h : Ends listed history answer) {report : CleanupReport}
    (ok : answer = .ok report) (complete : report.unreadableRows = 0) :
    report.deleted = history.countP removes ∧ unreadable listed ≤ report.failed ∧
      report.scanned = (readable listed).length ∧
      (stale listed (detailRowsIn history)).length =
        report.deleted + report.alreadyAbsent + (report.failed - unreadable listed) := by
  cases h with
  | failed quiet => cases ok
  | refused quiet incomplete =>
      cases ok
      change unreadable _ = 0 at complete
      rw [complete] at incomplete
      exact absurd incomplete (Nat.lt_irrefl 0)
  | @swept front deletes quiet _ deletions =>
      cases ok
      have counted := deletions.length_eq
      rw [List.length_map] at counted
      refine ⟨?_, Nat.le_add_right _ _, rfl, ?_⟩
      · rw [List.countP_append, quiet.countP_removes, Nat.zero_add]
      · rw [detailRowsIn_append, deletions.detailRowsIn_eq_nil, List.append_nil]
        change _ = _ + _ + (_ + _ - _)
        rw [Nat.add_sub_cancel_left]
        exact counted

end Ends

theorem mem_liveTags {tag : SocketTag} :
    tag ∈ liveTags rows ↔ ∃ k raw, .ok (k, raw) ∈ rows ∧ k.socketTag = tag := by
  simp only [liveTags, List.mem_map, mem_readable, Prod.exists]

theorem mem_map_stale {cookie : UInt64} :
    cookie ∈ (stale listed rows).map Prod.fst ↔ ∃ tag, .ok (cookie, tag) ∈ listed ∧
      ∀ k raw, .ok (k, raw) ∈ rows → k.socketTag ≠ tag := by
  simp only [stale, List.mem_map, List.mem_filter, mem_readable, decide_eq_true_iff,
    mem_liveTags]
  constructor
  · rintro ⟨⟨cookie', tag⟩, ⟨hmem, unused⟩, rfl⟩
    exact ⟨tag, hmem, fun k raw hrow eq => unused ⟨k, raw, hrow, eq⟩⟩
  · rintro ⟨tag, hmem, unused⟩
    refine ⟨(cookie, tag), ⟨hmem, ?_⟩, rfl⟩
    rintro ⟨k, raw, hrow, eq⟩
    exact unused k raw hrow eq

/-- A tag that keeps its value while one of its detail rows is there and readable is not deleted:
it was listed with this value, and the row was delivered. -/
theorem Stages.notMem_deletesIn (h : Stages history answer) {cookie : UInt64} {tag : SocketTag}
    {k : DetailKey} (counts : k.socketTag = tag)
    (steady : ∀ m ∈ history, ∀ tag',
      m.tables.cookieTags.rows.get? cookie = some (.live tag') → tag' = tag)
    (present : ∀ m ∈ history, m.isDetail = true →
      ∃ raw, m.tables.detail.rows.get? k = some (.live raw)) : cookie ∉ deletesIn history := by
  intro hmem
  by_cases decided : Decided history answer
  · rw [h.ends.deletesIn_eq decided, mem_map_stale] at hmem
    obtain ⟨tag', hlisted, unused⟩ := hmem
    obtain ⟨m, hm, found⟩ := h.exists_moment_of_listed hlisted
    obtain rfl := steady m hm tag' found
    obtain ⟨⟨report, ok⟩, -⟩ := decided
    rcases h.exists_row_of_present present with ⟨e, failed⟩ | ⟨raw, hrow⟩
    · rw [ok] at failed
      cases failed
    · exact unused k raw hrow counts
  · rw [(h.ends.noDeletes decided).deletesIn_eq_nil] at hmem
    cases hmem

/-- Every listed tag is live or stale. -/
theorem length_readable_eq (listed : List (RowResult UInt64 SocketTag))
    (rows : List (RowResult DetailKey RawCounters)) :
    (readable listed).length =
      (readable listed).countP (fun entry => entry.2 ∈ liveTags rows) +
        (stale listed rows).length := by
  rw [stale, ← List.countP_eq_length_filter]
  have split := List.length_eq_countP_add_countP
    (fun entry : UInt64 × SocketTag => decide (entry.2 ∈ liveTags rows)) (l := readable listed)
  simpa only [decide_not, Bool.not_eq_true, decide_eq_false_iff_not] using split

/-- What a pass promises about its deletes, in terms of the rows that it was delivered. -/
structure DeletesStale (history : List Moment) (answer : Except QueryError CleanupReport) :
    Prop where
  -- A pass that answers has been given both tables to their ends, each by one enumeration.
  enumerated : ∀ report, answer = .ok report →
    cookieTags.Enumerated history (listedIn history) ∧
      detail.Enumerated history (detailRowsIn history)
  -- A pass that is not decided deletes nothing.
  silent : ¬ Decided history answer → NoDeletes history
  -- Any other pass deletes the listed tags that no delivered detail row counts for.
  deletes_iff : Decided history answer → ∀ cookie, cookie ∈ deletesIn history ↔
    ∃ tag, .ok (cookie, tag) ∈ listedIn history ∧
      ∀ k raw, .ok (k, raw) ∈ detailRowsIn history → k.socketTag ≠ tag
  -- No tag is deleted twice, and no other table has anything deleted.
  once : (deletesIn history).Nodup
  only_tags : ∀ m ∈ history, m.isDelete = true → ∃ cookie, m.deletedCookie? = some cookie
  -- A tag that keeps its value is safe if one of its detail rows is there and readable whenever
  -- the pass looks at the detail table.
  safe : ∀ cookie tag k, k.socketTag = tag →
    (∀ m ∈ history, ∀ tag', m.tables.cookieTags.rows.get? cookie = some (.live tag') →
      tag' = tag) →
    (∀ m ∈ history, m.isDetail = true →
      ∃ raw, m.tables.detail.rows.get? k = some (.live raw)) →
    cookie ∉ deletesIn history
  -- The report tells every listed tag apart as kept, deleted, gone or failed.
  report : ∀ report, answer = .ok report →
    report.unreadableRows = unreadable (detailRowsIn history) ∧
      (report.unreadableRows = 0 →
        report.deleted = history.countP removes ∧
        unreadable (listedIn history) ≤ report.failed ∧
        report.scanned =
          (readable (listedIn history)).countP
              (fun entry => entry.2 ∈ liveTags (detailRowsIn history)) +
            report.deleted + report.alreadyAbsent +
            (report.failed - unreadable (listedIn history)))

/-- Every pass keeps its promises, whatever the tables hold and whatever is edited before its
calls. -/
theorem passOn_deletesStale (tables : MemoryTables) (schedule : List Intervention) :
    DeletesStale (historyOf tables schedule) (answerOf tables schedule) := by
  have stages := stages_passOn tables schedule
  have ends := stages.ends
  constructor
  case enumerated => exact fun _ => stages.enumerated
  case silent => exact ends.noDeletes
  case deletes_iff =>
    intro decided cookie
    rw [ends.deletesIn_eq decided]
    exact mem_map_stale
  case once => exact ends.deletesIn_nodup stages.listed_nodup
  case only_tags =>
    intro m hm isDelete
    obtain ⟨cookie, eq⟩ := ends.exists_deletion hm isDelete
    exact ⟨cookie, by rw [eq, deletedCookie?_deletion]⟩
  case safe => exact fun _ _ _ => stages.notMem_deletesIn
  case report =>
    intro report ok
    refine ⟨ends.unreadableRows_eq ok, ?_⟩
    intro complete
    obtain ⟨deleted, failed, scanned, stale⟩ := ends.report_eq ok complete
    refine ⟨deleted, failed, ?_⟩
    have split := length_readable_eq (listedIn (historyOf tables schedule))
      (detailRowsIn (historyOf tables schedule))
    omega

/-- Two tags with a detail row each, one without, and one that cannot be read. -/
def threeSockets : MemoryTables :=
  { MemoryTables.empty with
    detail := .ofList [(⟨10, 7, 1⟩, ⟨1, 1, 1, 1⟩), (⟨10, 9, 1⟩, ⟨2, 1, 2, 1⟩)]
    cookieTags := (MemoryStore.ofList [(1, ⟨10, 7⟩), (2, ⟨10, 8⟩), (3, ⟨10, 9⟩)]).insertMalformed 4
      "short value" }

/-- When the first detail row has been visited, the second one is removed, and a row is stored
for the tag that had none. -/
def movedMeanwhile : List Intervention :=
  [⟨.detail, .next, 2, [.detail (.remove ⟨10, 9, 1⟩), .detail (.insert ⟨10, 8, 1⟩ ⟨3, 1, 3, 1⟩)]⟩]

/-- The keys of a walk are those of its start, so the new row comes too late. -/
theorem passOn_deletesStale_movedMeanwhile :
    DeletesStale (historyOf threeSockets movedMeanwhile) (answerOf threeSockets movedMeanwhile) ∧
      deletesIn (historyOf threeSockets movedMeanwhile) = [2, 3] ∧
      (passOn threeSockets movedMeanwhile).2.tables.tables.cookieTags.rows.keys = [1, 4] ∧
      (answerOf threeSockets movedMeanwhile).toOption = some ⟨3, 2, 0, 1, 0⟩ :=
  ⟨passOn_deletesStale threeSockets movedMeanwhile, by decide +kernel, by decide +kernel,
    by decide +kernel⟩

end TrafficStats.Cleanup
