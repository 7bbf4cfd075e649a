import TrafficStats.Proofs.Cleanup.Deletes

/-!
# Sockets that are tagged anew during a cleanup pass

A pass decides by the tag that it listed, but it deletes by the cookie alone. If another
process stores a new tag under the cookie in between, the delete takes out the new one.
This is shown to be the only way for a pass to lose a tag that is in use, and to happen
whenever the delete is carried out. The window is wide: in the pass at the end of this file
the new tag is stored before the tags in use are even looked for.
-/

namespace TrafficStats.Cleanup

open RowResult Moment

/-- Whether a detail row of an owner and tag is there and readable throughout a pass. -/
def InUse (history : List Moment) (tag : SocketTag) : Prop :=
  ∃ k : DetailKey, k.socketTag = tag ∧
    ∀ m ∈ history, ∃ raw, m.tables.detail.rows.get? k = some (.live raw)

variable {history : List Moment} {answer : Except QueryError CleanupReport}

/-- A decided pass knows the tags in use as such. -/
theorem Stages.mem_liveTags_of_inUse (h : Stages history answer)
    (decided : Decided history answer) {tag : SocketTag} (used : InUse history tag) :
    tag ∈ liveTags (detailRowsIn history) := by
  obtain ⟨k, counts, present⟩ := used
  obtain ⟨⟨report, ok⟩, -⟩ := decided
  rw [mem_liveTags]
  rcases h.exists_row_of_present fun m hm _ => present m hm with ⟨e, failed⟩ | ⟨raw, hrow⟩
  · rw [ok] at failed
    cases failed
  · exact ⟨k, raw, hrow, counts⟩

/-- What a pass goes to delete was listed with a tag that is not in use. -/
theorem Stages.exists_listed_of_delete (h : Stages history answer) {m : Moment}
    (hm : m ∈ history) {cookie : UInt64} (hdelete : m.deletedCookie? = some cookie) :
    ∃ old, .ok (cookie, old) ∈ listedIn history ∧ ¬ InUse history old := by
  by_cases decided : Decided history answer
  · have deleted : cookie ∈ deletesIn history := List.mem_filterMap.mpr ⟨m, hm, hdelete⟩
    rw [h.ends.deletesIn_eq decided, mem_map_stale] at deleted
    obtain ⟨old, listed, unused⟩ := deleted
    refine ⟨old, listed, ?_⟩
    intro used
    obtain ⟨k, raw, hrow, counts⟩ := mem_liveTags.mp (h.mem_liveTags_of_inUse decided used)
    exact unused k raw hrow counts
  · have quiet := h.ends.noDeletes decided
    rw [quiet.deletedCookie?_eq_none hm] at hdelete
    cases hdelete

/-- A delete takes out a tag that is in use exactly if the socket was tagged anew since it was
listed and the delete is carried out. -/
theorem removal?_eq_in_use_iff (tables : MemoryTables) (schedule : List Intervention)
    {m : Moment} (hm : m ∈ historyOf tables schedule) {cookie : UInt64} {tag : SocketTag}
    (used : InUse (historyOf tables schedule) tag) :
    m.removal? = some (cookie, .live tag) ↔
      m.deletedCookie? = some cookie ∧
        (m.tables.cookieTags.unavailable = false ∧
          m.tables.cookieTags.refusesDelete cookie = false) ∧
        m.tables.cookieTags.rows.get? cookie = some (.live tag) ∧
        ∃ old, old ≠ tag ∧ .ok (cookie, old) ∈ listedIn (historyOf tables schedule) := by
  have stages := stages_passOn tables schedule
  constructor
  · intro removed
    obtain ⟨cookie', hdelete, -⟩ := Option.bind_eq_some_iff.mp removed
    obtain ⟨_, eq⟩ := stages.ends.exists_deletion hm (isDelete_of_deletedCookie? hdelete)
    rw [eq] at removed
    obtain ⟨rfl, found, available, accepted⟩ := removal?_deletion_eq_some_iff.mp removed
    have hdelete : m.deletedCookie? = some cookie := by rw [eq, deletedCookie?_deletion]
    obtain ⟨old, listed, unused⟩ := stages.exists_listed_of_delete hm hdelete
    refine ⟨hdelete, ⟨available, accepted⟩, found, old, ?_, listed⟩
    rintro rfl
    exact unused used
  · rintro ⟨hdelete, ⟨available, accepted⟩, found, -⟩
    obtain ⟨cookie', eq⟩ := stages.ends.exists_deletion hm (isDelete_of_deletedCookie? hdelete)
    rw [eq, deletedCookie?_deletion] at hdelete
    cases hdelete
    rw [eq]
    exact removal?_deletion_eq_some_iff.mpr ⟨rfl, found, available, accepted⟩

/-- A socket with the tag 1 of owner 1, for which no detail row counts, while one counts for
the tag 2 of owner 2. -/
def staleSocket : MemoryTables :=
  { MemoryTables.empty with
    cookieTags := .ofList [(1, ⟨1, 1⟩)]
    detail := .ofList [(⟨2, 2, 5⟩, ⟨10, 1, 10, 1⟩)] }

/-- Another process tags the socket anew before the detail rows are looked at. -/
def tagAnew : List Intervention :=
  [⟨.detail, .iterate, 1, [.cookieTags (.insert 1 ⟨2, 2⟩)]⟩]

/-- The tag that the other process stored is in use all the time, and the pass removes it. -/
theorem retagged_in_use_removed :
    InUse (historyOf staleSocket tagAnew) ⟨2, 2⟩ ∧
      ∃ m ∈ historyOf staleSocket tagAnew, m.removal? = some (1, .live ⟨2, 2⟩) := by
  have used : InUse (historyOf staleSocket tagAnew) ⟨2, 2⟩ := by
    refine ⟨⟨2, 2, 5⟩, rfl, ?_⟩
    intro m hm
    have present : (historyOf staleSocket tagAnew).map
        (fun m => m.tables.detail.rows.get? ⟨2, 2, 5⟩) =
          List.replicate 7 (some (.live ⟨10, 1, 10, 1⟩)) := rfl
    exact ⟨_, List.eq_of_mem_replicate (present ▸ List.mem_map_of_mem hm)⟩
  refine ⟨used, _, List.mem_of_getElem? (i := 6) rfl, ?_⟩
  rw [removal?_eq_in_use_iff staleSocket tagAnew (List.mem_of_getElem? (i := 6) rfl) used]
  exact ⟨rfl, ⟨rfl, rfl⟩, rfl, ⟨1, 1⟩, by decide, List.mem_of_getElem? (i := 0) rfl⟩

end TrafficStats.Cleanup
