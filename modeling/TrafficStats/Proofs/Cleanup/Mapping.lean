import TrafficStats.Proofs.Table.Holding

/-!
# Cleanup of a table that keeps a mapping

A cleanup pass over tables that nobody else edits examines all tags, and takes those out of
the mapping from cookies to tags for which there is no detail row. In which order the rows are
delivered makes no difference.
-/

namespace TrafficStats

variable {σ K V α β : Type} {steady : σ → Prop}

open RowResult

namespace Query

/-- Asked while `pre` holds of the tables, a query gives an answer of which `post` holds with
the tables that it leaves. -/
def Leads (pre : σ → Prop) (q : Query σ α) (post : α → σ → Prop) : Prop :=
  ∀ s : Session σ, pre s.tables → post (q s).1 (q s).2.tables

namespace Leads

variable {pre : σ → Prop} {q : Query σ α} {f : α → Query σ β} {mid : α → σ → Prop}
variable {post : β → σ → Prop}

theorem pure {a : α} (h : ∀ s, pre s → mid a s) : Leads pre (Pure.pure a : Query σ α) mid :=
  fun s hs => h s.tables hs

theorem bind (first : Leads pre q mid) (next : ∀ a, Leads (mid a) (f a) post) :
    Leads pre (q >>= f) post := by
  intro s hs
  rw [bind_apply]
  exact next _ _ (first s hs)

theorem ensures_bind {goal : α → Prop} (first : Ensures steady q goal)
    (next : ∀ a, goal a → Leads steady (f a) post) : Leads steady (q >>= f) post := by
  intro s hs
  obtain ⟨answer, still⟩ := first s hs
  rw [bind_apply]
  exact next _ answer _ still

theorem quiet_bind (quiet : ∀ s, (q s).2.tables = s.tables) (next : ∀ a, Leads pre (f a) post) :
    Leads pre (q >>= f) post := by
  intro s hs
  rw [bind_apply]
  apply next
  rw [quiet]
  exact hs

end Leads

end Query

open Query

def without [DecidableEq K] (f : K → Option V) (keys : List K) (k : K) : Option V :=
  if k ∈ keys then none else f k

theorem without_congr [DecidableEq K] {f : K → Option V} {keys keys' : List K}
    (same : ∀ k, k ∈ keys ↔ k ∈ keys') : without f keys = without f keys' := by
  funext k
  simp [without, same]

theorem without_cons [DecidableEq K] (f : K → Option V) (key : K) (keys : List K) :
    without (Function.update f key none) keys = without f (key :: keys) := by
  funext k
  by_cases gone : k ∈ keys
  · simp [without, gone]
  · by_cases same : k = key <;> simp [without, gone, same]

namespace Cleanup

/-- The entries whose tags are not live. -/
def unused (live : List SocketTag) (entries : List (UInt64 × SocketTag)) :
    List (UInt64 × SocketTag) :=
  entries.filter fun entry => entry.2 ∉ live

variable {table : TableAccess σ UInt64 SocketTag} {held : (UInt64 → Option SocketTag) → σ → Prop}
variable {f : UInt64 → Option SocketTag} {entry : UInt64 × SocketTag}

/-- A tag that is live stays. -/
theorem leads_removeStale_of_mem {live : List SocketTag} (used : entry.2 ∈ live)
    (report : CleanupReport) :
    Leads (held f) (removeStale table live report entry) fun report' s =>
      report' = { report with scanned := report.scanned + 1 } ∧ held f s := by
  unfold removeStale
  rw [if_pos used]
  exact .pure fun s hs => ⟨rfl, hs⟩

/-- A tag that is not live is taken out of the mapping. -/
theorem leads_removeStale_of_notMem (keeps : table.Keeps held) {live : List SocketTag}
    (stale : entry.2 ∉ live) (there : f entry.1 = some entry.2) (report : CleanupReport) :
    Leads (held f) (removeStale table live report entry) fun report' s =>
      report' = { report with scanned := report.scanned + 1, deleted := report.deleted + 1 } ∧
        held (Function.update f entry.1 none) s := by
  have deleted : Leads (held f) (onTables (table.delete entry.1)) fun answer s =>
      answer = .ok .deleted ∧ held (Function.update f entry.1 none) s := by
    intro s hs
    obtain ⟨answer, after⟩ := keeps.delete f entry.1 s.tables hs
    rw [there] at answer
    exact ⟨answer, after⟩
  unfold removeStale
  rw [if_neg stale]
  refine deleted.bind fun answer => ?_
  rintro s ⟨rfl, after⟩
  exact ⟨rfl, after⟩

/-- Every listed tag is examined, and those that are not live are taken out of the mapping. -/
theorem leads_foldlM_removeStale (keeps : table.Keeps held) (live : List SocketTag)
    {entries : List (UInt64 × SocketTag)} (nodup : (entries.map Prod.fst).Nodup)
    (there : ∀ entry ∈ entries, f entry.1 = some entry.2) (report : CleanupReport) :
    Leads (held f) (entries.foldlM (removeStale table live) report) fun report' s =>
      report' = { report with
        scanned := report.scanned + entries.length
        deleted := report.deleted + (unused live entries).length } ∧
      held (without f ((unused live entries).map Prod.fst)) s := by
  induction entries generalizing f report with
  | nil =>
      refine .pure fun s hs => ⟨rfl, ?_⟩
      exact hs
  | cons entry entries ih =>
      obtain ⟨absent, nodup⟩ := List.nodup_cons.mp nodup
      have there' : ∀ other ∈ entries, f other.1 = some other.2 :=
        fun other h => there other (List.mem_cons_of_mem _ h)
      rw [List.foldlM_cons]
      by_cases used : entry.2 ∈ live
      · have rest : unused live (entry :: entries) = unused live entries :=
          List.filter_cons_of_neg (by simpa using used)
        refine (leads_removeStale_of_mem used report).bind fun report' => ?_
        rintro s ⟨rfl, before⟩
        obtain ⟨eq, after⟩ := ih nodup there' _ s before
        rw [rest, List.length_cons]
        refine ⟨?_, after⟩
        rw [eq, Nat.add_right_comm]
        rfl
      · have rest : unused live (entry :: entries) = entry :: unused live entries :=
          List.filter_cons_of_pos (by simpa using used)
        have there'' : ∀ other ∈ entries,
            Function.update f entry.1 none other.1 = some other.2 := by
          intro other h
          have ne : other.1 ≠ entry.1 := fun same => absent (same ▸ List.mem_map_of_mem h)
          rw [Function.update_of_ne ne, there' other h]
        have removed := leads_removeStale_of_notMem keeps used (there entry List.mem_cons_self)
          report
        refine removed.bind fun report' => ?_
        rintro s ⟨rfl, before⟩
        obtain ⟨eq, after⟩ := ih nodup there'' _ s before
        rw [rest, List.map_cons, ← without_cons, List.length_cons, List.length_cons]
        refine ⟨?_, after⟩
        rw [eq, Nat.add_right_comm, Nat.add_right_comm report.deleted]
        rfl

def live (rows : List (DetailKey × RawCounters)) : List SocketTag :=
  rows.map fun row => row.1.socketTag

/-- Only which tags are live matters. -/
theorem unused_congr {tags tags' : List SocketTag} (same : ∀ tag, tag ∈ tags ↔ tag ∈ tags')
    (entries : List (UInt64 × SocketTag)) : unused tags entries = unused tags' entries := by
  apply List.filter_congr
  intro entry _
  simp [same]

/-- What has been listed are the tags of the rows so far. -/
structure Listed (done : List (RowResult UInt64 SocketTag)) (l : Listing) : Prop where
  tags : l.tags.toList = readable done
  unreadable : l.unreadable = RowResult.unreadable done

theorem ensures_listTag {done : List (RowResult UInt64 SocketTag)} {l : Listing}
    (h : Listed done l) (r : RowResult UInt64 SocketTag) :
    Ensures steady (listTag l r) (Listed (done ++ [r])) := by
  cases r with
  | ok entry =>
      refine .pure ⟨?_, ?_⟩
      · simp [h.tags]
      · simp [h.unreadable]
  | error e =>
      refine .quiet_bind (fun _ => rfl) fun _ => .pure ⟨?_, ?_⟩
      · simp [h.tags]
      · simp [h.unreadable]

/-- What has been collected are the owners and tags of the rows so far. -/
structure Collected (done : List (RowResult DetailKey RawCounters)) (l : LiveTags) : Prop where
  tags : ∀ tag, tag ∈ l.tags ↔ tag ∈ live (readable done)
  unreadable : l.unreadable = RowResult.unreadable done

theorem ensures_noteLive {done : List (RowResult DetailKey RawCounters)} {l : LiveTags}
    (h : Collected done l) (r : RowResult DetailKey RawCounters) :
    Ensures steady (noteLive l r) (Collected (done ++ [r])) := by
  cases r with
  | ok row =>
      refine .pure ⟨?_, ?_⟩
      · intro tag
        simp [h.tags, live, or_comm, eq_comm]
      · simp [h.unreadable]
  | error e =>
      refine .pure ⟨?_, ?_⟩
      · intro tag
        simp [h.tags]
      · simp [h.unreadable]

/-- If all rows could be read, all listed tags that are not live are removed. -/
theorem leads_sweep (keeps : table.Keeps held) {tags : List (UInt64 × SocketTag)}
    (nodup : (tags.map Prod.fst).Nodup) (there : ∀ entry ∈ tags, f entry.1 = some entry.2)
    {rows : List (DetailKey × RawCounters)} {listing : Listing}
    (listed : Listed (tags.map .ok) listing) {l : LiveTags} (collected : Collected (rows.map .ok) l) :
    Leads (held f) (sweep table listing l) fun report s =>
      report = ⟨tags.length, (unused (live rows) tags).length, 0, 0, 0⟩ ∧
        held (without f ((unused (live rows) tags).map Prod.fst)) s := by
  obtain ⟨listedTags, unlisted⟩ := listed
  obtain ⟨liveTags, uncollected⟩ := collected
  rw [readable_map_ok] at listedTags liveTags
  rw [unreadable_map_ok] at unlisted uncollected
  have complete : ¬ 0 < l.unreadable := by
    rw [uncollected]
    exact Nat.lt_irrefl 0
  unfold sweep
  rw [if_neg complete, listedTags, unlisted]
  refine (leads_foldlM_removeStale keeps l.tags nodup there _).bind fun report => ?_
  refine .quiet_bind (fun _ => rfl) fun _ => .pure ?_
  rintro s ⟨rfl, after⟩
  rw [unused_congr liveTags] at after ⊢
  refine ⟨?_, after⟩
  simp [CleanupReport.zero]

/-- What remains of a mapping without the tags that are not live. -/
theorem without_unused {tags : List (UInt64 × SocketTag)} (nodup : (tags.map Prod.fst).Nodup)
    (used : List SocketTag) (cookie : UInt64) :
    without (fun cookie => tags.lookup cookie) ((unused used tags).map Prod.fst) cookie =
      (tags.lookup cookie).filter fun tag => tag ∈ used := by
  cases found : tags.lookup cookie with
  | none => simp [without, found]
  | some tag =>
      have mem := (lookup_eq_some_iff_of_nodup nodup).mp found
      have gone : cookie ∈ (unused used tags).map Prod.fst ↔ tag ∉ used := by
        rw [List.mem_map]
        constructor
        · rintro ⟨entry, hentry, rfl⟩
          obtain ⟨listed, stale⟩ := List.mem_filter.mp hentry
          have same := (lookup_eq_some_iff_of_nodup nodup).mpr listed
          rw [found] at same
          cases same
          exact of_decide_eq_true stale
        · intro stale
          exact ⟨(cookie, tag), List.mem_filter.mpr ⟨mem, decide_eq_true stale⟩, rfl⟩
      by_cases stays : tag ∈ used <;> simp [without, found, gone, stays, Option.filter]

/-- A pass examines all tags and takes out of the mapping those without a detail row. -/
theorem leads_pass {detail : TableAccess σ DetailKey RawCounters}
    {tags : List (UInt64 × SocketTag)} {rows : List (DetailKey × RawCounters)}
    (hasTags : table.Holds steady tags) (nodup : (tags.map Prod.fst).Nodup)
    (hasRows : detail.Holds steady rows) (keeps : table.Keeps held)
    (starts : ∀ s, steady s → held (fun cookie => tags.lookup cookie) s) :
    Leads steady (pass table detail) fun answer s =>
      answer = .ok ⟨tags.length, (unused (live rows) tags).length, 0, 0, 0⟩ ∧
      held (fun cookie => (tags.lookup cookie).filter fun tag => tag ∈ live rows) s := by
  obtain ⟨order, permTags, showsTags⟩ := hasTags
  obtain ⟨order', permRows, showsRows⟩ := hasRows
  refine .ensures_bind (showsTags.delivers _ rfl) fun answer started => ?_
  obtain ⟨c, rfl, delivers⟩ := started
  have listed := delivers.foldRows Listed (fun _ r _ h => ensures_listTag h r) []
    (b := ⟨#[], 0⟩) ⟨rfl, rfl⟩
  refine .ensures_bind listed fun listing listed => ?_
  refine .ensures_bind (showsRows.delivers _ rfl) fun answer started => ?_
  obtain ⟨c, rfl, delivers⟩ := started
  have collected := delivers.foldRows Collected (fun _ r _ h => ensures_noteLive h r) []
    (b := ⟨[], 0⟩) ⟨fun _ => Iff.rfl, rfl⟩
  refine .ensures_bind collected fun l collected => ?_
  have nodup' : (order.map Prod.fst).Nodup := (permTags.map Prod.fst).nodup_iff.mpr nodup
  have there : ∀ entry ∈ order, tags.lookup entry.1 = some entry.2 :=
    fun entry h => (lookup_eq_some_iff_of_nodup nodup).mpr (permTags.mem_iff.mp h)
  have swept := leads_sweep (f := fun cookie => tags.lookup cookie) keeps nodup' there listed
    collected
  -- What was said of the order in which the rows came holds of the rows as they are given.
  have sameLive : ∀ tag, tag ∈ live order' ↔ tag ∈ live rows := fun _ => (permRows.map _).mem_iff
  have sameUnused : (unused (live rows) order).Perm (unused (live rows) tags) := permTags.filter _
  have sameMapping : without (fun cookie => tags.lookup cookie)
      ((unused (live rows) order).map Prod.fst) =
        fun cookie => (tags.lookup cookie).filter fun tag => tag ∈ live rows := by
    funext cookie
    rw [← without_unused nodup, without_congr fun _ => (sameUnused.map Prod.fst).mem_iff]
  rw [unused_congr sameLive, permTags.length_eq, sameUnused.length_eq, sameMapping] at swept
  have settled : Leads (fun s => held (fun cookie => tags.lookup cookie) s)
      (do pure (.ok (← sweep table listing l)) :
        Query σ (Except QueryError CleanupReport)) fun answer s =>
      answer = .ok ⟨tags.length, (unused (live rows) tags).length, 0, 0, 0⟩ ∧
        held (fun cookie => (tags.lookup cookie).filter fun tag => tag ∈ live rows) s := by
    refine swept.bind fun report => .pure ?_
    rintro s ⟨rfl, after⟩
    exact ⟨rfl, after⟩
  intro s hs
  exact settled s (starts _ hs)

end Cleanup

end TrafficStats
