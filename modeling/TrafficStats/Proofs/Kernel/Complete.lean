import TrafficStats.Proofs.Cleanup.Mapping
import TrafficStats.Proofs.Kernel.Holding

/-!
# Nothing is lost without notice

The kernel may fail to tell the next key or the value of one, in whichever calls, as long as it
does not say that something is missing which is there. If nobody changes a map, an enumeration
of it that starts and delivers no unreadable row has then delivered every row. So a total that
calls itself complete is complete, and a cleanup pass, which deletes nothing when it was given
an unreadable row, keeps every tag for which there is a detail row (`losesNothing`).
-/

namespace TrafficStats

open Query RowResult

/-- At this event no question about the rows of a map is answered as if there were none. -/
def KernelEvent.Candid (e : KernelEvent) : Prop :=
  e.call = .nextKey ∨ e.call = .lookup → e.refusal ≠ some .absent

theorem KernelEvent.lasting_candid : Lasting Candid := fun _ _ candid => candid

/-! ### Walks -/

namespace Kernel

variable {nextKeys lookups : Nat → Option Refusal}

/-- What is fetched are rows of the map, each at most once and in their order. -/
theorem fetched_sublist (nextKeys lookups : Nat → Option Refusal) (rows : KernelRows) :
    ((itemsOf nextKeys lookups rows).filterMap Except.toOption).Sublist rows := by
  induction rows generalizing nextKeys lookups with
  | nil =>
      rw [itemsOf]
      split <;> simp [Except.toOption]
  | cons row later ih =>
      have rest := ih (fun n => nextKeys (n + 1)) fun n => lookups (n + 1)
      rw [itemsOf]
      cases nextKeys 0 with
      | some refusal => cases refusal <;> exact List.nil_sublist _
      | none =>
          cases lookups 0 with
          | none => exact rest.cons_cons row
          | some refusal => cases refusal <;> exact rest.cons row

/-- If the kernel hides nothing, a walk without failures has fetched all rows. -/
theorem itemsOf_eq_map (keysTold : ∀ n, nextKeys n ≠ some .absent)
    (valuesTold : ∀ n, lookups n ≠ some .absent) {rows : KernelRows}
    (unfailing : ∀ call, .error call ∉ itemsOf nextKeys lookups rows) :
    itemsOf nextKeys lookups rows = rows.map .ok := by
  induction rows generalizing nextKeys lookups with
  | nil =>
      rw [itemsOf] at unfailing ⊢
      split at unfailing
      · exact absurd List.mem_cons_self (unfailing .nextKey)
      · rename_i told
        rw [if_neg told]
        rfl
  | cons row later ih =>
      have rest := ih (fun n => keysTold (n + 1)) fun n => valuesTold (n + 1)
      rw [itemsOf] at unfailing ⊢
      cases hkey : nextKeys 0 with
      | some refusal =>
          rw [hkey] at unfailing
          cases refusal with
          | absent => exact absurd hkey (keysTold 0)
          | failed => exact absurd List.mem_cons_self (unfailing .nextKey)
      | none =>
          rw [hkey] at unfailing
          cases hvalue : lookups 0 with
          | some refusal =>
              rw [hvalue] at unfailing
              cases refusal with
              | absent => exact absurd hvalue (valuesTold 0)
              | failed => exact absurd List.mem_cons_self (unfailing .lookup)
          | none =>
              rw [hvalue] at unfailing
              rw [rest fun call failed => unfailing call (List.mem_cons_of_mem _ failed)]
              rfl

end Kernel

namespace Pinned

open Kernel

variable {K V : Type} [Layout K] [Layout V] {path : String}
variable {Q : KernelEvent → Prop} {maps : List KernelMap}

/-! ### Enumerations -/

/-- What was delivered are rows of a table, each at most once, and all of them unless a row
could not be read. -/
structure Accounted (rows : List (K × V)) (delivered : List (RowResult K V)) : Prop where
  subperm : (readable delivered).Subperm rows
  complete : unreadable delivered = 0 → ∃ order : List (K × V), order.Perm rows ∧
    delivered = order.map .ok

theorem accounted_itemsOf {nextKeys lookups : Nat → Option Refusal}
    (keysTold : ∀ n, nextKeys n ≠ some .absent) (valuesTold : ∀ n, lookups n ≠ some .absent)
    {rows order : List (K × V)} (perm : order.Perm rows) :
    Accounted rows ((itemsOf nextKeys lookups (order.map encodeRow)).map row) where
  subperm := by
    have sublist := (fetched_sublist nextKeys lookups (order.map encodeRow)).map
      fun r => ((Layout.decode r.1, Layout.decode r.2) : K × V)
    rw [map_decode_encodeRow] at sublist
    rw [readable_map_row]
    exact sublist.subperm.trans perm.subperm
  complete clean := by
    have unfailing : ∀ call, .error call ∉ itemsOf nextKeys lookups (order.map encodeRow) :=
      fun call failed => unreadable_eq_zero_iff.mp clean _ (List.mem_map_of_mem failed)
    refine ⟨order, perm, ?_⟩
    rw [itemsOf_eq_map keysTold valuesTold unfailing, List.map_map, List.map_map]
    exact List.map_congr_left fun r _ => row_encodeRow r

variable (lasting : KernelEvent.Lasting Q)
include lasting

theorem ensures_resolve {paths : MapPaths} {rows : TableRows}
    (answered : ∀ e, Q e → e.path = paths.ifaceNames → e.call = .lookup → e.refusal = none)
    (holding : Holding paths.ifaceNames rows.ifaceNames maps)
    (nodup : (rows.ifaceNames.map Prod.fst).Nodup) (ifaceIndex : UInt32) :
    Ensures (Unchanged Q maps) ((tableSet paths).ifaceNames.resolve ifaceIndex)
      (· = rows.name? ifaceIndex) := by
  refine (ensures_read_of_holding lasting answered holding nodup ifaceIndex).bind
    fun answer eq => ?_
  rw [eq]
  exact .pure rfl

variable (candid : ∀ e, Q e → e.Candid)
include candid

theorem ensures_iterate_accounted {rows : List (K × V)} (holding : Holding path rows maps)
    (nodup : (rows.map Prod.fst).Nodup) :
    Ensures (Unchanged Q maps) (onTables (iterate path)) fun answer =>
      ∀ c : Cursor K V, answer = .ok c → ∃ delivered, Accounted rows delivered ∧
        c = delivered.map .row := by
  obtain ⟨map, order, pinned, perm, bytes⟩ := holding
  have distinct : (map.rows.map Prod.fst).Nodup := by
    rw [bytes]
    exact nodup_encodeRow ((perm.map Prod.fst).nodup_iff.mpr nodup)
  refine ensures_iterate_of (ensures_walk_of lasting pinned distinct fun k h => ?_)
  intro c shown
  have told : ∀ call, call = .nextKey ∨ call = .lookup →
      ∀ n, k.refusalAt path call n ≠ some .absent := by
    rintro call asks
    exact h.refusalAt_ne fun e he _ kind => candid e he (kind ▸ asks)
  rw [bytes] at shown
  obtain ⟨call, later, -, failed⟩ | ⟨-, walked⟩ :=
    started_cases (itemsOf (k.refusalAt path .nextKey) (k.refusalAt path .lookup)
      (order.map encodeRow))
  · rw [failed] at shown
    cases shown
  · rw [walked] at shown
    cases shown
    exact ⟨_, accounted_itemsOf (told _ (.inl rfl)) (told _ (.inr rfl)) perm, rfl⟩

/-! ### Totals -/

/-- A total that calls itself complete is the sum over all rows that are kept. -/
theorem ensures_ofRows_complete {rows : List (K × RawCounters)}
    (holding : Holding path rows maps) (nodup : (rows.map Prod.fst).Nodup) (name : TableName)
    {keep : K → Query Kernel Bool} {kept : K → Bool}
    (decides : ∀ k, Ensures (Unchanged Q maps) (keep k) (· = kept k)) :
    Ensures (Unchanged Q maps) (Total.ofRows name (access K RawCounters path) keep) fun answer =>
      ∀ t, answer = .ok t → t.isComplete = true → t = .keeping kept rows := by
  refine (ensures_iterate_accounted lasting candid holding nodup).bind fun answer accounted => ?_
  cases answer with
  | error e =>
      refine .pure ?_
      intro t answered
      cases answered
  | ok c =>
      obtain ⟨delivered, covers, rfl⟩ := accounted c rfl
      have delivers : (access K RawCounters path).Delivers (Unchanged Q maps) delivered
          (delivered.map .row) := delivers_fetched delivered
      refine .map ((Total.ensures_foldRows delivers name decides).mono ?_)
      rintro _ rfl t answered complete
      cases answered
      obtain ⟨order, perm, all⟩ := covers.complete (of_decide_eq_true complete)
      rw [all, Total.ofKept_map_ok, Total.keeping, Total.sum_keptCounters_perm kept perm]

end Pinned

/-! ### Cleanup -/

namespace Cleanup

open Kernel

variable {path : String} {cookie : UInt64} {tag : SocketTag} {used : List SocketTag}
variable {k : Kernel}

/-- A cookie has its tag, and nobody else changes a map. -/
structure TagThere (path : String) (cookie : UInt64) (tag : SocketTag) (k : Kernel) : Prop where
  changes : ∀ e ∈ k.events, e.changes = []
  pinned : ∃ map, k.map? path = some map ∧
    map.rows.value? (Layout.encode cookie) = some (Layout.encode tag)

theorem TagThere.unchanged (h : TagThere path cookie tag k) :
    Unchanged (fun _ => True) k.maps k :=
  ⟨rfl, h.changes, fun _ _ => trivial⟩

theorem TagThere.of_unchanged (h : TagThere path cookie tag k) {k' : Kernel}
    (same : Unchanged (fun _ => True) k.maps k') : TagThere path cookie tag k' := by
  obtain ⟨map, found, value⟩ := h.pinned
  exact ⟨same.changes, map, same.map?_eq found, value⟩

/-- Deleting another cookie leaves the tag there, if the kernel does it at all. -/
theorem TagThere.delete (h : TagThere path cookie tag k) {other : UInt64} (ne : other ≠ cookie) :
    TagThere path cookie tag (Pinned.delete path other k).2 := by
  have asked : TagThere path cookie tag (k.before path .delete).2 :=
    h.of_unchanged (h.unchanged.before (fun _ _ _ => trivial) path .delete)
  have deleted :
      (Pinned.delete path other k).2 = (Kernel.delete path (Layout.encode other) k).2 := by
    simp only [Pinned.delete, bind, StateT.bind]
    generalize Kernel.delete path (Layout.encode other) k = outcome
    obtain ⟨answer, k'⟩ := outcome
    cases answer with
    | ok done => rfl
    | error refusal => cases refusal <;> rfl
  rw [deleted, Kernel.delete, call_eq]
  cases k.refusalAt path .delete 0 with
  | some refusal => exact asked
  | none =>
      dsimp only
      split
      · obtain ⟨map, found, value⟩ := asked.pinned
        refine ⟨asked.changes, _, map?_alter found _, ?_⟩
        have different : Layout.encode other ≠ Layout.encode cookie :=
          fun same => ne (Layout.encode_injective same)
        rw [KernelRows.value?_remove, if_neg different]
        exact value
      · exact asked

theorem leads_removeStale_there (report : CleanupReport) {entry : UInt64 × SocketTag}
    (spared : entry.1 = cookie → entry.2 ∈ used) :
    Leads (TagThere path cookie tag)
      (removeStale (Pinned.access UInt64 SocketTag path) used report entry)
      fun _ => TagThere path cookie tag := by
  unfold removeStale
  split
  · exact .pure fun _ there => there
  · rename_i stale
    have other : entry.1 ≠ cookie := fun same => stale (spared same)
    have deleted : Leads (TagThere path cookie tag)
        (onTables ((Pinned.access UInt64 SocketTag path).delete entry.1))
        fun _ => TagThere path cookie tag := fun s there => there.delete other
    refine deleted.bind fun answer => ?_
    match answer with
    | .ok .deleted => exact .pure fun _ there => there
    | .ok .alreadyAbsent => exact .pure fun _ there => there
    | .error e => exact .quiet_bind (fun _ => rfl) fun _ => .pure fun _ there => there

/-- Of all the listed cookies only those with stale tags are deleted. -/
theorem leads_foldlM_removeStale_there {entries : List (UInt64 × SocketTag)}
    (spared : ∀ entry ∈ entries, entry.1 = cookie → entry.2 ∈ used) (report : CleanupReport) :
    Leads (TagThere path cookie tag)
      (entries.foldlM (removeStale (Pinned.access UInt64 SocketTag path) used) report)
      fun _ => TagThere path cookie tag := by
  induction entries generalizing report with
  | nil => exact .pure fun _ there => there
  | cons entry entries ih =>
      rw [List.foldlM_cons]
      refine (leads_removeStale_there report (spared entry List.mem_cons_self)).bind
        fun report' => ?_
      exact ih (fun entry' h => spared entry' (List.mem_cons_of_mem _ h)) report'

open Pinned in
/-- A sweep that knows all tags in use, or knows that it does not, spares a tag in use. -/
theorem leads_sweep_there {rows : TableRows} (distinct : rows.Distinct)
    (mem : (cookie, tag) ∈ rows.cookieTags) (inUse : tag ∈ live rows.detail)
    {listed : List (RowResult UInt64 SocketTag)} (tagsCovered : Accounted rows.cookieTags listed)
    {listing : Listing} (hlisting : Listed listed listing)
    {delivered : List (RowResult DetailKey RawCounters)}
    (rowsCovered : Accounted rows.detail delivered) {l : LiveTags} (hl : Collected delivered l) :
    Leads (TagThere path cookie tag) (sweep (access UInt64 SocketTag path) listing l)
      fun _ => TagThere path cookie tag := by
  unfold sweep
  split
  · exact .quiet_bind (fun _ => rfl) fun _ => .pure fun _ there => there
  · rename_i known
    have clean : unreadable delivered = 0 := by
      rw [← hl.unreadable]
      exact Nat.eq_zero_of_not_pos known
    obtain ⟨order, perm, all⟩ := rowsCovered.complete clean
    have collected : tag ∈ l.tags := by
      rw [hl.tags, all, readable_map_ok]
      exact (perm.map _).mem_iff.mpr inUse
    have spared : ∀ entry ∈ listing.tags.toList, entry.1 = cookie → entry.2 ∈ l.tags := by
      rintro ⟨cookie', tag'⟩ hentry rfl
      rw [hlisting.tags] at hentry
      have same := (lookup_eq_some_iff_of_nodup distinct.cookieTags).mpr
        (tagsCovered.subperm.subset hentry)
      rw [(lookup_eq_some_iff_of_nodup distinct.cookieTags).mpr mem] at same
      cases same
      exact collected
    refine (leads_foldlM_removeStale_there spared _).bind fun report => ?_
    exact .quiet_bind (fun _ => rfl) fun _ => .pure fun _ there => there

open Pinned in
/-- A pass in a candid kernel spares a tag in use, wherever its walks are cut short. -/
theorem leads_pass_there {Q : KernelEvent → Prop} {maps : List KernelMap}
    (lasting : KernelEvent.Lasting Q) (candid : ∀ e, Q e → e.Candid) {paths : MapPaths}
    {rows : TableRows} (holding : HoldingAll paths rows maps) (distinct : rows.Distinct)
    (mem : (cookie, tag) ∈ rows.cookieTags) (inUse : tag ∈ live rows.detail) :
    Leads (Unchanged Q maps) (pass (tableSet paths).cookieTags (tableSet paths).detail)
      fun _ => TagThere paths.cookieTags cookie tag := by
  have there : ∀ k, Unchanged Q maps k → TagThere paths.cookieTags cookie tag k := by
    intro k h
    obtain ⟨map, order, pinned, perm, bytes⟩ := holding.cookieTags
    refine ⟨h.changes, map, h.map?_eq pinned, ?_⟩
    rw [bytes, value?_encodeRow,
      lookup_perm perm ((perm.map Prod.fst).nodup_iff.mpr distinct.cookieTags),
      (lookup_eq_some_iff_of_nodup distinct.cookieTags).mpr mem]
    rfl
  refine .ensures_bind (ensures_iterate_accounted lasting candid holding.cookieTags
    distinct.cookieTags) fun answer tagsAccounted => ?_
  cases answer with
  | error e => exact .pure there
  | ok c =>
      obtain ⟨listed, tagsCovered, rfl⟩ := tagsAccounted c rfl
      have tagsDelivered : (tableSet paths).cookieTags.Delivers (Unchanged Q maps) listed
          (listed.map .row) := delivers_fetched listed
      have listing := tagsDelivered.foldRows Listed (fun _ r _ h => ensures_listTag h r) []
        (b := ⟨#[], 0⟩) ⟨rfl, rfl⟩
      refine .ensures_bind listing fun listing hlisting => ?_
      refine .ensures_bind (ensures_iterate_accounted lasting candid holding.detail
        distinct.detail) fun answer rowsAccounted => ?_
      cases answer with
      | error e => exact .pure there
      | ok c =>
          obtain ⟨delivered, rowsCovered, rfl⟩ := rowsAccounted c rfl
          have rowsDelivered : (tableSet paths).detail.Delivers (Unchanged Q maps) delivered
              (delivered.map .row) := delivers_fetched delivered
          have collected := rowsDelivered.foldRows Collected
            (fun _ r _ h => ensures_noteLive h r) [] (b := ⟨[], 0⟩) ⟨fun _ => Iff.rfl, rfl⟩
          refine .ensures_bind collected fun l hl => ?_
          intro s hs
          exact leads_sweep_there distinct mem inUse tagsCovered hlisting rowsCovered hl s
            (there _ hs)

end Cleanup

/-! ### The service -/

/-- An enumeration that starts and delivers no unreadable row delivers all rows of the table,
each once. -/
def Pinned.EnumeratesAll {K V : Type} [Layout K] [Layout V] (path : String) (rows : List (K × V))
    (k : Kernel) : Prop :=
  ∀ c : Cursor K V, (iterate path k).1 = .ok c → (∀ e, .row (.error e) ∉ c) →
    ∃ order : List (K × V), order.Perm rows ∧ c = order.map fun r => .row (.ok r)

namespace Accounting

open Pinned

/-- What the service answers and does about the given rows in pinned maps, if the kernel hides
nothing. -/
structure LosesNothing (a : Accounting Kernel) (paths : MapPaths) (rows : TableRows)
    (s : Session Kernel) : Prop where
  detail : EnumeratesAll paths.detail rows.detail s.tables
  device : EnumeratesAll paths.device rows.device s.tables
  ifaceNames : EnumeratesAll paths.ifaceNames rows.ifaceNames s.tables
  cookieTags : EnumeratesAll paths.cookieTags rows.cookieTags s.tables
  totalForOwner : ∀ uid t, (a.totalForOwner uid s).1 = .ok t → t.isComplete = true →
    t = .keeping (countsFor uid) rows.detail
  totalForName : (∀ e ∈ s.tables.events, e.path = paths.ifaceNames → e.call = .lookup →
      e.refusal = none) →
    ∀ name t, (a.totalForName name s).1 = .ok t → t.isComplete = true →
      t = .keeping (fun ifaceIndex => rows.name? ifaceIndex = some name) rows.device
  totalForNamed : (∀ e ∈ s.tables.events, e.path = paths.ifaceNames → e.call = .lookup →
      e.refusal = none) →
    ∀ t, (a.totalForNamed s).1 = .ok t → t.isComplete = true →
      t = .keeping (fun ifaceIndex => (rows.name? ifaceIndex).isSome) rows.device
  cleanTags : ∀ cookie tag, (cookie, tag) ∈ rows.cookieTags → tag ∈ Cleanup.live rows.detail →
    Cleanup.TagThere paths.cookieTags cookie tag (a.cleanTags s).2.tables

theorem enumeratesAll_of_candid {K V : Type} [Layout K] [Layout V] {path : String}
    {rows : List (K × V)} {k : Kernel} (h : k.Unchanged KernelEvent.Candid k.maps)
    (holding : Holding path rows k.maps) (nodup : (rows.map Prod.fst).Nodup) :
    EnumeratesAll path rows k := by
  intro c shown clean
  have accounted := ensures_iterate_accounted KernelEvent.lasting_candid (fun _ => id) holding
    nodup (.start k) h
  obtain ⟨delivered, covers, rfl⟩ := accounted.1 c shown
  have read : unreadable delivered = 0 :=
    unreadable_eq_zero_iff.mpr fun e unread => clean e (List.mem_map_of_mem unread)
  obtain ⟨order, perm, rfl⟩ := covers.complete read
  exact ⟨order, perm, List.map_map⟩

/-- In a kernel that hides nothing, whichever calls fail, nothing is lost without notice. -/
theorem losesNothing {a : Accounting Kernel} {paths : MapPaths} (pinned : a.tables = tableSet paths)
    {rows : TableRows} (distinct : rows.Distinct) {s : Session Kernel}
    (holding : HoldingAll paths rows s.tables.maps)
    (changes : ∀ e ∈ s.tables.events, e.changes = [])
    (candid : ∀ e ∈ s.tables.events, e.Candid) : a.LosesNothing paths rows s := by
  have unchanged : s.tables.Unchanged KernelEvent.Candid s.tables.maps := ⟨rfl, changes, candid⟩
  -- Where names can be read, that no event refuses to tell one is known of all events to come.
  have named (answered : ∀ e ∈ s.tables.events, e.path = paths.ifaceNames → e.call = .lookup →
        e.refusal = none) (chosen : Option String → Bool) :
      ∀ t, (Total.ofRows .device a.tables.device (fun i => do
          pure (chosen (← a.tables.ifaceNames.resolve i))) s).1 = .ok t →
        t.isComplete = true →
        t = .keeping (fun ifaceIndex => chosen (rows.name? ifaceIndex)) rows.device := by
    let Q (e : KernelEvent) : Prop := e.Candid ∧
      (e.path = paths.ifaceNames → e.call = .lookup → e.refusal = none)
    have lasting : KernelEvent.Lasting Q := fun _ _ h => h
    have still : s.tables.Unchanged Q s.tables.maps :=
      ⟨rfl, changes, fun e he => ⟨candid e he, answered e he⟩⟩
    have resolves := ensures_resolve lasting (fun _ h => h.2) holding.ifaceNames distinct.ifaceNames
    rw [pinned]
    exact (ensures_ofRows_complete lasting (fun _ h => h.1) holding.device distinct.device .device
      (fun i => (resolves i).bind_pure chosen) s still).1
  constructor
  case detail => exact enumeratesAll_of_candid unchanged holding.detail distinct.detail
  case device => exact enumeratesAll_of_candid unchanged holding.device distinct.device
  case ifaceNames => exact enumeratesAll_of_candid unchanged holding.ifaceNames distinct.ifaceNames
  case cookieTags => exact enumeratesAll_of_candid unchanged holding.cookieTags distinct.cookieTags
  case totalForOwner =>
    intro uid
    unfold totalForOwner
    rw [pinned]
    exact (ensures_ofRows_complete KernelEvent.lasting_candid (fun _ => id) holding.detail
      distinct.detail .detail (fun _ => .pure rfl) s unchanged).1
  case totalForName =>
    exact fun answered name => named answered fun resolved => resolved = some name
  case totalForNamed => exact fun answered => named answered Option.isSome
  case cleanTags =>
    intro cookie tag mem inUse
    unfold cleanTags
    rw [pinned]
    exact Cleanup.leads_pass_there KernelEvent.lasting_candid (fun _ => id) holding distinct mem
      inUse s unchanged

/-- Traffic of two owners, and the tags of two sockets, one of which has no traffic. -/
def oneTagInUse : TableRows where
  detail := [(⟨10, 0, 1⟩, ⟨100, 1, 0, 0⟩), (⟨11, 7, 1⟩, ⟨50, 1, 0, 0⟩)]
  device := [(1, ⟨150, 2, 0, 0⟩)]
  ifaceNames := [(1, .ofName "wlan0")]
  cookieTags := [(5, ⟨11, 7⟩), (6, ⟨12, 0⟩)]

/-- The second detail row cannot be asked for, the first time that somebody tries. -/
def cutShort : List KernelEvent :=
  KernelEvent.schedule MapPaths.default.detail .nextKey 0 [none, some .failed]

/-- The walk of a pass is cut short before the row of the tag in use. Had that not been noticed,
the tag would have been removed as the other one is when the pass is repeated. -/
theorem losesNothing_cutShort :
    oneTagInUse.Distinct ∧ (∀ e ∈ cutShort, e.Candid) ∧
      LosesNothing (.new (tableSet .default)) .default oneTagInUse
        (.start (kernelOf .default oneTagInUse cutShort)) ∧
      ((new (tableSet .default)).cleanTags (.start (kernelOf .default oneTagInUse cutShort))).1 =
        .ok ⟨2, 0, 0, 0, 1⟩ ∧
      ((new (tableSet .default)).cleanTags (.start (kernelOf .default oneTagInUse []))).1 =
        .ok ⟨2, 1, 0, 0, 0⟩ := by
  have distinct : oneTagInUse.Distinct := by
    constructor <;> decide
  have candid : ∀ e ∈ cutShort, e.Candid := by
    simp [cutShort, KernelEvent.schedule, KernelEvent.Candid]
  refine ⟨distinct, candid, ?_, by decide +kernel, by decide +kernel⟩
  apply losesNothing rfl distinct
  · exact holdingAll_kernelOf _ _
  · exact fun e he => (KernelEvent.mem_schedule _ _ he).2.2.2
  · exact candid

end Accounting

end TrafficStats
