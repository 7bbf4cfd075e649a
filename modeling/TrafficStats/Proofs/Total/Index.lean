import TrafficStats.Proofs.Shared.Failing
import TrafficStats.Proofs.Total.Device
import TrafficStats.Proofs.Total.Gathered

/-!
# The counters of one interface index

The counters of an index are read from its row alone, while the report and the total of all
named interfaces go through the whole device table. These two fail exactly if the table is
unavailable. The read of a row fails for a second reason as well: a row that is there and cannot
be read is answered as if the table were unavailable (`indexTotal_followsRow`). A row that can be
read is answered with what it adds to the total, and a row that is not there with zero.
-/

namespace TrafficStats

open Query SharedTables

/-! ### A row and the rest of its table -/

namespace MemoryStore

variable {K V : Type} [Ranked K]

/-- The rows of a table are the row of a key and what is left if it is removed. -/
theorem liveRows_perm_cons_remove {store : MemoryStore K V} {k : K} {v : V}
    (present : store.rows.get? k = some (.live v)) :
    store.liveRows.Perm ((k, v) :: (store.remove k).liveRows) := by
  have removed : (k, v) ∉ (store.remove k).liveRows := by
    rw [mem_liveRows, get?_remove_self]
    exact nofun
  refine (List.perm_ext_iff_of_nodup store.nodup_liveRows.of_map
    (List.nodup_cons.mpr ⟨removed, (store.remove k).nodup_liveRows.of_map⟩)).mpr ?_
  rintro ⟨k', v'⟩
  rw [List.mem_cons, mem_liveRows, mem_liveRows, remove, Rows.get?_erase]
  by_cases same : k' = k
  · subst same
    simp [present, eq_comm]
  · have apart : rank k ≠ rank k' := fun h => same (rank_eq_rank_iff.mp h).symm
    simp [apart, same]

/-- Removing a row that is kept takes its counters out of the total. -/
theorem totalOf_remove_add {store : MemoryStore K RawCounters} {k : K} {raw : RawCounters}
    (present : store.rows.get? k = some (.live raw)) {kept : K → Bool} (hkept : kept k = true) :
    ((store.remove k).totalOf kept).counters + raw.clamped = (store.totalOf kept).counters := by
  have split := Total.sum_keptCounters_perm kept (liveRows_perm_cons_remove present)
  rw [Total.sum_keptCounters_cons, if_pos hkept, Counters.add_comm] at split
  exact split.symm

theorem read_eq_error_iff (store : MemoryStore K V) (k : K) :
    (∃ cause, store.read k = .error cause) ↔
      store.unavailable = true ∨ ∃ reason, store.rows.get? k = some (.malformed reason) := by
  unfold read
  cases store.unavailable with
  | true => simp
  | false =>
      cases store.rows.get? k with
      | none => simp
      | some slot => cases slot <;> simp

end MemoryStore

def MemoryTables.withoutDevice (tables : MemoryTables) (ifaceIndex : UInt32) : MemoryTables :=
  { tables with device := tables.device.remove ifaceIndex }

/-! ### Answers -/

variable {tables : MemoryTables} {α : Type}

/-- Asked while nobody edits the tables, a query fails exactly under a condition. -/
def FailsExactlyIf (tables : MemoryTables) (q : Query SharedTables (Except QueryError α))
    (condition : Prop) : Prop :=
  ∀ s : Session SharedTables, Undisturbed tables s.tables →
    ((∃ e, (q s).1 = .error e) ↔ condition)

theorem Query.FailsWith.exactlyIf {q : Query SharedTables (Except QueryError α)}
    {reason : QueryError → Prop} (h : FailsWith (Undisturbed tables) q reason) {condition : Prop}
    (same : (∃ e, reason e) ↔ condition) : FailsExactlyIf tables q condition := by
  intro s hs
  rw [← same]
  exact exists_congr fun e => (h s hs e).1

theorem exists_refusedBy {K V : Type} [Ranked K] (name : TableName) (store : MemoryStore K V) :
    (∃ e, RefusedBy name store e) ↔ store.unavailable = true := by
  simp [RefusedBy]

variable {a : Accounting SharedTables} {ifaceIndex : UInt32}

/-- The answer about an index follows from what is read of its row. -/
theorem gives_totalForIndex (shared : a.tables = tableSet)
    {found : Except StoreError (Option RawCounters)}
    (read : tables.device.read ifaceIndex = found) :
    Gives tables (a.totalForIndex ifaceIndex)
      ((found.map fun raw => raw.elim 0 RawCounters.clamped).mapError (.tableUnavailable .device))
    := by
  show Gives tables (Total.forIndex a.tables.device ifaceIndex) _
  rw [shared]
  have looked : Ensures (Undisturbed tables) (onTables (tableSet.device.read ifaceIndex))
      (· = tables.device.read ifaceIndex) := ensures_look .device .read _ _
  rw [read] at looked
  refine looked.bind fun answer eq => ?_
  subst eq
  match answer with
  | .error cause => exact .pure rfl
  | .ok none => exact .pure rfl
  | .ok (some raw) => exact .pure rfl

/-- How the counters of an index go together with the queries that go through the whole device
table. These fail exactly if the table is unavailable. The counters of the index fail then, and
besides if its row cannot be read, with the same words. Otherwise they are those of the row,
which are what the row adds to the total of the named interfaces if the index has a name, or
zero if there is no row. -/
structure IndexTotalFollowsRow (a : Accounting SharedTables) (tables : MemoryTables)
    (ifaceIndex : UInt32) : Prop where
  namedFails : FailsExactlyIf tables a.totalForNamed (tables.device.unavailable = true)
  reportFails : FailsExactlyIf tables a.deviceReport (tables.device.unavailable = true)
  indexFails : FailsExactlyIf tables (a.totalForIndex ifaceIndex)
    (tables.device.unavailable = true ∨
      ∃ reason, tables.device.rows.get? ifaceIndex = some (.malformed reason))
  unreadable : ∀ reason, tables.device.unavailable = false →
    tables.device.rows.get? ifaceIndex = some (.malformed reason) →
    Gives tables (a.totalForIndex ifaceIndex)
      (.error (.tableUnavailable .device (.unreadable ⟨reason⟩)))
  absent : tables.device.unavailable = false → tables.device.rows.get? ifaceIndex = none →
    Gives tables (a.totalForIndex ifaceIndex) (.ok 0)
  live : ∀ raw, tables.device.unavailable = false →
    tables.device.rows.get? ifaceIndex = some (.live raw) →
    Gives tables (a.totalForIndex ifaceIndex) (.ok raw.clamped)
  adds : ∀ raw, tables.device.unavailable = false →
    tables.device.rows.get? ifaceIndex = some (.live raw) →
    (tables.interfaceName? ifaceIndex).isSome →
    ∃ total rest, Gives tables a.totalForNamed (.ok total) ∧
      Gives (tables.withoutDevice ifaceIndex) a.totalForNamed (.ok rest) ∧
      rest.counters + raw.clamped = total.counters

/-- They do for every index and all contents of the tables. -/
theorem indexTotal_followsRow (shared : a.tables = tableSet) (tables : MemoryTables)
    (ifaceIndex : UInt32) : IndexTotalFollowsRow a tables ifaceIndex := by
  constructor
  case namedFails =>
    show FailsExactlyIf tables (Total.forNamed a.tables.device a.tables.ifaceNames) _
    rw [shared]
    exact (failsWith_ofRows .device .device _).exactlyIf (exists_refusedBy _ _)
  case reportFails =>
    show FailsExactlyIf tables (Prod.fst <$> Report.read (.device a.tables.device)
      a.tables.ifaceNames a.newTracker) _
    rw [shared]
    exact (failsWith_read .device rfl _ _).exactlyIf (exists_refusedBy _ _)
  case indexFails =>
    show FailsExactlyIf tables (Total.forIndex a.tables.device ifaceIndex) _
    rw [shared]
    refine (failsWith_forIndex ifaceIndex).exactlyIf ?_
    rw [← tables.device.read_eq_error_iff ifaceIndex]
    simp
  case unreadable =>
    intro reason available present
    have read : tables.device.read ifaceIndex = .error (.unreadable ⟨reason⟩) := by
      simp [MemoryStore.read, available, present]
    exact gives_totalForIndex shared read
  case absent =>
    intro available absent
    have read : tables.device.read ifaceIndex = .ok none := by
      simp [MemoryStore.read, available, absent]
    exact gives_totalForIndex shared read
  case live =>
    intro raw available present
    have read : tables.device.read ifaceIndex = .ok (some raw) := by
      simp [MemoryStore.read, available, present]
    exact gives_totalForIndex shared read
  case adds =>
    intro raw available present isNamed
    refine ⟨_, _, gives_totalForNamed shared available, gives_totalForNamed shared available, ?_⟩
    exact MemoryStore.totalOf_remove_add present isNamed

/-- A row that cannot be read beside one that can. -/
def unreadableDevice : MemoryTables :=
  { MemoryTables.empty with
    device := (MemoryStore.ofList [(3, ⟨10, 1, 20, 2⟩)]).insertMalformed 5 "value size 16"
    ifaceNames := .ofList [(3, .ofName "wlan0"), (5, .ofName "rmnet0")] }

/-- The table is available and its total counts the unreadable row as skipped, but the counters
of the row are answered with an unavailable table. -/
theorem indexTotal_followsRow_unreadable :
    IndexTotalFollowsRow (.new tableSet) unreadableDevice 5 ∧
      ((Accounting.new tableSet).totalForNamed (.start (.quiet unreadableDevice))).1 =
        .ok ⟨⟨10, 1, 20, 2⟩, 1⟩ ∧
      ((Accounting.new tableSet).totalForIndex 5 (.start (.quiet unreadableDevice))).1 =
        .error (.tableUnavailable .device (.unreadable ⟨"value size 16"⟩)) :=
  ⟨indexTotal_followsRow rfl _ _, by decide +kernel, by decide +kernel⟩

end TrafficStats
