import TrafficStats.Proofs.Report.Hidden
import TrafficStats.Proofs.Shared.Undisturbed

/-!
# What becomes of the rows of a table

A reading of a table that nobody edits makes one thing of each row: a row of an interface with a
name becomes a record, a row of any other interface is charged to the tracker, and a row that
cannot be read is counted (`readings_classifyRows`). The records and the charges keep the order
of the keys. The tracker takes no part in this: whatever state it is in, the report is the same.
-/

namespace TrafficStats

open Query RowResult SharedTables TrackerCall

variable {K : Type} [Ranked K]

/-- What a reading of a table makes of its rows, where `name?` gives the names of interfaces and
`record` the record of a row. -/
structure ClassifiesRows (source : CounterTable SharedTables K)
    (store : MemoryStore K RawCounters) (name? : UInt32 → Option String)
    (record : K → String → Counters → ReportRecord) (t : Tracker) (s : Session SharedTables)
    (outcome : (Except QueryError Report × Tracker) × Session SharedTables) : Prop where
  -- The report has the records of the named rows, and counts the rows that cannot be read.
  report : outcome.1.1 = .ok
    ⟨store.liveRows.filterMap fun row =>
      (name? (source.ifaceIndex row.1)).map fun name => record row.1 name row.2.clamped,
      store.malformedRows⟩
  -- The unnamed rows were charged one after the other, and nothing else was.
  charged : let hidden := source.hidden name? store.liveRows
    let charge (t : Tracker) (row : K × RawCounters) :=
      t.recordRow (source.ifaceIndex row.1) source.access source.rowId row.1
    outcome.1.2 = (hidden.foldlM charge t s).1 ∧
      outcome.2.calls = (hidden.foldlM charge t s).2.calls ∧
      ∃ calls, outcome.2.calls.toList = s.calls.toList ++ calls ∧
        handed calls = hidden.map fun row => (source.ifaceIndex row.1, source.rowId row.1)
  -- The rows that can be read are gone through in the order of their keys.
  live : ∀ k raw, (k, raw) ∈ store.liveRows ↔ store.rows.get? k = some (.live raw)
  sorted : store.liveRows.Pairwise fun row later => rank row.1 < rank later.1
  -- No row is lost and none is counted twice.
  whole : (store.liveRows.filter fun row => (name? (source.ifaceIndex row.1)).isSome).length +
    (source.hidden name? store.liveRows).length + store.malformedRows = store.size

variable {tables : MemoryTables} {source : CounterTable SharedTables K}

theorem classifiesRows_read (field : TableField K RawCounters)
    (shared : source.access = access field) (available : (field.get tables).unavailable = false)
    {record : K → String → Counters → ReportRecord}
    (kept : ∀ k name counters, Text.bounded maxIfaceBytes name = name →
      source.record k name counters = record k name counters)
    (t : Tracker) {s : Session SharedTables} (undisturbed : Undisturbed tables s.tables) :
    ClassifiesRows source (field.get tables) tables.interfaceName? record t s
      (Report.read source (access .ifaceNames) t s) := by
  have shows : source.access.Shows (Undisturbed tables) (field.get tables).read
      (.ok (field.get tables).allRows) := by
    rw [shared]
    exact shows_of_available field available
  generalize field.get tables = store at *
  have records (row : K × RawCounters) : source.record? tables.interfaceName? row =
      (tables.interfaceName? (source.ifaceIndex row.1)).map fun name =>
        record row.1 name row.2.clamped := by
    rw [CounterTable.record?]
    apply Option.map_congr
    intro name hname
    exact kept _ _ _ (tables.bounded_interfaceName? hname)
  refine ⟨?_, ?_, store.mem_liveRows, store.sorted_liveRows, ?_⟩
  · have answer := (Report.ensures_read shows gives_resolve t s undisturbed).1
    rw [answer, answerFrom, Except.map, Except.mapError, CounterTable.report,
      store.readable_allRows, store.unreadable_allRows, funext records]
  · have there : ∀ row ∈ store.liveRows, store.read row.1 = .ok (some row.2) :=
      fun row => store.read_of_mem_liveRows available
    have present : ∀ row ∈ readable store.allRows, store.read row.1 = .ok (some row.2) := by
      rw [store.readable_allRows]
      exact there
    have reread : ∀ row ∈ source.hidden tables.interfaceName? store.liveRows,
        Ensures (Undisturbed tables) (onTables (source.access.read row.1))
          (· = .ok (some row.2)) := by
      intro row mem
      rw [← there row (List.mem_of_mem_filter mem)]
      exact shows.read row.1
    obtain ⟨-, calls, -, traced, charged, -⟩ :=
      Report.leaves_read (ω := Empty) shows present gives_resolve t s undisturbed
    obtain ⟨-, calls', -, traced', charged', -⟩ :=
      source.leaves_foldlM_charge (ω := Empty) reread t s undisturbed
    rw [store.readable_allRows] at charged
    obtain ⟨same, sameCalls⟩ := Prod.mk.inj (charged.trans charged'.symm)
    refine ⟨same, ?_, calls, traced, ?_⟩
    · apply Array.toList_inj.mp
      rw [traced, traced', sameCalls]
    · rw [← handed_chargeAll source t, ← charged]
  · have split := List.length_eq_length_filter_add (l := store.liveRows)
      fun row => (tables.interfaceName? (source.ifaceIndex row.1)).isSome
    simp only [Option.not_isSome] at split
    rw [← store.length_liveRows_add, split, CounterTable.hidden]

namespace MemoryTables

theorem interfaceName?_ne_empty {ifaceIndex : UInt32} {name : String}
    (h : tables.interfaceName? ifaceIndex = some name) : name ≠ "" := by
  rintro rfl
  unfold interfaceName? NameField.named? at h
  split at h
  · obtain ⟨field, -, named⟩ := Option.bind_eq_some_iff.mp h
    unfold NameField.name? at named
    split at named
    · cases named
    · rename_i nonempty
      exact nonempty (Text.ofUtf8?_eq_some_iff.mp named).symm
  · cases h

end MemoryTables

/-- Traffic is in the foreground if its owner is listed, wherever and however often. -/
theorem foregroundPolicy_eq_iff (owners : List UInt32) (k : DetailKey) :
    (foregroundPolicy owners k = .foreground ↔ k.uid ∈ owners) ∧
      (foregroundPolicy owners k = .default ↔ k.uid ∉ owners) := by
  unfold foregroundPolicy
  by_cases listed : k.uid ∈ owners <;> simp [listed]

variable {a : Accounting SharedTables} {s : Session SharedTables}

/-- What the service reads from tables that nobody edits makes one thing of every row, whatever
state the tracker is in. -/
theorem readings_classifyRows (shared : a.tables = tableSet)
    (undisturbed : Undisturbed tables s.tables) :
    (tables.detail.unavailable = false → ∀ t,
      ClassifiesRows (.detail a.tables.detail a.policy) tables.detail tables.interfaceName?
        (fun k name counters => ⟨name, k.uid, a.policy k, k.tag, counters⟩) t s
        (a.detailReportWith t s)) ∧
    (tables.device.unavailable = false → ∀ t,
      ClassifiesRows (.device a.tables.device) tables.device tables.interfaceName?
        (fun _ name counters => ⟨name, uidAll, .all, tagNone, counters⟩) t s
        (a.deviceReportWith t s)) ∧
    (∀ i name, tables.interfaceName? i = some name → name ≠ "") ∧
    ∀ owners k, (foregroundPolicy owners k = .foreground ↔ k.uid ∈ owners) ∧
      (foregroundPolicy owners k = .default ↔ k.uid ∉ owners) := by
  refine ⟨?_, ?_, fun _ _ => tables.interfaceName?_ne_empty, foregroundPolicy_eq_iff⟩
  · intro available t
    rw [Accounting.detailReportWith, shared]
    refine classifiesRows_read .detail rfl available ?_ t undisturbed
    intro k name counters whole
    exact congrArg (ReportRecord.mk · k.uid (a.policy k) k.tag counters) whole
  · intro available t
    rw [Accounting.deviceReportWith, shared]
    refine classifiesRows_read .device rfl available ?_ t undisturbed
    intro _ name counters whole
    exact congrArg (ReportRecord.mk · uidAll .all tagNone counters) whole

/-- Three detail rows, of which one has a name of fifteen bytes, one has none and one cannot be
read, and a device row over the clamping bound. -/
def oneOfEach : MemoryTables :=
  { MemoryTables.empty with
    detail := (MemoryStore.ofList [(⟨10, 7, 9⟩, ⟨40, 1, 20, 1⟩),
      (⟨10, 0, 5⟩, ⟨100, 1, 200, 2⟩)]).insertMalformed ⟨10, 8, 5⟩ "value size 16"
    device := .ofList [(5, ⟨0x8000000000000000, 3, 1, 1⟩)]
    ifaceNames := .ofList [(5, .ofName "rmnet_data00001")] }

/-- The service with one owner in the foreground, who is listed twice. -/
def withForeground : Accounting SharedTables :=
  { Accounting.new tableSet with policy := foregroundPolicy [20, 10, 10] }

/-- A tracker that is silent leaves the unnamed row unread, and the report is what it is. -/
theorem readings_classifyRows_oneOfEach :
    let silent : Tracker := ⟨.suppressed, 1, .keep, []⟩
    let s : Session SharedTables := .start (.quiet oneOfEach)
    ClassifiesRows (.detail withForeground.tables.detail withForeground.policy) oneOfEach.detail
        oneOfEach.interfaceName?
        (fun k name counters => ⟨name, k.uid, withForeground.policy k, k.tag, counters⟩)
        silent s (withForeground.detailReportWith silent s) ∧
      (withForeground.detailReportWith silent s).1.1 =
        .ok ⟨[⟨"rmnet_data00001", 10, .foreground, 0, ⟨100, 1, 200, 2⟩⟩], 1⟩ ∧
      (withForeground.deviceReportWith silent s).1.1 =
        .ok ⟨[⟨"rmnet_data00001", uidAll, .all, tagNone, ⟨0x7FFFFFFFFFFFFFFF, 3, 1, 1⟩⟩], 0⟩ :=
  ⟨(readings_classifyRows (a := withForeground) (s := .start (.quiet oneOfEach)) rfl
    (undisturbed_quiet oneOfEach)).1 rfl _, by decide +kernel, by decide +kernel⟩

end TrafficStats
