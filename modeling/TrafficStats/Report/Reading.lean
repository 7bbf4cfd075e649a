import TrafficStats.Report.Record
import TrafficStats.Table.Naming
import TrafficStats.Unnamed.Charge

/-!
# Reading a report

A report is read from one of the two counter tables, row by row. A row that cannot be
read is counted and left out; a row whose interface has no name is charged to a tracker
and left out; every other row becomes a record. Each index is looked up once in a
reading, at its first row.
-/

namespace TrafficStats

/-- A report: its records in the order of the table, and how many rows could not be
read. -/
structure Report where
  records : List ReportRecord
  skippedRows : Nat
  deriving DecidableEq

/-- A counter table as a source of records. -/
structure CounterTable (σ K : Type) where
  name : TableName
  access : TableAccess σ K RawCounters
  ifaceIndex : K → UInt32
  rowId : K → RowId
  record : K → String → Counters → ReportRecord

namespace CounterTable

variable {σ : Type}

/-- Detail rows become records of their owner and tag, in the set that the policy gives. -/
def detail (access : TableAccess σ DetailKey RawCounters) (policy : DetailKey → TrafficSet) :
    CounterTable σ DetailKey where
  name := .detail
  access := access
  ifaceIndex := DetailKey.ifaceIndex
  rowId := .detail
  record k iface counters := .make iface k.uid (policy k) k.tag counters

/-- Device rows become records of all owners, all sets and no tag. -/
def device (access : TableAccess σ UInt32 RawCounters) : CounterTable σ UInt32 where
  name := .device
  access := access
  ifaceIndex := id
  rowId := .device
  record _ iface counters := .make iface uidAll .all tagNone counters

end CounterTable

namespace Report

variable {σ K : Type}

structure Progress where
  memo : NameMemo
  records : Array ReportRecord
  skippedRows : Nat
  tracker : Tracker

def readRow (source : CounterTable σ K) (names : TableAccess σ UInt32 NameField)
    (p : Progress) : RowResult K RawCounters → Query σ Progress
  | .error e => do
    Query.note (.rowSkipped source.name e)
    pure { p with skippedRows := p.skippedRows + 1 }
  | .ok (k, raw) => do
    let (name, memo) ← p.memo.resolve names (source.ifaceIndex k)
    match name with
    | some iface =>
      pure { p with memo, records := p.records.push (source.record k iface raw.clamped) }
    | none =>
      let tracker ← p.tracker.recordRow (source.ifaceIndex k) source.access source.rowId k
      pure { p with memo, tracker }

def finish (source : CounterTable σ K) (p : Progress) :
    Query σ (Except QueryError Report × Tracker) := do
  if 0 < p.skippedRows then
    Query.note (.rowsSkipped p.skippedRows source.name)
  pure (.ok ⟨p.records.toList, p.skippedRows⟩, p.tracker)

/-- Reads the report of a table. The tracker is charged with what is left out. -/
def read (source : CounterTable σ K) (names : TableAccess σ UInt32 NameField)
    (tracker : Tracker) : Query σ (Except QueryError Report × Tracker) := do
  match ← Query.onTables source.access.iterate with
  | .error e => pure (.error (.tableUnavailable source.name e), tracker)
  | .ok c =>
    let p ← source.access.foldRows (readRow source names) c ⟨[], #[], 0, tracker⟩
    finish source p

end Report

end TrafficStats
