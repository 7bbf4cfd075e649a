import TrafficStats.Report.Line
import TrafficStats.Table.Naming

/-!
# Totals

A total is the sum of all rows of a counter table that match: an owner may have many tags
and a name may be bound to several indices. Nothing that matches is a total of zero and
no error. Rows that cannot be read are missing from a total and counted, so that a total
says itself whether it is complete.
-/

namespace TrafficStats

structure Total where
  counters : Counters
  skippedRows : Nat
  deriving DecidableEq

namespace Total

variable {σ K : Type}

def zero : Total := ⟨0, 0⟩

/-- Whether every row of the table was read. -/
def isComplete (t : Total) : Bool :=
  t.skippedRows = 0

def line (t : Total) : String :=
  Json.objectLine (t.counters.members ++ [("skipped_rows", .number t.skippedRows)])

/-- Takes one row into a total, if it is to be kept. -/
def addRow (name : TableName) (keep : K → Query σ Bool) (t : Total) :
    RowResult K RawCounters → Query σ Total
  | .error e => do
    Query.note (.rowSkipped name e)
    pure { t with skippedRows := t.skippedRows + 1 }
  | .ok (k, raw) => do
    if ← keep k then pure { t with counters := t.counters + raw.clamped } else pure t

def ofRows (name : TableName) (table : TableAccess σ K RawCounters)
    (keep : K → Query σ Bool) : Query σ (Except QueryError Total) := do
  match ← Query.onTables table.iterate with
  | .error e => pure (.error (.tableUnavailable name e))
  | .ok c => .ok <$> table.foldRows (addRow name keep) c zero

/-- The traffic of one owner, over all tags and interfaces; of every owner for the number
that stands for all. -/
def forOwner (detail : TableAccess σ DetailKey RawCounters) (uid : UInt32) :
    Query σ (Except QueryError Total) :=
  ofRows .detail detail fun k => pure (uid = uidAll ∨ k.uid = uid)

def forName (device : TableAccess σ UInt32 RawCounters)
    (names : TableAccess σ UInt32 NameField) (name : String) :
    Query σ (Except QueryError Total) :=
  ofRows .device device fun i => do pure (decide ((← names.resolve i) = some name))

def forNamed (device : TableAccess σ UInt32 RawCounters)
    (names : TableAccess σ UInt32 NameField) : Query σ (Except QueryError Total) :=
  ofRows .device device fun i => do pure (← names.resolve i).isSome

/-- The counters of one interface index, named or not; zero if it has no row. -/
def forIndex (device : TableAccess σ UInt32 RawCounters) (ifaceIndex : UInt32) :
    Query σ (Except QueryError Counters) := do
  match ← Query.onTables (device.read ifaceIndex) with
  | .error e => pure (.error (.tableUnavailable .device e))
  | .ok none => pure (.ok 0)
  | .ok (some raw) => pure (.ok raw.clamped)

end Total

end TrafficStats
