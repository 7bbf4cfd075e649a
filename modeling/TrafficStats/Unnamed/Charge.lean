import TrafficStats.Table.Access

/-!
# Charging rows to a tracker

A row without a name is read again when it is charged, and its growth since the last
charge is what counts. A row that has vanished meanwhile, or that cannot be read, is
charged nothing. A tracker that is silent does not read at all.
-/

namespace TrafficStats.Tracker

variable {σ K : Type}

def deliver (outcome : Tracker × Option Alert) : Query σ Tracker :=
  match outcome.2 with
  | none => pure outcome.1
  | some alert => do
    Query.raise outcome.1.sink alert
    pure outcome.1

def record (t : Tracker) (ifaceIndex : UInt32) (bytes : Int64) : Query σ Tracker := do
  let outcome := t.add ifaceIndex bytes
  Query.trace (.record ifaceIndex bytes outcome.2)
  deliver outcome

/-- Takes a reading of a row: what the row grew by is added, and a row that did not grow
adds nothing. -/
def takeReading (t : Tracker) (ifaceIndex : UInt32) (row : RowId) (raw : RawCounters) :
    Query σ Tracker := do
  Query.trace (.row ifaceIndex row (some raw))
  let bytes := raw.clamped.totalBytes
  let grown := growth (t.lastReading row) bytes
  let noted := t.noteReading row bytes
  if 0 < grown then noted.record ifaceIndex grown else pure noted

/-- Leaves a row uncharged. -/
def skipRow (t : Tracker) (ifaceIndex : UInt32) (row : RowId) : Query σ Tracker := do
  Query.trace (.row ifaceIndex row none)
  pure t

/-- Reads a row of a table again and charges it under the given identity. -/
def recordRow (t : Tracker) (ifaceIndex : UInt32) (table : TableAccess σ K RawCounters)
    (rowId : K → RowId) (k : K) : Query σ Tracker :=
  if t.state = .suppressed then t.skipRow ifaceIndex (rowId k)
  else do
    match ← Query.onTables (table.read k) with
    | .ok (some raw) => t.takeReading ifaceIndex (rowId k) raw
    | .ok none => t.skipRow ifaceIndex (rowId k)
    | .error _ => t.skipRow ifaceIndex (rowId k)

end TrafficStats.Tracker
