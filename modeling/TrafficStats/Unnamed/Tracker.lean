import TrafficStats.Counters
import TrafficStats.Key

/-!
# Traffic of interfaces without a name

Rows whose interface has no name are left out of reports. A tracker adds up what was left
out and raises one alert when the sum reaches its threshold; after that it is silent
until it is reset. Kernel counters are cumulative, so the tracker remembers what it last
read for each row and charges only what a row grew by since. A reading below the last
one means that the row was created anew and has counted from zero.
-/

namespace TrafficStats

/-- The threshold that is used when none is configured, in bytes. -/
def defaultAlertThreshold : Int64 := 100000

/-- Traffic was left out of reports in a quantity that matters. -/
structure Alert where
  ifaceIndex : UInt32
  undercount : Int64
  deriving DecidableEq

/-- Where alerts go: into the log, or to a receiver that keeps them. -/
inductive AlertSink where
  | log
  | keep
  deriving DecidableEq

/-- Whether a tracker still adds up, and how far it is. -/
inductive TrackerState where
  | accumulating (total : Int64)
  | suppressed
  deriving DecidableEq

/-- One tracking context, with the last reading of each row that was charged. -/
structure Tracker where
  state : TrackerState
  threshold : Int64
  sink : AlertSink
  charged : List (RowId × Int64)
  deriving DecidableEq

/-- A call on a tracker, with what came of it: the alert that the bytes raised, or the counters
that were read for the row. There are none if it was left uncharged. -/
inductive TrackerCall where
  | record (ifaceIndex : UInt32) (bytes : Int64) (alert : Option Alert)
  | row (ifaceIndex : UInt32) (row : RowId) (reading : Option RawCounters)
  deriving DecidableEq

namespace Tracker

def new (threshold : Int64) (sink : AlertSink) : Tracker :=
  ⟨.accumulating 0, threshold, sink, []⟩

def reset (t : Tracker) : Tracker :=
  { t with state := .accumulating 0, charged := [] }

/-- Adds bytes that were left out on an interface. The threshold counts as reached when
the sum equals it. -/
def add (t : Tracker) (ifaceIndex : UInt32) (bytes : Int64) : Tracker × Option Alert :=
  match t.state with
  | .suppressed => (t, none)
  | .accumulating total =>
    let total := saturatingAdd total bytes
    if t.threshold ≤ total then ({ t with state := .suppressed }, some ⟨ifaceIndex, total⟩)
    else ({ t with state := .accumulating total }, none)

theorem add_cases (t : Tracker) (ifaceIndex : UInt32) (bytes : Int64) :
    (t.state = .suppressed ∧ t.add ifaceIndex bytes = (t, none)) ∨
    ∃ total, t.state = .accumulating total ∧
      ((t.threshold ≤ saturatingAdd total bytes ∧ t.add ifaceIndex bytes =
          ({ t with state := .suppressed }, some ⟨ifaceIndex, saturatingAdd total bytes⟩)) ∨
        (¬ t.threshold ≤ saturatingAdd total bytes ∧ t.add ifaceIndex bytes =
          ({ t with state := .accumulating (saturatingAdd total bytes) }, none))) := by
  unfold add
  cases t.state with
  | suppressed => exact .inl ⟨rfl, rfl⟩
  | accumulating total =>
      refine .inr ⟨total, rfl, ?_⟩
      by_cases reaches : t.threshold ≤ saturatingAdd total bytes
      · exact .inl ⟨reaches, if_pos reaches⟩
      · exact .inr ⟨reaches, if_neg reaches⟩

/-- What was last read for a row, zero if it was never read. -/
def lastReading (t : Tracker) (row : RowId) : Int64 :=
  (t.charged.lookup row).getD 0

def noteReading (t : Tracker) (row : RowId) (bytes : Int64) : Tracker :=
  { t with charged := (row, bytes) :: t.charged.filter fun entry => entry.1 ≠ row }

theorem lastReading_noteReading (t : Tracker) (row row' : RowId) (bytes : Int64) :
    (t.noteReading row bytes).lastReading row' =
      if row' = row then bytes else t.lastReading row' := by
  by_cases same : row' = row
  · simp [noteReading, lastReading, same]
  · have differs : (row' == row) = false := beq_eq_false_iff_ne.mpr same
    have kept : (t.charged.filter fun entry => entry.1 ≠ row).lookup row' =
        t.charged.lookup row' := by
      induction t.charged with
      | nil => rfl
      | cons entry rest ih =>
          by_cases removed : entry.1 = row
          · rw [List.filter_cons_of_neg (by simpa using removed), ih, List.lookup_cons, removed,
              differs]
          · rw [List.filter_cons_of_pos (by simpa using removed), List.lookup_cons,
              List.lookup_cons, ih]
    rw [if_neg same, lastReading, noteReading, List.lookup_cons, differs, kept]
    rfl

/-- What a row that was last read with `last` bytes and now has `bytes` grew by. -/
def growth (last bytes : Int64) : Int64 :=
  if last ≤ bytes then bytes - last else bytes

end Tracker

end TrafficStats
