import TrafficStats.Cleanup.Report
import TrafficStats.Store.Error
import TrafficStats.Unnamed.Tracker

/-!
# The log

Everything that is worth a line in the log is an event. An event determines its level and
its wording, so what was logged can be examined as data.
-/

namespace TrafficStats

/-- Log levels, the most urgent first. -/
inductive LogLevel where
  | error
  | warn
  | info
  | debug
  deriving DecidableEq

def LogLevel.name : LogLevel → String
  | .error => "ERROR"
  | .warn => "WARN"
  | .info => "INFO"
  | .debug => "DEBUG"

inductive LogEvent where
  | unnamedTraffic (alert : Alert)
  | rowSkipped (table : TableName) (e : RowError)
  | rowsSkipped (count : Nat) (table : TableName)
  | lookupFailed (ifaceIndex : UInt32) (e : StoreError)
  | cleanupSkipped (unreadableRows : Nat)
  | deleteFailed (cookie : UInt64) (e : StoreError)
  | cleanupDone (report : CleanupReport)
  | registered (name : String) (ifaceIndex : UInt32)
  | passRefused (unreadableRows : Nat)
  | passRemoved (deleted : Nat)
  | passFailed (e : QueryError)
  | snapshotFailed (e : QueryError)
  | shutdown
  deriving DecidableEq

namespace LogEvent

def level : LogEvent → LogLevel
  | .unnamedTraffic _ => .error
  | .rowSkipped .. | .rowsSkipped .. | .cleanupSkipped _ | .deleteFailed ..
  | .passRefused _ | .passFailed _ | .snapshotFailed _ => .warn
  | .registered .. | .passRemoved _ | .shutdown => .info
  | .lookupFailed .. | .cleanupDone _ => .debug

def message : LogEvent → String
  | .unnamedTraffic alert =>
    "Unknown name for ifindex " ++ Text.natural alert.ifaceIndex.toNat ++
      " with more than " ++ Text.integer alert.undercount.toInt ++ " bytes of traffic"
  | .rowSkipped table e => "skipping " ++ table.label ++ " row: " ++ e.message
  | .rowsSkipped count table =>
    Text.natural count ++ " malformed " ++ table.label ++ " rows skipped"
  | .lookupFailed ifaceIndex e =>
    "ifindex " ++ Text.natural ifaceIndex.toNat ++ " lookup failed: " ++ e.message
  | .cleanupSkipped unreadableRows =>
    Text.natural unreadableRows ++ " unreadable detail rows, skipping tag map cleanup"
  | .deleteFailed cookie e =>
    "failed to delete cookie " ++ Text.hexadecimal cookie.toNat ++ ": " ++ e.message
  | .cleanupDone report =>
    "tag map cleanup: scanned " ++ Text.natural report.scanned ++
      " deleted " ++ Text.natural report.deleted ++
      " already gone " ++ Text.natural report.alreadyAbsent ++
      " failed " ++ Text.natural report.failed
  | .registered name ifaceIndex =>
    "registered " ++ name ++ " as ifindex " ++ Text.natural ifaceIndex.toNat
  | .passRefused unreadableRows =>
    "tag map cleanup refused: " ++ Text.natural unreadableRows ++ " unreadable detail rows"
  | .passRemoved deleted => "removed " ++ Text.natural deleted ++ " stale tag mappings"
  | .passFailed e => "tag map cleanup failed: " ++ e.message
  | .snapshotFailed e => "device snapshot failed: " ++ e.message
  | .shutdown => "Received shutdown signal, exiting"

def line (event : LogEvent) : String :=
  event.level.name ++ " " ++ event.message

end LogEvent

end TrafficStats
