import TrafficStats.Accounting
import TrafficStats.Report.Printed

/-!
# Watching

Watching repeats a pass: remove stale tags, then print the grouped device report in
readable form. Neither half depends on the success of the other. All passes of one watch
share one tracker, so unnamed traffic raises at most one alert however long it lasts. A
watch ends when its time is up, or after the pass in which it is interrupted.

Every line that a pass prints starts with the time of the pass. What the clock shows is a
parameter, already written as `%Y-%m-%dT%H:%M:%SZ`; a pass reads it once, before its report, so
all its lines have the same time. Without a clock the lines are left bare.
-/

namespace TrafficStats.Accounting

variable {σ : Type}

/-- A line with the time at which it is printed. -/
def stamped : Option String → String → String
  | some time, line => "[" ++ time ++ "] " ++ line
  | none, line => line

/-- The grouped device report in readable form, stamped with the time, and the tracker after
it. -/
def snapshot (a : Accounting σ) (tracker : Tracker) (time : Option String := none) :
    Query σ (List String × Tracker) := do
  let (report, tracker) ← a.deviceReportWith tracker
  match report with
  | .ok report =>
    pure ((Report.group report.records).map fun record => stamped time record.text, tracker)
  | .error e =>
    Query.note (.snapshotFailed e)
    pure ([], tracker)

/-- Removes stale tags and says so in the log where there is something to say. -/
def tidy (a : Accounting σ) : Query σ Unit := do
  match ← a.cleanTags with
  | .ok report =>
    if 0 < report.unreadableRows then Query.note (.passRefused report.unreadableRows)
    else if 0 < report.deleted then Query.note (.passRemoved report.deleted)
    else pure ()
  | .error e => Query.note (.passFailed e)

def watchPass (a : Accounting σ) (tracker : Tracker) (time : Option String := none) :
    Query σ (List String × Tracker) := do
  a.tidy
  a.snapshot tracker time

inductive WatchEnd where
  | interrupted
  | stopped
  deriving DecidableEq

/-- A pass at each of these times, with the lines that they print. A pass that was begun is
finished; if there was an interruption meanwhile, it is the last. -/
def watchPasses (a : Accounting σ) (interrupted : σ → Bool) :
    List (Option String) → Tracker → Query σ (List String × WatchEnd)
  | [], _ => pure ([], .stopped)
  | time :: times, tracker => do
    let (lines, tracker) ← a.watchPass tracker time
    if ← Query.onTables (interrupted <$> get) then
      Query.note .shutdown
      pure (lines, .interrupted)
    else
      let (more, ending) ← watchPasses a interrupted times tracker
      pure (lines ++ more, ending)

/-- Watches for at most so many passes in a tracking context of its own; `clock n` is the time
of the pass after `n` others. -/
def watch (a : Accounting σ) (interrupted : σ → Bool) (passes : Nat)
    (clock : Nat → Option String := fun _ => none) : Query σ (List String × WatchEnd) :=
  a.watchPasses interrupted ((List.range passes).map clock) a.newTracker

end TrafficStats.Accounting
