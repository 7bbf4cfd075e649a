import TrafficStats.Log

/-!
# Queries against tables that change

A query runs in a session: the state `σ` in which its tables live, the log, the alerts
that were raised and the calls on trackers. The tables may change between any two
operations of a query, by the doing of other processes; that is the business of `σ`, and a
query sees nothing of it but the answers it gets. Nothing is ever decided by the calls on
trackers; they are kept so that the use of a tracker can be spoken about afterwards.
-/

namespace TrafficStats

/-- What queries work on and what they leave behind: log, alerts kept by their receiver and calls
on trackers, each with the oldest first. -/
structure Session (σ : Type) where
  tables : σ
  log : Array LogEvent
  alerts : Array Alert
  calls : Array TrackerCall

def Session.start {σ : Type} (tables : σ) : Session σ := ⟨tables, #[], #[], #[]⟩

abbrev Query (σ : Type) := StateM (Session σ)

namespace Query

variable {σ α : Type}

/-- Carries out an operation on the tables. -/
def onTables (action : StateM σ α) : Query σ α := fun s =>
  let outcome := action s.tables
  (outcome.1, { s with tables := outcome.2 })

def note (event : LogEvent) : Query σ Unit := fun s =>
  ((), { s with log := s.log.push event })

def trace (call : TrackerCall) : Query σ Unit := fun s =>
  ((), { s with calls := s.calls.push call })

/-- Hands an alert to its receiver. -/
def raise (sink : AlertSink) (alert : Alert) : Query σ Unit :=
  match sink with
  | .log => note (.unnamedTraffic alert)
  | .keep => fun s => ((), { s with alerts := s.alerts.push alert })

theorem pure_apply (a : α) (s : Session σ) : (pure a : Query σ α) s = (a, s) := rfl

theorem bind_apply {β : Type} (q : Query σ α) (f : α → Query σ β) (s : Session σ) :
    (q >>= f) s = f (q s).1 (q s).2 := rfl

theorem trace_apply (call : TrackerCall) (s : Session σ) :
    trace call s = ((), { s with calls := s.calls.push call }) := rfl

end Query

end TrafficStats
