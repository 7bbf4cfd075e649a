import TrafficStats.Cleanup.Pass
import TrafficStats.Config
import TrafficStats.Report.Group
import TrafficStats.Report.Reading
import TrafficStats.Total

/-!
# The accounting service

The service joins the four tables with the choices that a configuration makes: which set
a detail row belongs to, when traffic without a name raises an alert and who is told.
Every report starts a tracking context of its own, unless a tracker is handed in that
lives longer.
-/

namespace TrafficStats

/-- The policy that puts the traffic of the listed owners into the foreground. -/
def foregroundPolicy (owners : List UInt32) (k : DetailKey) : TrafficSet :=
  if k.uid ∈ owners then .foreground else .default

/-- The interfaces of the host, by name; the first entry of a name counts. -/
abbrev Host := List (String × UInt32)

/-- The index of the host's interface of a name. No interface has the index zero, and a
name with a NUL character names none. -/
def Host.index? (host : Host) (name : String) : Option UInt32 :=
  if name.toList.contains '\x00' then none
  else (host.lookup name).filter (· ≠ 0)

/-- The service over the tables of a state. -/
structure Accounting (σ : Type) where
  tables : TableSet σ
  policy : DetailKey → TrafficSet
  sink : AlertSink
  threshold : Int64

namespace Accounting

variable {σ : Type}

/-- The service as it is when nothing is configured: no owner is in the foreground, and
alerts go into the log. -/
def new (tables : TableSet σ) : Accounting σ :=
  ⟨tables, foregroundPolicy [], .log, defaultAlertThreshold⟩

def ofConfig (tables : TableSet σ) (config : Config) : Accounting σ :=
  { new tables with
    policy := foregroundPolicy config.foregroundOwners
    threshold := config.unnamedAlertBytes }

def newTracker (a : Accounting σ) : Tracker :=
  .new a.threshold a.sink

def detailReportWith (a : Accounting σ) (tracker : Tracker) :
    Query σ (Except QueryError Report × Tracker) :=
  Report.read (.detail a.tables.detail a.policy) a.tables.ifaceNames tracker

def deviceReportWith (a : Accounting σ) (tracker : Tracker) :
    Query σ (Except QueryError Report × Tracker) :=
  Report.read (.device a.tables.device) a.tables.ifaceNames tracker

/-- The report of the detail table in a tracking context of its own. -/
def detailReport (a : Accounting σ) : Query σ (Except QueryError Report) :=
  Prod.fst <$> a.detailReportWith a.newTracker

def deviceReport (a : Accounting σ) : Query σ (Except QueryError Report) :=
  Prod.fst <$> a.deviceReportWith a.newTracker

def totalForOwner (a : Accounting σ) (uid : UInt32) : Query σ (Except QueryError Total) :=
  Total.forOwner a.tables.detail uid

def totalForName (a : Accounting σ) (name : String) : Query σ (Except QueryError Total) :=
  Total.forName a.tables.device a.tables.ifaceNames name

def totalForNamed (a : Accounting σ) : Query σ (Except QueryError Total) :=
  Total.forNamed a.tables.device a.tables.ifaceNames

def totalForIndex (a : Accounting σ) (ifaceIndex : UInt32) :
    Query σ (Except QueryError Counters) :=
  Total.forIndex a.tables.device ifaceIndex

def cleanTags (a : Accounting σ) : Query σ (Except QueryError CleanupReport) :=
  Cleanup.pass a.tables.cookieTags a.tables.detail

def resolve (a : Accounting σ) (ifaceIndex : UInt32) : Query σ (Option String) :=
  a.tables.ifaceNames.resolve ifaceIndex

def registerIndex (a : Accounting σ) (ifaceIndex : UInt32) (name : String) :
    Query σ (Except QueryError Unit) := do
  match ← Query.onTables (a.tables.ifaceNames.put ifaceIndex (.ofName name)) with
  | .error e => pure (.error (.tableUnavailable .ifaceNames e))
  | .ok () =>
    Query.note (.registered name ifaceIndex)
    pure (.ok ())

/-- Records the name of an interface of the host under the index that it has there. -/
def register (a : Accounting σ) (host : Host) (name : String) :
    Query σ (Except QueryError UInt32) := do
  match host.index? name with
  | none => pure (.error (.unknownInterface name))
  | some ifaceIndex =>
    match ← a.registerIndex ifaceIndex name with
    | .error e => pure (.error e)
    | .ok () => pure (.ok ifaceIndex)

end Accounting

end TrafficStats
