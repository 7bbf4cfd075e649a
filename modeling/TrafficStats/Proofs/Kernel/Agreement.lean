import TrafficStats.Proofs.Kernel.Holding
import TrafficStats.Proofs.Shared.Holding
import TrafficStats.Proofs.Table.Answers

/-!
# Pinned tables and tables in memory

Pinned maps are walked in the order that the kernel gives them and fetched as a whole; tables
in memory are enumerated in the order of their keys, one row at a time. To the service this
makes no difference: over the same rows both answer alike (`pinned_agreesWith_memory`), for
what it answers depends on the rows alone, up to the order of the records.
-/

namespace TrafficStats

variable {σ τ K V α : Type}

/-! ### What is compared -/

/-- Both are the same answer, and no failure. -/
def SameAnswer (answer answer' : Except QueryError α) : Prop :=
  ∃ a, answer = .ok a ∧ answer' = .ok a

/-- Two tables, each as it is in its state, map keys to the same values. -/
def TableAccess.SameMapping (table : TableAccess σ K V) (s : σ) (table' : TableAccess τ K V)
    (s' : τ) : Prop :=
  ∃ f, table.Tells f s ∧ table'.Tells f s'

/-- Two trackers that only differ in who is told of alerts, as far as charging them goes. -/
structure Tracker.Alike (t t' : Tracker) : Prop where
  state : t.state = t'.state
  threshold : t.threshold = t'.threshold
  lastReading : ∀ row, t.lastReading row = t'.lastReading row

/-- Two counter tables that make the same of a row. -/
structure CounterTable.Alike (source : CounterTable σ K) (source' : CounterTable τ K) : Prop where
  ifaceIndex : source.ifaceIndex = source'.ifaceIndex
  rowId : source.rowId = source'.rowId
  record : source.record = source'.record

namespace Report

/-- Both are reports, with the same records up to order and, when these are grouped, with the
same list. -/
def SameRecords (answer answer' : Except QueryError Report) : Prop :=
  ∃ report report', answer = .ok report ∧ answer' = .ok report' ∧
    report.records.Perm report'.records ∧ group report.records = group report'.records ∧
    report.skippedRows = report'.skippedRows

/-- Two readings, from two sessions, that charge their trackers alike: these end in the same
state, and as many alerts are raised. -/
structure SameReading (t t' : Tracker) (s : Session σ) (s' : Session τ)
    (reading : (Except QueryError Report × Tracker) × Session σ)
    (reading' : (Except QueryError Report × Tracker) × Session τ) : Prop where
  records : SameRecords reading.1.1 reading'.1.1
  state : reading.1.2.state = reading'.1.2.state
  alerts : ∃ n, (reading.2.raised t.sink).length = (s.raised t.sink).length + n ∧
    (reading'.2.raised t'.sink).length = (s'.raised t'.sink).length + n

end Report

open Report

/-- Two services, each in a session of its own, answer every query alike and leave the same
mappings behind. -/
structure Accounting.AgreesWith (a : Accounting σ) (s : Session σ) (b : Accounting τ)
    (s' : Session τ) : Prop where
  resolve : ∀ ifaceIndex, (a.resolve ifaceIndex s).1 = (b.resolve ifaceIndex s').1
  totalForOwner : ∀ uid, SameAnswer (a.totalForOwner uid s).1 (b.totalForOwner uid s').1
  totalForName : ∀ name, SameAnswer (a.totalForName name s).1 (b.totalForName name s').1
  totalForNamed : SameAnswer (a.totalForNamed s).1 (b.totalForNamed s').1
  totalForIndex : ∀ ifaceIndex,
    SameAnswer (a.totalForIndex ifaceIndex s).1 (b.totalForIndex ifaceIndex s').1
  detailReport : SameRecords (a.detailReport s).1 (b.detailReport s').1
  deviceReport : SameRecords (a.deviceReport s).1 (b.deviceReport s').1
  detailReportWith : ∀ t t', t.Alike t' →
    SameReading t t' s s' (a.detailReportWith t s) (b.detailReportWith t' s')
  deviceReportWith : ∀ t t', t.Alike t' →
    SameReading t t' s s' (a.deviceReportWith t s) (b.deviceReportWith t' s')
  cleanTags : SameAnswer (a.cleanTags s).1 (b.cleanTags s').1
  tagsLeft : a.tables.cookieTags.SameMapping (a.cleanTags s).2.tables
    b.tables.cookieTags (b.cleanTags s').2.tables
  registerIndex : ∀ ifaceIndex name,
    SameAnswer (a.registerIndex ifaceIndex name s).1 (b.registerIndex ifaceIndex name s').1
  namesLeft : ∀ ifaceIndex name,
    a.tables.ifaceNames.SameMapping (a.registerIndex ifaceIndex name s).2.tables
      b.tables.ifaceNames (b.registerIndex ifaceIndex name s').2.tables
  register : ∀ host name, (a.register host name s).1 = (b.register host name s').1
  namesRegistered : ∀ host name,
    a.tables.ifaceNames.SameMapping (a.register host name s).2.tables
      b.tables.ifaceNames (b.register host name s').2.tables

/-! ### Reports -/

namespace CounterTable.Alike

variable {source : CounterTable σ K} {source' : CounterTable τ K}
variable {name? : UInt32 → Option String}

theorem record?_eq (h : source.Alike source') : source.record? name? = source'.record? name? := by
  funext row
  rw [record?, record?, h.ifaceIndex, h.record]

theorem chargeable_eq (h : source.Alike source') (t : Tracker) :
    source.chargeable name? t = source'.chargeable name? t := by
  funext rows
  apply List.filterMap_congr
  intro row _
  rw [chargeable?, chargeable?, h.ifaceIndex, h.rowId]

end CounterTable.Alike

namespace Report

variable {source : CounterTable σ K} {source' : CounterTable τ K}
variable {name? : UInt32 → Option String} {rows : List (K × RawCounters)}

/-- Reading a report raises an alert if its tracker falls silent. -/
theorem length_raised_read (source : CounterTable σ K) (names : TableAccess σ UInt32 NameField)
    (t : Tracker) (s : Session σ) :
    ((read source names t s).2.raised t.sink).length =
      (s.raised t.sink).length + t.state.alertsUntil (read source names t s).1.2.state := by
  obtain ⟨calls, tracked, -, raised⟩ := follows_read false source names t s
  rw [raised, List.length_append, tracked.length_alerts]

theorem sameRecords_of_readFrom (alike : source.Alike source') {t t' : Tracker}
    {outcome outcome' : Except QueryError Report × Tracker}
    (h : ReadFrom source name? rows t outcome) (h' : ReadFrom source' name? rows t' outcome') :
    SameRecords outcome.1 outcome'.1 := by
  obtain ⟨records, answer, perm⟩ := h.records
  obtain ⟨records', answer', perm'⟩ := h'.records
  rw [← alike.record?_eq] at perm'
  have same : records.Perm records' := perm.trans perm'.symm
  exact ⟨_, _, answer, answer', same, group_perm same, rfl⟩

theorem sameReading_of_readFrom (alike : source.Alike source')
    {names : TableAccess σ UInt32 NameField} {names' : TableAccess τ UInt32 NameField}
    {t t' : Tracker} (trackers : t.Alike t') {s : Session σ} {s' : Session τ}
    (h : ReadFrom source name? rows t (read source names t s).1)
    (h' : ReadFrom source' name? rows t' (read source' names' t' s').1) :
    SameReading t t' s s' (read source names t s) (read source' names' t' s') := by
  have state : (read source names t s).1.2.state = (read source' names' t' s').1.2.state := by
    rw [h.state, h'.state, trackers.state, trackers.threshold, ← alike.chargeable_eq]
    apply TrackerState.addAll_perm
    · exact source.chargeable_perm name? trackers.lastReading (.refl rows)
    · exact source.pos_of_mem_chargeable name? t
  refine ⟨sameRecords_of_readFrom alike h h', state, ?_⟩
  refine ⟨t.state.alertsUntil (read source names t s).1.2.state, ?_, ?_⟩
  · exact length_raised_read source names t s
  · rw [state, trackers.state]
    exact length_raised_read source' names' t' s'

end Report

/-! ### Services -/

namespace Accounting

/-- Registering an interface of the host records its name under the index that it has. -/
theorem register_apply (a : Accounting σ) (host : Host) (name : String) (s : Session σ)
    (recorded : ∀ ifaceIndex, (a.registerIndex ifaceIndex name s).1 = .ok ()) :
    a.register host name s =
      match host.index? name with
      | none => (.error (.unknownInterface name), s)
      | some ifaceIndex => (.ok ifaceIndex, (a.registerIndex ifaceIndex name s).2) := by
  unfold register
  cases host.index? name with
  | none => rfl
  | some ifaceIndex =>
      simp only [Query.bind_apply, recorded ifaceIndex]
      rfl

variable {a : Accounting σ} {b : Accounting τ} {rows : TableRows}
variable {s : Session σ} {s' : Session τ}

/-- Services that answer as the same rows say answer alike. -/
theorem agreesWith_of_answers (policy : a.policy = b.policy) (ha : a.Answers rows s)
    (hb : b.Answers rows s') : a.AgreesWith s b s' := by
  have detail : (CounterTable.detail a.tables.detail a.policy).Alike
      (CounterTable.detail b.tables.detail b.policy) := by
    rw [policy]
    exact ⟨rfl, rfl, rfl⟩
  have device : (CounterTable.device a.tables.device).Alike
      (CounterTable.device b.tables.device) := ⟨rfl, rfl, rfl⟩
  constructor
  case resolve =>
    intro ifaceIndex
    rw [ha.resolve, hb.resolve]
  case totalForOwner => exact fun uid => ⟨_, ha.totalForOwner uid, hb.totalForOwner uid⟩
  case totalForName => exact fun name => ⟨_, ha.totalForName name, hb.totalForName name⟩
  case totalForNamed => exact ⟨_, ha.totalForNamed, hb.totalForNamed⟩
  case totalForIndex =>
    exact fun ifaceIndex => ⟨_, ha.totalForIndex ifaceIndex, hb.totalForIndex ifaceIndex⟩
  case detailReport =>
    exact sameRecords_of_readFrom detail (ha.detailReport a.newTracker)
      (hb.detailReport b.newTracker)
  case deviceReport =>
    exact sameRecords_of_readFrom device (ha.deviceReport a.newTracker)
      (hb.deviceReport b.newTracker)
  case detailReportWith =>
    exact fun t t' trackers =>
      sameReading_of_readFrom detail trackers (ha.detailReport t) (hb.detailReport t')
  case deviceReportWith =>
    exact fun t t' trackers =>
      sameReading_of_readFrom device trackers (ha.deviceReport t) (hb.deviceReport t')
  case cleanTags => exact ⟨_, ha.cleanTags, hb.cleanTags⟩
  case tagsLeft => exact ⟨_, ha.tagsLeft, hb.tagsLeft⟩
  case registerIndex =>
    exact fun ifaceIndex name =>
      ⟨_, ha.registerIndex ifaceIndex name, hb.registerIndex ifaceIndex name⟩
  case namesLeft =>
    exact fun ifaceIndex name => ⟨_, ha.namesLeft ifaceIndex name, hb.namesLeft ifaceIndex name⟩
  case register =>
    intro host name
    rw [register_apply a host name s fun i => ha.registerIndex i name,
      register_apply b host name s' fun i => hb.registerIndex i name]
    cases host.index? name <;> rfl
  case namesRegistered =>
    intro host name
    rw [register_apply a host name s fun i => ha.registerIndex i name,
      register_apply b host name s' fun i => hb.registerIndex i name]
    cases host.index? name with
    | none => exact ⟨_, ha.names, hb.names⟩
    | some ifaceIndex => exact ⟨_, ha.namesLeft ifaceIndex name, hb.namesLeft ifaceIndex name⟩

/-- Over pinned maps of a kernel that answers every call, and over tables in memory that nobody
edits, the service answers alike if both hold the same rows, in whatever order. -/
theorem pinned_agreesWith_memory {paths : MapPaths} {rows : TableRows} (distinct : rows.Distinct)
    {s : Session Kernel} (harmless : ∀ e ∈ s.tables.events, e.Harmless)
    (holding : Pinned.HoldingAll paths rows s.tables.maps) {s' : Session SharedTables}
    (undisturbed : SharedTables.Undisturbed (.ofRows rows) s'.tables)
    (policy : DetailKey → TrafficSet) (sink : AlertSink) (threshold : Int64) :
    AgreesWith ⟨Pinned.tableSet paths, policy, sink, threshold⟩ s
      ⟨SharedTables.tableSet, policy, sink, threshold⟩ s' := by
  have untroubled : s.tables.Untroubled s.tables.maps := ⟨rfl, harmless⟩
  have pinned : Answers ⟨Pinned.tableSet paths, policy, sink, threshold⟩ rows s :=
    answers_of_holds (Pinned.holds_tableSet holding distinct) distinct untroubled
  have memory : Answers ⟨SharedTables.tableSet, policy, sink, threshold⟩ rows s' :=
    answers_of_holds (SharedTables.holds_tableSet distinct) distinct undisturbed
  exact agreesWith_of_answers rfl pinned memory

/-- Two rows in each table: one interface with traffic has no name, and one tag has no
traffic. -/
def twoRowsEach : TableRows where
  detail := [(⟨10, 0, 1⟩, ⟨100, 1, 0, 0⟩), (⟨11, 0, 2⟩, ⟨200000, 2, 0, 0⟩)]
  device := [(1, ⟨100, 1, 0, 0⟩), (2, ⟨200000, 2, 0, 0⟩)]
  ifaceNames := [(1, .ofName "wlan0"), (3, .ofName "eth0")]
  cookieTags := [(7, ⟨10, 0⟩), (8, ⟨12, 0⟩)]

/-- A hash map that is walked from the last of the given rows to the first. -/
def reversedMap [Layout K] [Layout V] (path : String) (rows : List (K × V)) : KernelMap :=
  ⟨path, 1, Layout.size K, Layout.size V, rows.reverse.map Pinned.encodeRow⟩

/-- A kernel with maps at the usual places that are all walked backwards; the service is
interrupted at its second lookup. -/
def reversedKernel (rows : TableRows) : Kernel where
  maps := [reversedMap MapPaths.default.detail rows.detail,
    reversedMap MapPaths.default.device rows.device,
    reversedMap MapPaths.default.ifaceNames rows.ifaceNames,
    reversedMap MapPaths.default.cookieTags rows.cookieTags]
  events := [⟨MapPaths.default.detail, .lookup, 2, none, [], true⟩]
  interrupted := false

/-- Tables in memory are enumerated forwards, and still the service answers alike. -/
theorem pinned_agreesWith_memory_reversed :
    twoRowsEach.Distinct ∧ (∀ e ∈ (reversedKernel twoRowsEach).events, e.Harmless) ∧
      Pinned.HoldingAll .default twoRowsEach (reversedKernel twoRowsEach).maps ∧
      SharedTables.Undisturbed (.ofRows twoRowsEach) (.quiet (.ofRows twoRowsEach)) ∧
      AgreesWith ⟨Pinned.tableSet .default, foregroundPolicy [10], .keep, 150000⟩
        (.start (reversedKernel twoRowsEach))
        ⟨SharedTables.tableSet, foregroundPolicy [10], .keep, 150000⟩
        (.start (.quiet (.ofRows twoRowsEach))) := by
  have distinct : twoRowsEach.Distinct := by
    constructor <;> decide
  have harmless : ∀ e ∈ (reversedKernel twoRowsEach).events, e.Harmless := by
    intro e he
    cases List.mem_singleton.mp he
    exact ⟨rfl, rfl⟩
  have holding : Pinned.HoldingAll .default twoRowsEach (reversedKernel twoRowsEach).maps := by
    constructor
    · exact ⟨_, _, rfl, List.reverse_perm _, rfl⟩
    · exact ⟨_, _, rfl, List.reverse_perm _, rfl⟩
    · exact ⟨_, _, rfl, List.reverse_perm _, rfl⟩
    · exact ⟨_, _, rfl, List.reverse_perm _, rfl⟩
  have undisturbed := SharedTables.undisturbed_quiet (.ofRows twoRowsEach)
  refine ⟨distinct, harmless, holding, undisturbed, ?_⟩
  apply pinned_agreesWith_memory distinct
  · exact harmless
  · exact holding
  · exact undisturbed

end Accounting

end TrafficStats
