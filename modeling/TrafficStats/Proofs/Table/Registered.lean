import TrafficStats.Proofs.Kernel.Holding
import TrafficStats.Proofs.Shared.Holding
import TrafficStats.Proofs.Text.Cut

/-!
# Registering an interface

A name that is registered for an interface index is written into a field of sixteen bytes and
read back from there. If its first fifteen bytes are whole characters, these are the name under
which the traffic of the interface is reported from then on. If they are not, the interface has
no name: its traffic is left out of reports and charged to their trackers, although the
registration was answered with success (`registersName`).
-/

namespace TrafficStats

open Query RowResult

variable {σ K V : Type} {steady : σ → Prop}

/-! ### A row and the others -/

/-- A table of which the given rows can be read, in whatever order it delivers them and whatever
other rows cannot be read. -/
def TableAccess.HasReadable (steady : σ → Prop) (table : TableAccess σ K V)
    (rows : List (K × V)) : Prop :=
  ∃ read delivered, table.Shows steady read (.ok delivered) ∧ (readable delivered).Perm rows ∧
    (rows.map Prod.fst).Nodup ∧ ∀ row ∈ rows, read row.1 = .ok (some row.2)

namespace Report

/-- A device row is reported under a name, and the tracker is charged with other rows only. -/
structure RowShown (source : CounterTable σ UInt32) (name? : UInt32 → Option String)
    (rows : List (UInt32 × RawCounters)) (row : UInt32 × RawCounters) (name : String) (t : Tracker)
    (report : Report) (t' : Tracker) : Prop where
  record : ⟨name, uidAll, .all, tagNone, row.2.clamped⟩ ∈ report.records
  unread : t'.lastReading (.device row.1) = t.lastReading (.device row.1)
  state : t'.state = t.state.addAll t.threshold (source.chargeable name? t (rows.erase row))

/-- A device row is left out of a report, and the tracker is charged with what it grew by. -/
structure RowLeftOut (source : CounterTable σ UInt32) (name? : UInt32 → Option String)
    (rows : List (UInt32 × RawCounters)) (row : UInt32 × RawCounters) (t : Tracker)
    (report : Report) (t' : Tracker) : Prop where
  records : report.records.Perm ((rows.erase row).filterMap (source.record? name?))
  state : t'.state = t.state.addAll t.threshold
    ((t.growth? (.device row.1) row.2).toList ++ source.chargeable name? t (rows.erase row))

variable {device : TableAccess σ UInt32 RawCounters} {names : TableAccess σ UInt32 NameField}
variable {name? : UInt32 → Option String} {rows : List (UInt32 × RawCounters)}
variable {row : UInt32 × RawCounters}

/-- What a reading of a device table makes of one of its rows. -/
theorem ensures_read_row (has : device.HasReadable steady rows)
    (named : ∀ i, Ensures steady (names.resolve i) (· = name? i)) (mem : row ∈ rows) (t : Tracker) :
    Ensures steady (Report.read (.device device) names t) fun outcome =>
      ∃ report, outcome.1 = .ok report ∧
        (∀ name, name? row.1 = some name → Text.bounded maxIfaceBytes name = name →
          RowShown (.device device) name? rows row name t report outcome.2) ∧
        (name? row.1 = none → RowLeftOut (.device device) name? rows row t report outcome.2) := by
  obtain ⟨read, delivered, shows, perm, nodup, present⟩ := has
  have shows' : (CounterTable.device device).access.Shows steady read (.ok delivered) := shows
  have distinct : Function.Injective (CounterTable.device device).rowId :=
    fun _ _ same => RowId.device.inj same
  have answered := ensures_read shows' named t
  have charged := ensures_read_charged distinct shows' ((perm.map Prod.fst).nodup_iff.mpr nodup)
    (fun row h => present row (perm.mem_iff.mp h)) named t
  -- The row may as well have come first.
  have first : (readable delivered).Perm (row :: rows.erase row) :=
    perm.trans (List.perm_cons_erase mem)
  intro s hs
  obtain ⟨answer, still⟩ := answered s hs
  obtain ⟨charged, -⟩ := charged s hs
  have state := charged.state.trans (TrackerState.addAll_perm
    ((CounterTable.device device).chargeable_perm name? (fun _ => rfl) first)
    ((CounterTable.device device).pos_of_mem_chargeable name? t))
  have split (f : UInt32 × RawCounters → Option Int64) :
      (row :: rows.erase row).filterMap f = (f row).toList ++ (rows.erase row).filterMap f := by
    rw [List.filterMap_cons]
    cases f row <;> rfl
  rw [CounterTable.chargeable, split] at state
  refine ⟨⟨_, answer, ?_, ?_⟩, still⟩
  · intro name hname whole
    have hname' : name? ((CounterTable.device device).ifaceIndex row.1) = some name := hname
    have recorded : (CounterTable.device device).record? name? row =
        some (.make name uidAll .all tagNone row.2.clamped) := by
      rw [CounterTable.record?, hname']
      rfl
    have free : (CounterTable.device device).chargeable? name? t row = none := by
      rw [CounterTable.chargeable?, hname']
    rw [ReportRecord.make, whole] at recorded
    rw [free] at state
    refine ⟨?_, ?_, state⟩
    · exact List.mem_filterMap.mpr ⟨row, perm.mem_iff.mpr mem, recorded⟩
    · apply charged.others row.1
      intro _
      rw [hname']
      rfl
  · intro unnamed
    have unnamed' : name? ((CounterTable.device device).ifaceIndex row.1) = none := unnamed
    have unrecorded : (CounterTable.device device).record? name? row = none := by
      rw [CounterTable.record?, unnamed']
      rfl
    have owed : (CounterTable.device device).chargeable? name? t row =
        t.growth? (.device row.1) row.2 := by
      rw [CounterTable.chargeable?, unnamed']
      rfl
    rw [owed] at state
    refine ⟨?_, state⟩
    have records := first.filterMap ((CounterTable.device device).record? name?)
    rwa [List.filterMap_cons, unrecorded] at records

end Report

/-! ### Names -/

namespace Accounting

open Text

/-- What follows from the registration of a name for an interface, where `name?` gives the names
of all interfaces and `hasRows` says which rows the device table has. -/
structure Registered (a : Accounting σ) (ifaceIndex : UInt32) (name : String)
    (name? : UInt32 → Option String) (hasRows : List (UInt32 × RawCounters) → Prop)
    (s : Session σ) : Prop where
  short : (utf8 name).length ≤ 15 → CutsBetween 15 name
  named : CutsBetween 15 name → ∃ p dropped, p ≠ "" ∧ name = p ++ dropped ∧
    utf8 p = (utf8 name).take 15 ∧ ((utf8 name).length ≤ 15 → p = name) ∧
    (a.resolve ifaceIndex s).1 = some p ∧
    ∀ rows raw t, hasRows rows → (ifaceIndex, raw) ∈ rows →
      ∃ report, (a.deviceReportWith t s).1.1 = .ok report ∧
        Report.RowShown (.device a.tables.device) name? rows (ifaceIndex, raw) p t report
          (a.deviceReportWith t s).1.2
  unnamed : ¬ CutsBetween 15 name → (a.resolve ifaceIndex s).1 = none ∧
    ∀ rows raw t, hasRows rows → (ifaceIndex, raw) ∈ rows →
      ∃ report, (a.deviceReportWith t s).1.1 = .ok report ∧
        Report.RowLeftOut (.device a.tables.device) name? rows (ifaceIndex, raw) t report
          (a.deviceReportWith t s).1.2

variable {a : Accounting σ} {ifaceIndex : UInt32} {name : String} {name? : UInt32 → Option String}
variable {hasRows : List (UInt32 × RawCounters) → Prop} {s : Session σ}

/-- It follows once the name is in the table of names. -/
theorem registered_of_resolves (nonempty : name ≠ "") (noNul : '\x00' ∉ name.toList)
    (named : ∀ i, Ensures steady (a.tables.ifaceNames.resolve i) (· = name? i))
    (written : name? ifaceIndex = (NameField.ofName name).name?)
    (has : ∀ rows, hasRows rows → a.tables.device.HasReadable steady rows) (hs : steady s.tables) :
    a.Registered ifaceIndex name name? hasRows s := by
  rw [NameField.name?_ofName nonempty noNul] at written
  have resolved : (a.resolve ifaceIndex s).1 = name? ifaceIndex := (named ifaceIndex s hs).1
  constructor
  case short => exact cutsBetween_of_length_le
  case named =>
    intro cuts
    obtain ⟨dropped, split⟩ := (isLongestPart_bounded 15 name).initial
    rw [if_pos cuts] at written
    refine ⟨bounded 15 name, dropped, bounded_ne_empty (by decide) nonempty, split, cuts,
      bounded_of_length_le, resolved.trans written, ?_⟩
    intro rows raw t hrows mem
    have whole : bounded maxIfaceBytes (bounded 15 name) = bounded 15 name := by
      apply bounded_of_length_le
      rw [cuts]
      exact (List.length_take_le _ _).trans (by decide)
    obtain ⟨⟨report, answered, shown, -⟩, -⟩ :=
      Report.ensures_read_row (has rows hrows) named mem t s hs
    exact ⟨report, answered, shown _ written whole⟩
  case unnamed =>
    intro cuts
    rw [if_neg cuts] at written
    refine ⟨resolved.trans written, ?_⟩
    intro rows raw t hrows mem
    obtain ⟨⟨report, answered, -, leftOut⟩, -⟩ :=
      Report.ensures_read_row (has rows hrows) named mem t s hs
    exact ⟨report, answered, leftOut written⟩

/-- A registration that succeeds has written the field of the name. -/
theorem put_of_registerIndex (registered : (a.registerIndex ifaceIndex name s).1 = .ok ()) :
    (a.tables.ifaceNames.put ifaceIndex (.ofName name) s.tables).1 = .ok () ∧
      (a.registerIndex ifaceIndex name s).2.tables =
        (a.tables.ifaceNames.put ifaceIndex (.ofName name) s.tables).2 := by
  unfold registerIndex at registered ⊢
  rw [bind_apply] at registered ⊢
  simp only [onTables] at registered ⊢
  generalize a.tables.ifaceNames.put ifaceIndex (.ofName name) s.tables = outcome at registered ⊢
  obtain ⟨answer, after⟩ := outcome
  cases answer with
  | error e => cases registered
  | ok done => exact ⟨rfl, rfl⟩

end Accounting

/-! ### Tables in memory -/

namespace SharedTables

variable {K V : Type} [Ranked K] {field : TableField K V}

/-- Of a table that nobody edits the live rows can be read. -/
theorem hasReadable_access (field : TableField K V) {tables : MemoryTables}
    (available : (field.get tables).unavailable = false) :
    (access field).HasReadable (Undisturbed tables) (field.get tables).liveRows := by
  refine ⟨_, _, shows_of_available field available, ?_, (field.get tables).nodup_liveRows, ?_⟩
  · rw [MemoryStore.readable_allRows]
  · exact fun row mem => (field.get tables).read_of_mem_liveRows available mem

/-- A value that was stored can be read. -/
theorem read_of_put (lawful : field.Lawful) {k : K} {v : V} {s : SharedTables}
    (stored : ((access field).put k v s).1 = .ok ()) :
    (field.get ((access field).put k v s).2.tables).read k = .ok (some v) := by
  simp only [access, call, lawful.get_set] at stored ⊢
  generalize field.get (s.before field.name .put).tables = store at stored ⊢
  unfold MemoryStore.put at stored ⊢
  split at stored
  · cases stored
  · rename_i available
    simp [MemoryStore.read, available, MemoryStore.insert, Rows.get?_insert]

end SharedTables

/-! ### Pinned maps -/

namespace Pinned

open Kernel

variable {K V : Type} [Layout K] [Layout V] {path : String} {maps : List KernelMap}

theorem hasReadable_access [DecidableEq K] {rows : List (K × V)} (holding : Holding path rows maps)
    (nodup : (rows.map Prod.fst).Nodup) :
    (access K V path).HasReadable (Untroubled maps) rows := by
  obtain ⟨order, perm, shows⟩ := holds_access holding nodup
  refine ⟨_, _, shows, ?_, nodup, ?_⟩
  · rw [readable_map_ok]
    exact perm
  · intro row mem
    rw [(lookup_eq_some_iff_of_nodup nodup).mpr mem]

/-- The value of a key in a map. -/
def valueIn (map : KernelMap) (k : K) : Option V :=
  (map.rows.value? (Layout.encode k)).map Layout.decode

/-- A value that was stored is in the map. -/
theorem valueIn_of_put {k : K} {v : V} {kernel : Kernel}
    (stored : (put path k v kernel).1 = .ok ()) {map : KernelMap}
    (pinned : (put path k v kernel).2.map? path = some map) : valueIn map k = some v := by
  simp only [put, Kernel.update, bind, StateT.bind, call_eq] at stored pinned
  cases refused : kernel.refusalAt path .update 0 with
  | some refusal =>
      rw [refused] at stored
      cases stored
  | none =>
      rw [refused] at pinned
      change ((kernel.before path .update).2.alter path _).map? path = some map at pinned
      rw [map?_alter_eq, Option.map_eq_some_iff] at pinned
      obtain ⟨before, found, rfl⟩ := pinned
      rw [valueIn, if_pos (path_of_map? found), KernelRows.value?_store, if_pos rfl,
        Option.map_some, Layout.decode_encode]

end Pinned

/-! ### The service -/

namespace Accounting

open Pinned

/-- What a registration in tables in memory leads to, if it succeeds and nobody edits the tables
afterwards. -/
def RegistersInMemory (a : Accounting SharedTables) (ifaceIndex : UInt32) (name : String) : Prop :=
  ∀ s, (a.registerIndex ifaceIndex name s).1 = .ok () →
    let after := (a.registerIndex ifaceIndex name s).2
    after.tables.pending = [] →
      a.Registered ifaceIndex name after.tables.tables.interfaceName?
        (fun rows => after.tables.tables.device.unavailable = false ∧
          rows = after.tables.tables.device.liveRows) after

/-- What a registration in pinned maps leads to, if it succeeds and the kernel is untroubled
afterwards. -/
def RegistersPinned (a : Accounting Kernel) (paths : MapPaths) (ifaceIndex : UInt32)
    (name : String) : Prop :=
  ∀ s map, (a.registerIndex ifaceIndex name s).1 = .ok () →
    let after := (a.registerIndex ifaceIndex name s).2
    (∀ e ∈ after.tables.events, e.Harmless) →
      after.tables.map? paths.ifaceNames = some map →
        a.Registered ifaceIndex name (fun i => (valueIn map i).bind NameField.name?)
          (fun rows => Holding paths.device rows after.tables.maps ∧ (rows.map Prod.fst).Nodup)
          after

variable {ifaceIndex : UInt32} {name : String}

theorem registersInMemory {a : Accounting SharedTables} (shared : a.tables = SharedTables.tableSet)
    (nonempty : name ≠ "") (noNul : '\x00' ∉ name.toList) :
    a.RegistersInMemory ifaceIndex name := by
  intro s answered after calm
  obtain ⟨stored, left⟩ := put_of_registerIndex answered
  rw [shared] at stored left
  have undisturbed : SharedTables.Undisturbed after.tables.tables after.tables := ⟨rfl, calm⟩
  have written : after.tables.tables.interfaceName? ifaceIndex = (NameField.ofName name).name? := by
    have read := SharedTables.read_of_put TableField.lawful_ifaceNames stored
    rw [MemoryTables.interfaceName?, show after.tables = _ from left]
    exact congrArg NameField.named? read
  have named : ∀ i, Ensures (SharedTables.Undisturbed after.tables.tables)
      (a.tables.ifaceNames.resolve i) (· = after.tables.tables.interfaceName? i) := by
    rw [shared]
    exact SharedTables.gives_resolve
  refine registered_of_resolves nonempty noNul named written ?_ undisturbed
  rintro rows ⟨available, rfl⟩
  rw [shared]
  exact SharedTables.hasReadable_access .device available

theorem registersPinned {a : Accounting Kernel} {paths : MapPaths}
    (pinned : a.tables = tableSet paths) (nonempty : name ≠ "") (noNul : '\x00' ∉ name.toList) :
    a.RegistersPinned paths ifaceIndex name := by
  intro s map answered after harmless found
  obtain ⟨stored, left⟩ := put_of_registerIndex answered
  rw [pinned] at stored left
  have untroubled : after.tables.Untroubled after.tables.maps := ⟨rfl, harmless⟩
  have written : (valueIn map ifaceIndex).bind NameField.name? = (NameField.ofName name).name? := by
    rw [valueIn_of_put stored (left ▸ found), Option.bind_some]
  have named : ∀ i, Ensures (Kernel.Untroubled after.tables.maps) (a.tables.ifaceNames.resolve i)
      (· = (valueIn map i).bind NameField.name?) := by
    intro i
    rw [pinned, Kernel.untroubled_eq]
    refine (ensures_read Kernel.lasting_unrefused (fun _ unrefused _ _ => unrefused) found i).bind
      fun answer eq => ?_
    rw [eq]
    exact .pure rfl
  refine registered_of_resolves nonempty noNul named written ?_ untroubled
  rintro rows ⟨holding, nodup⟩
  rw [pinned]
  exact hasReadable_access holding nodup

/-- Wherever the tables are, an interface has the name that was registered for it if its first
fifteen bytes are whole characters, and none if they are not. -/
theorem registersName (nonempty : name ≠ "") (noNul : '\x00' ∉ name.toList) (ifaceIndex : UInt32)
    (policy : DetailKey → TrafficSet) (sink : AlertSink) (threshold : Int64) :
    RegistersInMemory ⟨SharedTables.tableSet, policy, sink, threshold⟩ ifaceIndex name ∧
      ∀ paths, RegistersPinned ⟨tableSet paths, policy, sink, threshold⟩ paths ifaceIndex name :=
  ⟨registersInMemory rfl nonempty noNul, fun _ => registersPinned rfl nonempty noNul⟩

/-- A name whose fifteenth byte is the first of the two of its last character. -/
def cutName : String := "aaaaaaaaaaaaaaé"

/-- Tables with traffic on one interface that has no name. -/
def oneUnnamed : MemoryTables :=
  { MemoryTables.empty with device := .ofList [(5, ⟨10, 1, 10, 1⟩)] }

/-- The registration of a name that is cut in a character succeeds, and leaves the interface
without a name; a name that is not cut is there afterwards. -/
theorem registersName_cutName :
    (¬ Text.CutsBetween 15 cutName ∧
      RegistersInMemory (.new SharedTables.tableSet) 5 cutName ∧
      ((new SharedTables.tableSet).registerIndex 5 cutName (.start (.quiet oneUnnamed))).1 =
        .ok () ∧
      ((new SharedTables.tableSet).resolve 5 ((new SharedTables.tableSet).registerIndex 5 cutName
        (.start (.quiet oneUnnamed))).2).1 = none) ∧
    Text.CutsBetween 15 "wlan0" ∧ RegistersInMemory (.new SharedTables.tableSet) 5 "wlan0" ∧
      ((new SharedTables.tableSet).resolve 5 ((new SharedTables.tableSet).registerIndex 5 "wlan0"
        (.start (.quiet oneUnnamed))).2).1 = some "wlan0" := by
  refine ⟨⟨by decide +kernel, ?_, by decide +kernel, by decide +kernel⟩, by decide +kernel, ?_,
    by decide +kernel⟩
  · exact (registersName (by decide) (by decide +kernel) 5 _ _ _).1
  · exact (registersName (by decide) (by decide +kernel) 5 _ _ _).1

end Accounting

end TrafficStats
