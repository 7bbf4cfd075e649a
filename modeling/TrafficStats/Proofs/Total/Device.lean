import TrafficStats.Proofs.Shared.Undisturbed
import TrafficStats.Proofs.Total.Records

/-!
# Totals and the report of the device table

The report names each index once and is grouped afterwards; the totals look up the name of
every row anew and add only what matches. Both come to the same: the grouped report has
one record for each name, which carries the total of that name, and the total of all named
interfaces is the sum of the records. All of them miss the same rows.
-/

namespace TrafficStats

open SharedTables Report

variable (tables : MemoryTables)

/-- The record for a device row carries the name of its interface. -/
theorem device_record? (row : UInt32 × RawCounters) :
    (CounterTable.device (access .device)).record? tables.interfaceName? row =
      (tables.interfaceName? row.1).map fun name =>
        ⟨name, uidAll, .all, tagNone, row.2.clamped⟩ := by
  change (tables.interfaceName? row.1).map _ = _
  cases hname : tables.interfaceName? row.1 with
  | none => rfl
  | some name =>
      rw [Option.map_some, Option.map_some]
      change some (ReportRecord.make name uidAll .all tagNone row.2.clamped) = _
      rw [ReportRecord.make, tables.bounded_interfaceName? hname]

def MemoryTables.deviceReport : Report :=
  tables.reportOf (.device (access .device)) tables.device

def MemoryTables.totalOfName (name : String) : Total :=
  tables.device.totalOf fun i => tables.interfaceName? i = some name

def MemoryTables.totalOfNamed : Total :=
  tables.device.totalOf fun i => (tables.interfaceName? i).isSome

/-- The total of a name is what the records of that name amount to. -/
theorem mass_filter_iface (name : String) :
    mass (tables.deviceReport.records.filter fun r => r.iface = name) =
      (tables.totalOfName name).counters := by
  refine mass_filter_records (CounterTable.keepsCounters_device _) ?_ _
  intro row
  rw [device_record?]
  cases tables.interfaceName? row.1 <;> simp

/-- The total of all named interfaces is what all records amount to. -/
theorem mass_deviceReport :
    mass tables.deviceReport.records = tables.totalOfNamed.counters := by
  rw [← List.filter_true tables.deviceReport.records]
  refine mass_filter_records (CounterTable.keepsCounters_device _) ?_ _
  intro row
  rw [device_record?]
  cases tables.interfaceName? row.1 <;> rfl

/-- Grouping keeps what the records of a name amount to. -/
theorem mass_filter_iface_group (name : String) :
    mass ((group tables.deviceReport.records).filter fun r => r.iface = name) =
      (tables.totalOfName name).counters :=
  (mass_filter_group (fun i => i.iface = name) _).trans (mass_filter_iface tables name)

/-- Device records differ in their names alone. -/
theorem identity_eq_of_mem_group {r : ReportRecord}
    (hr : r ∈ group tables.deviceReport.records) :
    r.identity = ⟨r.iface, uidAll, .all, tagNone⟩ := by
  have present : r.identity ∈ tables.deviceReport.records.map ReportRecord.identity :=
    (mem_identities_group _ _).mp (List.mem_map_of_mem hr)
  obtain ⟨q, hq, same⟩ := List.mem_map.mp present
  obtain ⟨row, -, recorded⟩ := List.mem_filterMap.mp hq
  rw [device_record?, Option.map_eq_some_iff] at recorded
  obtain ⟨name, -, rfl⟩ := recorded
  have iface : name = r.iface := congrArg Identity.iface same
  rw [← same, ← iface]
  rfl

/-- The record of a name in the grouped report carries the total of the name. -/
theorem totalOfName_eq_of_mem_group {r : ReportRecord}
    (hr : r ∈ group tables.deviceReport.records) :
    (tables.totalOfName r.iface).counters = r.counters := by
  have own : ((group tables.deviceReport.records).filter fun q => q.iface = r.iface) = [r] := by
    rw [← (increasing_group _).filter_identity hr]
    refine List.filter_congr fun q hq => ?_
    rw [identity_eq_of_mem_group tables hq, identity_eq_of_mem_group tables hr]
    simp
  rw [← mass_filter_iface_group, own, mass_cons, mass_nil, Counters.add_zero]

/-- A name that is not reported has no traffic. -/
theorem totalOfName_eq_zero {name : String}
    (unreported : name ∉ (group tables.deviceReport.records).map ReportRecord.iface) :
    (tables.totalOfName name).counters = 0 := by
  have none : ((group tables.deviceReport.records).filter fun q => q.iface = name) = [] := by
    rw [List.filter_eq_nil_iff]
    intro q hq
    simp only [decide_eq_true_eq]
    rintro rfl
    exact unreported (List.mem_map_of_mem hq)
  rw [← mass_filter_iface_group, none, mass_nil]

theorem nodup_ifaces_group :
    ((group tables.deviceReport.records).map ReportRecord.iface).Nodup := by
  refine List.pairwise_map.mpr ?_
  refine (increasing_group _).pairwise_identity_ne.imp_of_mem fun {q r} hq hr differ same => ?_
  refine differ ?_
  rw [identity_eq_of_mem_group tables hq, identity_eq_of_mem_group tables hr, same]

/-- The totals of the names that are reported add up to what all records amount to. -/
theorem sum_totalOfName :
    tables.totalOfNamed.counters =
      ∑ name ∈ (tables.deviceReport.records.map ReportRecord.iface).toFinset,
        (tables.totalOfName name).counters := by
  have covers : ∀ r ∈ tables.deviceReport.records,
      r.iface ∈ (tables.deviceReport.records.map ReportRecord.iface).toFinset :=
    fun r hr => List.mem_toFinset.mpr (List.mem_map_of_mem hr)
  rw [← mass_deviceReport]
  refine (Counters.sum_map_eq_sum_fibers _ ReportRecord.counters covers).trans ?_
  exact Finset.sum_congr rfl fun name _ => mass_filter_iface tables name

/-- How a report of the device table, the totals by name and the total of all named
interfaces go together: a total by name is the sum over the live rows that have the name,
and all else follows the totals by name. -/
structure DeviceTotalsAgree (report : Report) (ofName : String → Total) (named : Total) :
    Prop where
  ofName_eq : ∀ name, (ofName name).counters = Counters.sum
    (Total.keptCounters (fun i => tables.interfaceName? i = some name) tables.device.liveRows)
  distinct : ((group report.records).map ReportRecord.iface).Nodup
  reported : ∀ r ∈ group report.records, (ofName r.iface).counters = r.counters
  unreported : ∀ name, name ∉ (group report.records).map ReportRecord.iface →
    (ofName name).counters = 0
  named_eq_mass : named.counters = mass report.records
  named_eq_sum : named.counters =
    ∑ name ∈ (report.records.map ReportRecord.iface).toFinset, (ofName name).counters
  skippedRows : report.skippedRows = tables.device.malformedRows ∧
    named.skippedRows = tables.device.malformedRows ∧
    ∀ name, (ofName name).skippedRows = tables.device.malformedRows

/-- While nobody edits the tables, the service answers with a device report and with totals
over the device table that go together. -/
def DeviceAnswersAgree (a : Accounting SharedTables) : Prop :=
  ∃ report ofName named, Gives tables a.deviceReport (.ok report) ∧
    (∀ name, Gives tables (a.totalForName name) (.ok (ofName name))) ∧
    Gives tables a.totalForNamed (.ok named) ∧
    DeviceTotalsAgree tables report ofName named

variable {tables} {a : Accounting SharedTables}

theorem gives_deviceReport (shared : a.tables = tableSet)
    (available : tables.device.unavailable = false) :
    Gives tables a.deviceReport (.ok tables.deviceReport) := by
  show Gives tables (Prod.fst <$> Report.read (.device a.tables.device) a.tables.ifaceNames
    a.newTracker) _
  rw [shared]
  exact gives_read .device rfl available _

/-- A total may choose the rows by the names of their interfaces. -/
theorem gives_ofNames (available : tables.device.unavailable = false)
    (chosen : Option String → Bool) :
    Gives tables
      (Total.ofRows .device (access .device) fun i => do
        pure (chosen (← (access .ifaceNames).resolve i)))
      (.ok (tables.device.totalOf fun i => chosen (tables.interfaceName? i))) := by
  apply gives_ofRows .device available
  intro i
  exact (gives_resolve i).bind_pure chosen

theorem gives_totalForName (shared : a.tables = tableSet)
    (available : tables.device.unavailable = false) (name : String) :
    Gives tables (a.totalForName name) (.ok (tables.totalOfName name)) := by
  show Gives tables (Total.forName a.tables.device a.tables.ifaceNames name) _
  rw [shared]
  exact gives_ofNames available fun resolved => resolved = some name

theorem gives_totalForNamed (shared : a.tables = tableSet)
    (available : tables.device.unavailable = false) :
    Gives tables a.totalForNamed (.ok tables.totalOfNamed) := by
  show Gives tables (Total.forNamed a.tables.device a.tables.ifaceNames) _
  rw [shared]
  exact gives_ofNames available Option.isSome

/-- They do as long as the device table is available, whatever is in the tables. -/
theorem deviceTotals_agree (shared : a.tables = tableSet)
    (available : tables.device.unavailable = false) : DeviceAnswersAgree tables a := by
  refine ⟨tables.deviceReport, tables.totalOfName, tables.totalOfNamed,
    gives_deviceReport shared available, gives_totalForName shared available,
    gives_totalForNamed shared available, ?_⟩
  exact {
    ofName_eq := fun _ => rfl
    distinct := nodup_ifaces_group tables
    reported := fun r hr => totalOfName_eq_of_mem_group tables hr
    unreported := fun name hname => totalOfName_eq_zero tables hname
    named_eq_mass := (mass_deviceReport tables).symm
    named_eq_sum := sum_totalOfName tables
    skippedRows := ⟨rfl, rfl, fun _ => rfl⟩ }

/-- Two indices of one name, one whose name field is not valid UTF-8, one without a name and a
row that cannot be read. -/
def sharedName : MemoryTables :=
  { MemoryTables.empty with
    device := (MemoryStore.ofList [(3, ⟨10, 1, 10, 1⟩), (8, ⟨5, 1, 5, 1⟩), (6, ⟨7, 1, 7, 1⟩),
      (9, ⟨1, 1, 1, 1⟩)]).insertMalformed 4 "value size 16"
    ifaceNames := .ofList [(3, .ofName "rmnet0"), (4, .ofName "rmnet0"), (8, .ofName "rmnet0"),
      (6, .ofBytes [0xFF])] }

/-- Both readable rows of the name are in its total and in its record. -/
theorem deviceTotals_agree_sharedName :
    DeviceAnswersAgree sharedName (.new tableSet) ∧
      ((Accounting.new tableSet).totalForName "rmnet0" (.start (.quiet sharedName))).1 =
        .ok ⟨⟨15, 2, 15, 2⟩, 1⟩ :=
  ⟨deviceTotals_agree rfl rfl, by decide +kernel⟩

end TrafficStats
