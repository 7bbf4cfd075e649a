import TrafficStats.Proofs.Report.Hidden
import TrafficStats.Proofs.Table.Registered
import TrafficStats.Proofs.Unnamed.Growth

/-!
# When hidden traffic is material

A report that has a tracking context of its own charges every unnamed row with all that it has
counted. It raises an alert if these rows together reach the threshold, at the row with which
they do (`CounterTable.weighed_chargeAll`). In which order the rows are read decides which row
that is, but not whether there is one (`freshReports_alertIfMaterial`).
-/

namespace TrafficStats

open Query RowResult SharedTables TrackerCall

variable {σ K : Type} {steady : σ → Prop}

/-- What rows come to together, in exact numbers. -/
def bytesOf (rows : List (K × RawCounters)) : Nat :=
  (rows.map fun row => row.2.reading).sum

theorem bytesOf_concat (rows : List (K × RawCounters)) (row : K × RawCounters) :
    bytesOf (rows ++ [row]) = bytesOf rows + row.2.reading := by
  simp [bytesOf]

theorem bytesOf_perm {rows rows' : List (K × RawCounters)} (h : rows.Perm rows') :
    bytesOf rows = bytesOf rows' :=
  (h.map _).sum_nat

/-- The alerts for rows that are added up one after the other: none if they stay below the
threshold, and one if they reach it, for the row with which they do so and with their sum until
then. -/
structure AlertsIfMaterial (threshold : Int64) (ifaceIndex : K → UInt32)
    (rows : List (K × RawCounters)) (alerts : List Alert) : Prop where
  below : bytesOf rows < threshold.toInt → alerts = []
  reached : threshold.toInt ≤ bytesOf rows → ∃ front row later, ∃ undercount : Int64,
    rows = front ++ row :: later ∧ bytesOf front < threshold.toInt ∧
      threshold.toInt ≤ bytesOf (front ++ [row]) ∧
      undercount.toInt = min (bytesOf (front ++ [row])) 0x7FFFFFFFFFFFFFFF ∧
      alerts = [⟨ifaceIndex row.1, undercount⟩]

/-- How many alerts there are depends on the sum of all rows. -/
theorem AlertsIfMaterial.length_eq {threshold : Int64} {ifaceIndex : K → UInt32}
    {rows : List (K × RawCounters)} {alerts : List Alert}
    (h : AlertsIfMaterial threshold ifaceIndex rows alerts) :
    alerts.length = if threshold.toInt ≤ bytesOf rows then 1 else 0 := by
  split
  · rename_i reached
    obtain ⟨front, row, later, undercount, -, -, -, -, rfl⟩ := h.reached reached
    rfl
  · rename_i below
    rw [h.below (Int.not_le.mp below)]
    rfl

/-! ### Charging rows to a new tracker -/

namespace Tracker

/-- A row that is read for the first time has grown by all that it has counted. -/
theorem toInt_growth_zero (raw : RawCounters) :
    (growth 0 raw.clamped.totalBytes).toInt = raw.reading := by
  have zero : (0 : Int64).toInt = (0 : Nat) := rfl
  rw [toInt_growth zero raw.toInt_totalBytes, exactGrowth, if_pos (Nat.zero_le _), Nat.sub_zero]

end Tracker

namespace CounterTable

/-- What is true of a tracker after it has been charged with rows for the first time, and of the
calls that tell of it. -/
structure Weighed (source : CounterTable σ K) (threshold : Int64)
    (rows : List (K × RawCounters)) (outcome : Tracker × List TrackerCall) : Prop where
  threshold_eq : outcome.1.threshold = threshold
  unread : ∀ row, row ∉ rows.map (fun row => source.rowId row.1) →
    outcome.1.lastReading row = 0
  adding : bytesOf rows < threshold.toInt →
    ∃ total, outcome.1.state = .accumulating total ∧ total.toInt = bytesOf rows
  silent : threshold.toInt ≤ bytesOf rows → outcome.1.state = .suppressed
  material : AlertsIfMaterial threshold source.ifaceIndex rows (alerts outcome.2)

variable {source : CounterTable σ K} {threshold : Int64} {rows : List (K × RawCounters)}
variable {row : K × RawCounters} {t : Tracker} {calls : List TrackerCall}

/-- Once the threshold is reached, a further row changes nothing. -/
theorem Weighed.concat_of_reached (h : source.Weighed threshold rows (t, calls))
    (reached : threshold.toInt ≤ bytesOf rows) :
    source.Weighed threshold (rows ++ [row])
      ((source.charge t row).1, calls ++ (source.charge t row).2) := by
  have silent : t.state = .suppressed := h.silent reached
  have more := bytesOf_concat rows row
  rw [charge, if_pos silent, Tracker.charge]
  refine ⟨h.threshold_eq, ?_, by omega, fun _ => silent, by omega, ?_⟩
  · intro other new
    apply h.unread
    intro mem
    apply new
    rw [List.map_append]
    exact List.mem_append_left _ mem
  · intro _
    obtain ⟨front, first, later, undercount, rfl, below, reaches, cut, raised⟩ :=
      h.material.reached reached
    refine ⟨front, first, later ++ [row], undercount, by simp, below, reaches, cut, ?_⟩
    rw [alerts_append, raised, alerts_cons_row, alerts_nil, List.append_nil]

theorem Weighed.unread_noteReading (h : source.Weighed threshold rows (t, calls))
    (row : K × RawCounters) (bytes : Int64) :
    ∀ other, other ∉ (rows ++ [row]).map (fun row => source.rowId row.1) →
      (t.noteReading (source.rowId row.1) bytes).lastReading other = 0 := by
  intro other new
  rw [List.map_append, List.mem_append, not_or] at new
  have differs : other ≠ source.rowId row.1 := fun same => new.2 (List.mem_singleton.mpr same)
  rw [Tracker.lastReading_noteReading, if_neg differs]
  exact h.unread other new.1

/-- Before that, a row that is read for the first time adds all that it has counted. -/
theorem Weighed.concat_of_below (h : source.Weighed threshold rows (t, calls))
    (below : bytesOf rows < threshold.toInt)
    (new : source.rowId row.1 ∉ rows.map fun row => source.rowId row.1) :
    source.Weighed threshold (rows ++ [row])
      ((source.charge t row).1, calls ++ (source.charge t row).2) := by
  obtain ⟨total, adding, exact'⟩ := h.adding below
  have adding : t.state = .accumulating total := adding
  have quiet := h.material.below below
  have more := bytesOf_concat rows row
  have unread := h.unread_noteReading row row.2.clamped.totalBytes
  have zero : t.lastReading (source.rowId row.1) = 0 := h.unread _ new
  have active : t.state ≠ .suppressed := by
    rw [adding]
    exact nofun
  rw [charge, if_neg active, Tracker.charge, zero]
  have all := Tracker.toInt_growth_zero row.2
  generalize Tracker.growth 0 row.2.clamped.totalBytes = grown at all ⊢
  split
  · obtain ⟨reaches, undercount, cut, eq⟩ | ⟨remains, total', exact', eq⟩ :=
      (t.noteReading (source.rowId row.1) row.2.clamped.totalBytes).add_exact_cases
        (source.ifaceIndex row.1) adding exact' all more
    · rw [show (t.noteReading _ _).threshold = threshold from h.threshold_eq] at reaches
      rw [eq]
      refine ⟨h.threshold_eq, unread, by omega, fun _ => rfl, by omega, fun _ => ?_⟩
      refine ⟨rows, row, [], _, rfl, below, reaches, cut, ?_⟩
      rw [alerts_append, quiet]
      rfl
    · rw [show (t.noteReading _ _).threshold = threshold from h.threshold_eq] at remains
      rw [eq]
      refine ⟨h.threshold_eq, unread, fun _ => ⟨total', rfl, exact'⟩, by omega, fun _ => ?_,
        by omega⟩
      rw [alerts_append, quiet]
      rfl
  · rename_i empty
    rw [Int64.lt_iff_toInt_lt, all, Int64.toInt_zero] at empty
    refine ⟨h.threshold_eq, unread, fun _ => ⟨total, adding, by omega⟩, by omega, fun _ => ?_,
      by omega⟩
    rw [alerts_append, quiet]
    rfl

/-- Rows that a new tracker is charged with are weighed. -/
theorem weighed_chargeAll (positive : 0 < threshold) (sink : AlertSink)
    (nodup : (rows.map fun row => source.rowId row.1).Nodup) :
    source.Weighed threshold rows (source.chargeAll (.new threshold sink) rows) := by
  induction rows using List.reverseRecOn with
  | nil =>
      have below : (0 : Int) < threshold.toInt := Int64.lt_iff_toInt_lt.mp positive
      refine ⟨rfl, fun _ _ => rfl, fun _ => ⟨0, rfl, rfl⟩, fun reached => ?_, fun _ => rfl,
        fun reached => ?_⟩
      · exact absurd reached (Int.not_le.mpr below)
      · exact absurd reached (Int.not_le.mpr below)
  | append_singleton rows row ih =>
      rw [List.map_append, List.nodup_append] at nodup
      obtain ⟨distinct, -, apart⟩ := nodup
      rw [chargeAll_concat]
      by_cases reached : threshold.toInt ≤ bytesOf rows
      · exact (ih distinct).concat_of_reached reached
      · refine (ih distinct).concat_of_below (Int.not_le.mp reached) ?_
        intro mem
        exact apart _ mem _ List.mem_cons_self rfl

end CounterTable

/-! ### Reports -/

/-- A reading with a new tracker raises the alerts that the unnamed rows call for. -/
theorem Report.alertsIfMaterial_read {source : CounterTable σ K}
    {names : TableAccess σ UInt32 NameField} {name? : UInt32 → Option String}
    (distinct : Function.Injective source.rowId)
    {read : K → Except StoreError (Option RawCounters)} {rows : List (RowResult K RawCounters)}
    (shows : source.access.Shows steady read (.ok rows))
    (nodup : ((readable rows).map Prod.fst).Nodup)
    (present : ∀ row ∈ readable rows, read row.1 = .ok (some row.2))
    (named : ∀ i, Ensures steady (names.resolve i) (· = name? i)) {threshold : Int64}
    (positive : 0 < threshold) (sink : AlertSink) {s : Session σ} (hs : steady s.tables) :
    ∃ alerts, (Report.read source names (.new threshold sink) s).2.raised sink =
        s.raised sink ++ alerts ∧
      AlertsIfMaterial threshold source.ifaceIndex (source.hidden name? (readable rows))
        alerts := by
  obtain ⟨-, calls, -, traced, charged, -⟩ :=
    Report.leaves_read (ω := Empty) shows present named (.new threshold sink) s hs
  obtain ⟨calls', -, traced', raised⟩ :=
    Report.follows_read false source names (.new threshold sink) s
  have same : calls = calls' := List.append_cancel_left (traced.symm.trans traced')
  have nodup' :
      ((source.hidden name? (readable rows)).map fun row => source.rowId row.1).Nodup := by
    have ids := nodup.map distinct
    rw [List.map_map] at ids
    exact ids.sublist (List.filter_sublist.map _)
  have weighed := CounterTable.weighed_chargeAll positive sink nodup'
  rw [← charged] at weighed
  refine ⟨alerts calls', raised, ?_⟩
  rw [← same]
  exact weighed.material

/-- The same for tables that deliver the rows in any order. -/
theorem Report.length_alerts_read {source : CounterTable σ K}
    {names : TableAccess σ UInt32 NameField} {name? : UInt32 → Option String}
    (distinct : Function.Injective source.rowId) {rows : List (K × RawCounters)}
    (has : source.access.HasReadable steady rows)
    (named : ∀ i, Ensures steady (names.resolve i) (· = name? i)) {threshold : Int64}
    (positive : 0 < threshold) (sink : AlertSink) {s : Session σ} (hs : steady s.tables) :
    ∃ alerts, (Report.read source names (.new threshold sink) s).2.raised sink =
        s.raised sink ++ alerts ∧
      alerts.length =
        if threshold.toInt ≤ bytesOf (source.hidden name? rows) then 1 else 0 := by
  obtain ⟨read, delivered, shows, perm, nodup, present⟩ := has
  have nodup' := (perm.map Prod.fst).nodup_iff.mpr nodup
  have present' : ∀ row ∈ readable delivered, read row.1 = .ok (some row.2) :=
    fun row mem => present row (perm.mem_iff.mp mem)
  obtain ⟨alerts, raised, material⟩ :=
    Report.alertsIfMaterial_read distinct shows nodup' present' named positive sink hs
  refine ⟨alerts, raised, ?_⟩
  rw [material.length_eq, CounterTable.hidden, bytesOf_perm (perm.filter _)]
  rfl

/-- The same for a table that nobody edits. -/
theorem SharedTables.alertsIfMaterial_read [Ranked K] {tables : MemoryTables}
    {source : CounterTable SharedTables K} (field : TableField K RawCounters)
    (shared : source.access = access field) (available : (field.get tables).unavailable = false)
    (distinct : Function.Injective source.rowId) {threshold : Int64} (positive : 0 < threshold)
    (sink : AlertSink) {s : Session SharedTables} (undisturbed : Undisturbed tables s.tables) :
    ∃ alerts, (Report.read source (access .ifaceNames) (.new threshold sink) s).2.raised sink =
        s.raised sink ++ alerts ∧
      AlertsIfMaterial threshold source.ifaceIndex
        (source.hidden tables.interfaceName? (field.get tables).liveRows) alerts := by
  rw [← (field.get tables).readable_allRows]
  have shows := shows_of_available field available
  rw [← shared] at shows
  refine Report.alertsIfMaterial_read distinct shows ?_ ?_ gives_resolve positive sink undisturbed
  · rw [MemoryStore.readable_allRows]
    exact (field.get tables).nodup_liveRows
  · rw [MemoryStore.readable_allRows]
    exact fun row => (field.get tables).read_of_mem_liveRows available

/-- The rows that can be read, but whose interface has no name. -/
def MemoryTables.unnamed [Ranked K] (tables : MemoryTables) (ifaceIndex : K → UInt32)
    (store : MemoryStore K RawCounters) : List (K × RawCounters) :=
  store.liveRows.filter fun row => (tables.interfaceName? (ifaceIndex row.1)).isNone

variable {a : Accounting SharedTables}

/-- A report in a tracking context of its own alerts exactly if the unnamed rows reach the
threshold, at the row with which they do; and if tables hold the same rows and names in another
order, it alerts just as often. -/
theorem freshReports_alertIfMaterial (shared : a.tables = tableSet) (positive : 0 < a.threshold)
    (tables : MemoryTables) :
    let detail := tables.unnamed DetailKey.ifaceIndex tables.detail
    let device := tables.unnamed id tables.device
    (∀ s : Session SharedTables, Undisturbed tables s.tables →
      (tables.detail.unavailable = false → ∃ alerts,
        (a.detailReport s).2.raised a.sink = s.raised a.sink ++ alerts ∧
        AlertsIfMaterial a.threshold DetailKey.ifaceIndex detail alerts) ∧
      (tables.device.unavailable = false → ∃ alerts,
        (a.deviceReport s).2.raised a.sink = s.raised a.sink ++ alerts ∧
        AlertsIfMaterial a.threshold id device alerts)) ∧
    ∀ (σ : Type) (b : Accounting σ) (steady : σ → Prop) (s : Session σ), steady s.tables →
      b.threshold = a.threshold →
      (∀ i, Ensures steady (b.resolve i) (· = tables.interfaceName? i)) →
      (b.tables.detail.HasReadable steady tables.detail.liveRows → ∃ alerts,
        (b.detailReport s).2.raised b.sink = s.raised b.sink ++ alerts ∧
        alerts.length = if a.threshold.toInt ≤ bytesOf detail then 1 else 0) ∧
      (b.tables.device.HasReadable steady tables.device.liveRows → ∃ alerts,
        (b.deviceReport s).2.raised b.sink = s.raised b.sink ++ alerts ∧
        alerts.length = if a.threshold.toInt ≤ bytesOf device then 1 else 0) := by
  have detailIds (τ : Type) (access : TableAccess τ DetailKey RawCounters) (policy) :
      Function.Injective (CounterTable.detail access policy).rowId :=
    fun _ _ same => RowId.detail.inj same
  have deviceIds (τ : Type) (access : TableAccess τ UInt32 RawCounters) :
      Function.Injective (CounterTable.device access).rowId := fun _ _ same => RowId.device.inj same
  constructor
  · intro s undisturbed
    rw [Accounting.detailReport, Accounting.deviceReport, Accounting.detailReportWith,
      Accounting.deviceReportWith, shared]
    exact ⟨fun available => alertsIfMaterial_read .detail rfl available (detailIds _ _ _) positive
      a.sink undisturbed, fun available => alertsIfMaterial_read .device rfl available
      (deviceIds _ _) positive a.sink undisturbed⟩
  · intro σ b steady s hs same named
    rw [← same] at positive ⊢
    exact ⟨fun has => Report.length_alerts_read (detailIds _ _ _) has named positive b.sink hs,
      fun has => Report.length_alerts_read (deviceIds _ _) has named positive b.sink hs⟩

/-- Rows without a name: one without traffic, one with 60 bytes and one whose bytes exceed the
signed range in each direction; and a row of an interface with a name. -/
def mostlyUnnamed : MemoryTables :=
  { MemoryTables.empty with
    detail := .ofList [(⟨1, 0, 7⟩, ⟨0, 0, 0, 0⟩), (⟨1, 0, 8⟩, ⟨50, 1, 10, 1⟩),
      (⟨2, 0, 9⟩, ⟨0xFFFFFFFFFFFFFFFF, 1, 0x8000000000000000, 1⟩), (⟨1, 0, 5⟩, ⟨1000, 1, 1000, 1⟩)]
    device := .ofList [(7, ⟨0, 0, 0, 0⟩), (8, ⟨50, 1, 10, 1⟩)]
    ifaceNames := .ofList [(5, .ofName "wlan0")] }

/-- A service that keeps its alerts, with a low threshold. -/
def alertingEarly : Accounting SharedTables :=
  { Accounting.new tableSet with
    sink := .keep
    threshold := 61 }

/-- The detail rows reach the threshold with the last one, the device rows do not reach it. -/
theorem freshReports_alertIfMaterial_mostlyUnnamed :
    let s : Session SharedTables := .start (.quiet mostlyUnnamed)
    (∃ alerts, (alertingEarly.detailReport s).2.raised .keep = s.raised .keep ++ alerts ∧
        AlertsIfMaterial 61 DetailKey.ifaceIndex
          (mostlyUnnamed.unnamed DetailKey.ifaceIndex mostlyUnnamed.detail) alerts) ∧
      (alertingEarly.detailReport s).2.raised .keep = [⟨9, 0x7FFFFFFFFFFFFFFF⟩] ∧
      (alertingEarly.deviceReport s).2.raised .keep = [] :=
  ⟨((freshReports_alertIfMaterial (a := alertingEarly) rfl (by decide) mostlyUnnamed).1
    (.start (.quiet mostlyUnnamed)) (undisturbed_quiet mostlyUnnamed)).1 rfl,
    by decide +kernel, by decide +kernel⟩

end TrafficStats
