import TrafficStats.Proofs.Report.Rows
import TrafficStats.Proofs.Unnamed.Alerts

/-!
# Charging rows in any order

What reading a report does to the state of its tracker depends on what the unnamed rows grew by
since they were last charged, and not on the order in which they are read: sums that only
grow reach the threshold in one order exactly if they reach it in the other
(`addAll_perm`). As a tracker raises its alert when it falls silent, the number of alerts is
the same as well (`Tracked.length_alerts`).
-/

namespace TrafficStats

/-! ### The state -/

/-- Adding what is positive does not lower a sum. -/
theorem le_saturatingAdd (total : Int64) {b : Int64} (positive : 0 < b) :
    total ≤ saturatingAdd total b := by
  have exact : (0 : Int64).toInt < b.toInt := Int64.lt_iff_toInt_lt.mp positive
  have bound := total.toInt_lt
  rw [Int64.toInt_zero] at exact
  rw [Int64.le_iff_toInt_le, toInt_saturatingAdd]
  omega

/-- Two positive numbers may be added in either order. -/
theorem saturatingAdd_right_comm (total : Int64) {b b' : Int64} (positive : 0 < b)
    (positive' : 0 < b') :
    saturatingAdd (saturatingAdd total b) b' = saturatingAdd (saturatingAdd total b') b := by
  have exact : (0 : Int64).toInt < b.toInt := Int64.lt_iff_toInt_lt.mp positive
  have exact' : (0 : Int64).toInt < b'.toInt := Int64.lt_iff_toInt_lt.mp positive'
  have bound := total.le_toInt
  rw [Int64.toInt_zero] at exact exact'
  apply Int64.toInt_inj.mp
  rw [toInt_saturatingAdd, toInt_saturatingAdd, toInt_saturatingAdd, toInt_saturatingAdd]
  omega

namespace TrackerState

def add (threshold : Int64) : TrackerState → Int64 → TrackerState
  | .suppressed, _ => .suppressed
  | .accumulating total, bytes =>
    if threshold ≤ saturatingAdd total bytes then .suppressed
    else .accumulating (saturatingAdd total bytes)

def addAll (threshold : Int64) (state : TrackerState) (bytes : List Int64) : TrackerState :=
  bytes.foldl (add threshold) state

variable {threshold : Int64} {state : TrackerState}

@[simp] theorem addAll_suppressed (bytes : List Int64) :
    addAll threshold .suppressed bytes = .suppressed := by
  induction bytes with
  | nil => rfl
  | cons b bytes ih => exact ih

theorem addAll_append (bytes more : List Int64) :
    addAll threshold state (bytes ++ more) = addAll threshold (addAll threshold state bytes) more :=
  List.foldl_append

/-- If the threshold is reached with the first of two positive numbers, it is reached with
both. -/
theorem add_add_of_reaches {total b b' : Int64} (positive' : 0 < b')
    (reaches : threshold ≤ saturatingAdd total b)
    (same : saturatingAdd (saturatingAdd total b') b = saturatingAdd (saturatingAdd total b) b') :
    add threshold (add threshold (.accumulating total) b') b = .suppressed := by
  have both : threshold ≤ saturatingAdd (saturatingAdd total b') b := by
    rw [same]
    exact Int64.le_trans reaches (le_saturatingAdd _ positive')
  rw [add]
  split
  · rfl
  · exact if_pos both

theorem add_right_comm (state : TrackerState) {b b' : Int64} (positive : 0 < b)
    (positive' : 0 < b') :
    add threshold (add threshold state b) b' = add threshold (add threshold state b') b := by
  cases state with
  | suppressed => rfl
  | accumulating total =>
      have same := saturatingAdd_right_comm total positive positive'
      by_cases reaches : threshold ≤ saturatingAdd total b
      · rw [add_add_of_reaches positive' reaches same.symm, add, if_pos reaches]
        rfl
      · by_cases reaches' : threshold ≤ saturatingAdd total b'
        · rw [add_add_of_reaches positive reaches' same, add, if_pos reaches']
          rfl
        · rw [add, add, if_neg reaches, if_neg reaches', add, add, same]

/-- Positive numbers may be added in any order. -/
theorem addAll_perm {bytes bytes' : List Int64} (h : bytes.Perm bytes')
    (positive : ∀ b ∈ bytes, 0 < b) :
    addAll threshold state bytes = addAll threshold state bytes' := by
  apply h.foldl_eq'
  intro b hb b' hb' state'
  exact add_right_comm state' (positive b hb) (positive b' hb')

/-- How many alerts are raised between two states: one if the tracker fell silent. -/
def alertsUntil (before after : TrackerState) : Nat :=
  if before ≠ .suppressed ∧ after = .suppressed then 1 else 0

theorem alertsUntil_self (state : TrackerState) : alertsUntil state state = 0 := by
  apply if_neg
  rintro ⟨active, silent⟩
  exact active silent

/-- A tracker that is silent stays so; hence alerts add up. -/
theorem alertsUntil_add {before between after : TrackerState}
    (stays : before = .suppressed → between = .suppressed)
    (stays' : between = .suppressed → after = .suppressed) :
    alertsUntil before between + alertsUntil between after = alertsUntil before after := by
  by_cases silent : between = .suppressed
  · simp [alertsUntil, silent, stays' silent]
  · have active : before ≠ .suppressed := fun h => silent (stays h)
    simp [alertsUntil, silent, active]

end TrackerState

/-! ### The tracker -/

variable {σ K : Type} {steady : σ → Prop}

open Query RowResult

namespace Tracker

theorem state_add (t : Tracker) (ifaceIndex : UInt32) (bytes : Int64) :
    (t.add ifaceIndex bytes).1.state = t.state.add t.threshold bytes := by
  obtain ⟨silent, eq⟩ | ⟨total, adding, ⟨reaches, eq⟩ | ⟨below, eq⟩⟩ := t.add_cases ifaceIndex bytes
  · rw [eq, silent]
    rfl
  · rw [eq, adding, TrackerState.add, if_pos reaches]
  · rw [eq, adding, TrackerState.add, if_neg below]

/-- Adding bytes raises an alert if the tracker falls silent. -/
theorem length_alert_add (t : Tracker) (ifaceIndex : UInt32) (bytes : Int64) :
    (t.add ifaceIndex bytes).2.toList.length =
      t.state.alertsUntil (t.add ifaceIndex bytes).1.state := by
  obtain ⟨silent, eq⟩ | ⟨total, adding, ⟨reaches, eq⟩ | ⟨below, eq⟩⟩ := t.add_cases ifaceIndex bytes
  · rw [eq, TrackerState.alertsUntil_self]
    rfl
  · rw [eq, adding]
    rfl
  · rw [eq, adding]
    rfl

theorem suppressed_add (t : Tracker) (ifaceIndex : UInt32) (bytes : Int64)
    (silent : t.state = .suppressed) : (t.add ifaceIndex bytes).1.state = .suppressed := by
  rw [state_add, silent]
  rfl

end Tracker

/-- As many alerts are raised as the states before and after tell. -/
theorem Tracked.length_alerts {direct : Bool} {t t' : Tracker} {calls : List TrackerCall}
    (h : Tracked direct t calls t') :
    (TrackerCall.alerts calls).length = t.state.alertsUntil t'.state := by
  induction h with
  | start => exact (TrackerState.alertsUntil_self _).symm
  | @record calls t' ifaceIndex bytes prior allowed ih =>
      rw [TrackerCall.alerts_append, List.length_append, ih, TrackerCall.alerts_cons_record,
        TrackerCall.alerts_nil, List.append_nil, Tracker.length_alert_add]
      exact TrackerState.alertsUntil_add prior.suppressed (t'.suppressed_add ifaceIndex bytes)
  | unread ifaceIndex row prior ih =>
      rw [TrackerCall.alerts_append, TrackerCall.alerts_cons_row, TrackerCall.alerts_nil,
        List.append_nil, ih]
  | still ifaceIndex row raw prior active same ih =>
      rw [TrackerCall.alerts_append, TrackerCall.alerts_cons_row, TrackerCall.alerts_nil,
        List.append_nil, ih]
      rfl
  | @grown calls t' noted bytes ifaceIndex row raw prior active hbytes grown hnoted ih =>
      have same : noted.state = t'.state := by
        rw [hnoted]
        rfl
      rw [TrackerCall.alerts_append, List.length_append, ih, TrackerCall.alerts_cons_row,
        TrackerCall.alerts_cons_record, TrackerCall.alerts_nil, List.append_nil,
        Tracker.length_alert_add, ← same]
      have stays : t.state = .suppressed → noted.state = .suppressed := by
        rw [same]
        exact prior.suppressed
      exact TrackerState.alertsUntil_add stays (noted.suppressed_add ifaceIndex bytes)

namespace Tracker

/-- What a row grew by since it was last charged, if it grew. -/
def growth? (t : Tracker) (row : RowId) (raw : RawCounters) : Option Int64 :=
  let bytes := growth (t.lastReading row) raw.clamped.totalBytes
  if 0 < bytes then some bytes else none

/-- What charging a row does to a tracker, where the row grew by the given bytes. -/
structure Charges (t : Tracker) (row : RowId) (bytes : Option Int64) (t' : Tracker) : Prop where
  threshold : t'.threshold = t.threshold
  state : t'.state = t.state.addAll t.threshold bytes.toList
  others : ∀ row', row' ≠ row → t'.lastReading row' = t.lastReading row'

/-- Taking a reading charges the row with what it grew by. -/
theorem ensures_takeReading (t : Tracker) (ifaceIndex : UInt32) (row : RowId)
    (raw : RawCounters) :
    Ensures steady (t.takeReading ifaceIndex row raw) (Charges t row (t.growth? row raw)) := by
  have others : ∀ row', row' ≠ row →
      (t.noteReading row raw.clamped.totalBytes).lastReading row' = t.lastReading row' := by
    intro row' ne
    rw [lastReading_noteReading, if_neg ne]
  apply Ensures.quiet_bind (fun _ => rfl)
  intro _
  simp only [growth?]
  split
  · intro s hs
    obtain ⟨-, still⟩ := ensures_record (t.noteReading row raw.clamped.totalBytes) ifaceIndex
      (growth (t.lastReading row) raw.clamped.totalBytes) s hs
    refine ⟨?_, still⟩
    rw [(record_spec _ _ _ s).1]
    refine ⟨?_, ?_, ?_⟩
    · rw [add_fst]
      rfl
    · rw [state_add]
      rfl
    · rw [add_fst]
      exact others
  · exact .pure ⟨rfl, rfl, others⟩

/-- So does charging a row that is there, unless the tracker is silent; then nothing
changes. -/
theorem ensures_recordRow_charges (t : Tracker) (ifaceIndex : UInt32)
    {table : TableAccess σ K RawCounters} {k : K} {raw : RawCounters}
    (read : Ensures steady (onTables (table.read k)) (· = .ok (some raw))) (rowId : K → RowId) :
    Ensures steady (t.recordRow ifaceIndex table rowId k)
      (Charges t (rowId k) (t.growth? (rowId k) raw)) := by
  unfold recordRow
  split
  · rename_i silent
    apply Ensures.quiet_bind (fun _ => rfl)
    intro _
    refine .pure ⟨rfl, ?_, fun _ _ => rfl⟩
    rw [silent, TrackerState.addAll_suppressed]
  · apply read.bind
    rintro answer rfl
    exact t.ensures_takeReading ifaceIndex (rowId k) raw

end Tracker

/-! ### The report -/

namespace CounterTable

variable (source : CounterTable σ K) (name? : UInt32 → Option String) (t : Tracker)

/-- What a row grew by since it was last charged, if it is to be charged and grew. -/
def chargeable? (row : K × RawCounters) : Option Int64 :=
  match name? (source.ifaceIndex row.1) with
  | some _ => none
  | none => t.growth? (source.rowId row.1) row.2

def chargeable (rows : List (K × RawCounters)) : List Int64 :=
  rows.filterMap (source.chargeable? name? t)

theorem pos_of_mem_chargeable {rows : List (K × RawCounters)} :
    ∀ b ∈ source.chargeable name? t rows, 0 < b := by
  intro b hb
  obtain ⟨row, -, grew⟩ := List.mem_filterMap.mp hb
  unfold chargeable? at grew
  split at grew
  · cases grew
  · simp only [Tracker.growth?] at grew
    split at grew
    · rename_i positive
      cases grew
      exact positive
    · cases grew

/-- What is owed depends on the readings that were taken before, and on the rows in any
order. -/
theorem chargeable_perm {t t' : Tracker} (same : ∀ row, t.lastReading row = t'.lastReading row)
    {rows rows' : List (K × RawCounters)} (h : rows.Perm rows') :
    (source.chargeable name? t rows).Perm (source.chargeable name? t' rows') := by
  have alike : source.chargeable? name? t = source.chargeable? name? t' := by
    funext row
    rw [chargeable?, chargeable?, Tracker.growth?, Tracker.growth?, same]
  rw [chargeable, alike]
  exact h.filterMap _

theorem chargeable_concat (rows : List (K × RawCounters)) (row : K × RawCounters) :
    source.chargeable name? t (rows ++ [row]) =
      source.chargeable name? t rows ++ (source.chargeable? name? t row).toList := by
  rw [chargeable, List.filterMap_append]
  cases h : source.chargeable? name? t row <;> simp [chargeable, h]

end CounterTable

namespace Report

variable {source : CounterTable σ K} {names : TableAccess σ UInt32 NameField}
variable {name? : UInt32 → Option String} {t : Tracker}

/-- What readable rows keep of the tracker, a reading of rows with distinct keys keeps: rows with
a name leave the tracker alone, and the others are charged to it, each of them once. -/
theorem ensures_read_tracker {read : K → Except StoreError (Option RawCounters)}
    {rows : List (RowResult K RawCounters)}
    (shows : source.access.Shows steady read (.ok rows))
    (nodup : ((readable rows).map Prod.fst).Nodup)
    (present : ∀ row ∈ readable rows, read row.1 = .ok (some row.2))
    (named : ∀ i, Ensures steady (names.resolve i) (· = name? i))
    (inv : List (K × RawCounters) → Tracker → Prop) (start : inv [] t)
    (spared : ∀ done row t', (name? (source.ifaceIndex row.1)).isSome → inv done t' →
      inv (done ++ [row]) t')
    (charged : ∀ done row t', name? (source.ifaceIndex row.1) = none → row.1 ∉ done.map Prod.fst →
      Ensures steady (onTables (source.access.read row.1)) (· = .ok (some row.2)) → inv done t' →
      Ensures steady (t'.recordRow (source.ifaceIndex row.1) source.access source.rowId row.1)
        (inv (done ++ [row]))) :
    Ensures steady (Report.read source names t) fun outcome => inv (readable rows) outcome.2 := by
  refine (shows.delivers _ rfl).bind fun answer started => ?_
  obtain ⟨c, rfl, delivers⟩ := started
  let inv' (done : List (RowResult K RawCounters)) (p : Progress) : Prop :=
    p.memo.Agrees name? ∧ inv (readable done) p.tracker
  have step : ∀ done r later p, done ++ r :: later = rows → inv' done p →
      Ensures steady (readRow source names p r) (inv' (done ++ [r])) := by
    rintro done r later p split ⟨memo, kept⟩
    cases r with
    | error e =>
        have same : readable (done ++ [.error e]) = readable done := by simp
        refine .quiet_bind (fun _ => rfl) fun _ => .pure ⟨memo, ?_⟩
        rw [same]
        exact kept
    | ok row =>
        have whole : readable rows = readable done ++ row :: readable later := by
          rw [← split, readable_append, readable_cons_ok]
        have more : readable (done ++ [.ok row]) = readable done ++ [row] := by simp
        have new : row.1 ∉ (readable done).map Prod.fst := by
          rw [whole, List.map_append, List.nodup_append] at nodup
          intro mem
          exact nodup.2.2 row.1 mem row.1 List.mem_cons_self rfl
        have there : Ensures steady (onTables (source.access.read row.1))
            (· = .ok (some row.2)) := by
          refine (shows.read row.1).mono ?_
          rintro answer rfl
          apply present row
          rw [whole]
          exact List.mem_append_right _ List.mem_cons_self
        refine (memo.ensures_resolve (named (source.ifaceIndex row.1))).bind fun answer found => ?_
        obtain ⟨name, memo⟩ := answer
        obtain ⟨rfl, memo⟩ := found
        simp only [inv', more]
        cases hname : name? (source.ifaceIndex row.1) with
        | some iface => exact .pure ⟨memo, spared _ row _ (hname ▸ rfl) kept⟩
        | none =>
            refine (charged _ row _ hname new there kept).bind fun t' kept' => ?_
            exact .pure ⟨memo, kept'⟩
  have begun : inv' [] ⟨[], #[], 0, t⟩ := ⟨NameMemo.agrees_nil name?, start⟩
  refine (delivers.foldRows_split inv' step rfl begun).bind fun p h => ?_
  unfold finish
  split
  · exact .quiet_bind (fun _ => rfl) fun _ => .pure h.2
  · exact .pure h.2

/-- What has become of the tracker `t` when some rows have been read: it is charged with the
unnamed ones among them, and has no new reading of any other row. -/
structure Charged (source : CounterTable σ K) (name? : UInt32 → Option String) (t : Tracker)
    (rows : List (K × RawCounters)) (t' : Tracker) : Prop where
  threshold : t'.threshold = t.threshold
  state : t'.state = t.state.addAll t.threshold (source.chargeable name? t rows)
  others : ∀ k, (k ∈ rows.map Prod.fst → (name? (source.ifaceIndex k)).isSome) →
    t'.lastReading (source.rowId k) = t.lastReading (source.rowId k)

namespace Charged

variable {rows : List (K × RawCounters)} {row : K × RawCounters} {t' : Tracker}

/-- One row more that is not to be charged. -/
theorem spared (h : Charged source name? t rows t')
    (isNamed : (name? (source.ifaceIndex row.1)).isSome) :
    Charged source name? t (rows ++ [row]) t' := by
  obtain ⟨iface, hname⟩ := Option.isSome_iff_exists.mp isNamed
  have free : source.chargeable? name? t row = none := by
    rw [CounterTable.chargeable?, hname]
  refine ⟨h.threshold, ?_, fun k mem => h.others k fun before => mem ?_⟩
  · rw [CounterTable.chargeable_concat, free, h.state]
    exact congrArg _ (List.append_nil _).symm
  · rw [List.map_append]
    exact List.mem_append_left _ before

/-- One row more, charged with what it grew by since it was charged to `t`. -/
theorem ensures_charged (distinct : Function.Injective source.rowId)
    (unnamed : name? (source.ifaceIndex row.1) = none) (new : row.1 ∉ rows.map Prod.fst)
    (read : Ensures steady (onTables (source.access.read row.1)) (· = .ok (some row.2)))
    (h : Charged source name? t rows t') :
    Ensures steady (t'.recordRow (source.ifaceIndex row.1) source.access source.rowId row.1)
      (Charged source name? t (rows ++ [row])) := by
  -- The row was not charged before, so it still has the last reading that `t` knows.
  have owed : source.chargeable? name? t row = t'.growth? (source.rowId row.1) row.2 := by
    rw [CounterTable.chargeable?, unnamed, Tracker.growth?, Tracker.growth?,
      h.others row.1 fun mem => absurd mem new]
  refine (t'.ensures_recordRow_charges (source.ifaceIndex row.1) read source.rowId).mono ?_
  intro t'' charges
  refine ⟨charges.threshold.trans h.threshold, ?_, fun k mem => ?_⟩
  · rw [CounterTable.chargeable_concat, owed, TrackerState.addAll_append, ← h.state,
      ← h.threshold]
    exact charges.state
  · have ne : k ≠ row.1 := by
      rintro rfl
      have isNamed := mem (by simp)
      rw [unnamed] at isNamed
      cases isNamed
    refine (charges.others (source.rowId k) fun same => ne (distinct same)).trans ?_
    refine h.others k fun before => mem ?_
    rw [List.map_append]
    exact List.mem_append_left _ before

end Charged

/-- Reading a report of rows with distinct keys charges the unnamed ones that can be read. -/
theorem ensures_read_charged (distinct : Function.Injective source.rowId)
    {read : K → Except StoreError (Option RawCounters)} {rows : List (RowResult K RawCounters)}
    (shows : source.access.Shows steady read (.ok rows))
    (nodup : ((readable rows).map Prod.fst).Nodup)
    (present : ∀ row ∈ readable rows, read row.1 = .ok (some row.2))
    (named : ∀ i, Ensures steady (names.resolve i) (· = name? i)) (t : Tracker) :
    Ensures steady (Report.read source names t) fun outcome =>
      Charged source name? t (readable rows) outcome.2 :=
  ensures_read_tracker shows nodup present named (Charged source name? t)
    ⟨rfl, rfl, fun _ _ => rfl⟩ (fun _ _ _ isNamed h => h.spared isNamed)
    fun _ _ _ unnamed new read h => h.ensures_charged distinct unnamed new read

end Report

end TrafficStats
