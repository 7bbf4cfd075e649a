import TrafficStats.Proofs.Table.Leaves
import TrafficStats.Report.Reading

/-!
# The steps of a reading

The reading of a report takes one row after the other. `Report.RowTaken` lists all that such a
step can do: a row that cannot be read is counted, a row of an interface with a name becomes a
record, and any other row is charged to the tracker. It also says what the step added to the
history of the tables, given what one lookup of a name and one reading of a row add
(`leaves_readRow`). Nothing is assumed about the tables between the steps.
-/

namespace TrafficStats

variable {σ ω K : Type} {history : σ → List ω} {steady : σ → Prop}

open Query

/-! ### Charging a row -/

namespace Tracker

/-- What charging a row does to a tracker if the given counters are read for it, and the calls
that tell of it. -/
def charge (t : Tracker) (ifaceIndex : UInt32) (row : RowId) :
    Option RawCounters → Tracker × List TrackerCall
  | none => (t, [.row ifaceIndex row none])
  | some raw =>
    let bytes := raw.clamped.totalBytes
    let grown := growth (t.lastReading row) bytes
    let noted := t.noteReading row bytes
    let outcome := noted.add ifaceIndex grown
    if 0 < grown then
      (outcome.1, [.row ifaceIndex row (some raw), .record ifaceIndex grown outcome.2])
    else (noted, [.row ifaceIndex row (some raw)])

/-- What is read for a row that is charged. A tracker that is silent reads nothing; for another
one the table answers, and `told` says what it may answer and what that adds to its history. -/
inductive Reread (told : Except StoreError (Option RawCounters) → List ω → Prop)
    (state : TrackerState) : Option RawCounters → List ω → Prop
  | silent (suppressed : state = .suppressed) : Reread told state none []
  | answered {answer : Except StoreError (Option RawCounters)} {moments : List ω}
      (active : state ≠ .suppressed) (read : told answer moments) :
      Reread told state answer.toOption.join moments

variable (t : Tracker) (ifaceIndex : UInt32)

theorem leaves_record (bytes : Int64) :
    Leaves history steady (t.record ifaceIndex bytes) fun t' moments calls => moments = [] ∧
      t' = (t.add ifaceIndex bytes).1 ∧
      calls = [.record ifaceIndex bytes (t.add ifaceIndex bytes).2] := by
  intro s hs
  obtain ⟨value, calls, -⟩ := t.record_spec ifaceIndex bytes s
  have tables := t.tables_record ifaceIndex bytes s
  refine ⟨[], _, ?_, calls, ⟨rfl, value, rfl⟩, ?_⟩
  · rw [tables, List.append_nil]
  · rw [tables]
    exact hs

theorem leaves_skipRow (row : RowId) :
    Leaves history steady (t.skipRow ifaceIndex row) fun t' moments calls =>
      moments = [] ∧ (t', calls) = t.charge ifaceIndex row none := by
  refine (Leaves.trace _).bind ?_
  rintro _ _ _ ⟨rfl, rfl⟩
  exact .pure ⟨rfl, rfl⟩

theorem leaves_takeReading (row : RowId) (raw : RawCounters) :
    Leaves history steady (t.takeReading ifaceIndex row raw) fun t' moments calls =>
      moments = [] ∧ (t', calls) = t.charge ifaceIndex row (some raw) := by
  refine (Leaves.trace _).bind ?_
  rintro _ _ _ ⟨rfl, rfl⟩
  simp only [charge]
  split
  · refine (leaves_record _ ifaceIndex _).mono ?_
    rintro _ _ _ ⟨rfl, rfl, rfl⟩
    exact ⟨rfl, rfl⟩
  · exact .pure ⟨rfl, rfl⟩

variable {table : TableAccess σ K RawCounters} {k : K}
variable {told : Except StoreError (Option RawCounters) → List ω → Prop}

/-- A row is charged with what is read for it. -/
theorem leaves_recordRow (reads : Leaves history steady (onTables (table.read k))
      fun answer moments calls => calls = [] ∧ told answer moments) (rowId : K → RowId) :
    Leaves history steady (t.recordRow ifaceIndex table rowId k) fun t' moments calls =>
      ∃ reading, Reread told t.state reading moments ∧
        (t', calls) = t.charge ifaceIndex (rowId k) reading := by
  unfold recordRow
  split
  · rename_i suppressed
    refine (t.leaves_skipRow ifaceIndex (rowId k)).mono ?_
    rintro t' _ calls ⟨rfl, charged⟩
    exact ⟨none, .silent suppressed, charged⟩
  · rename_i active
    refine reads.bind ?_
    rintro answer moments _ ⟨rfl, read⟩
    have reread : Reread told t.state answer.toOption.join (moments ++ []) := by
      rw [List.append_nil]
      exact .answered active read
    cases answer with
    | error e =>
        refine (t.leaves_skipRow ifaceIndex (rowId k)).mono ?_
        rintro t' _ calls ⟨rfl, charged⟩
        exact ⟨none, reread, charged⟩
    | ok answer =>
        cases answer with
        | none =>
            refine (t.leaves_skipRow ifaceIndex (rowId k)).mono ?_
            rintro t' _ calls ⟨rfl, charged⟩
            exact ⟨none, reread, charged⟩
        | some raw =>
            refine (t.leaves_takeReading ifaceIndex (rowId k) raw).mono ?_
            rintro t' _ calls ⟨rfl, charged⟩
            exact ⟨some raw, reread, charged⟩

/-- What a tracker gets to see of a table's answer for a row that it charges; a silent one does
not ask. -/
def reading (answer : Except StoreError (Option RawCounters)) : Option RawCounters :=
  if t.state = .suppressed then none else answer.toOption.join

/-- The calls of a row that is charged by itself are those of charging it with what the table
has for it at that moment. -/
theorem calls_recordRow (table : TableAccess σ K RawCounters) (rowId : K → RowId) (k : K)
    (s : Session σ) :
    (t.recordRow ifaceIndex table rowId k s).2.calls.toList =
      s.calls.toList ++
        (t.charge ifaceIndex (rowId k) (t.reading (table.read k s.tables).1)).2 := by
  have charged {q : Query σ Tracker} {reading : Option RawCounters}
      (leaves : Leaves (fun _ => ([] : List Unit)) (fun _ => True) q fun t' moments calls =>
        moments = [] ∧ (t', calls) = t.charge ifaceIndex (rowId k) reading) (s' : Session σ) :
      (q s').2.calls.toList = s'.calls.toList ++ (t.charge ifaceIndex (rowId k) reading).2 := by
    obtain ⟨_, calls, -, traced, ⟨-, eq⟩, -⟩ := leaves s' trivial
    rw [traced, ← eq]
  by_cases suppressed : t.state = .suppressed
  · rw [recordRow, if_pos suppressed, reading, if_pos suppressed]
    exact charged (t.leaves_skipRow ifaceIndex (rowId k)) s
  · rw [recordRow, if_neg suppressed, reading, if_neg suppressed, bind_apply]
    change _ = (onTables (table.read k) s).2.calls.toList ++ (t.charge ifaceIndex (rowId k)
      (onTables (table.read k) s).1.toOption.join).2
    generalize (onTables (table.read k) s).2 = s'
    match (onTables (table.read k) s).1 with
    | .ok (some raw) => exact charged (t.leaves_takeReading ifaceIndex (rowId k) raw) s'
    | .ok none => exact charged (t.leaves_skipRow ifaceIndex (rowId k)) s'
    | .error _ => exact charged (t.leaves_skipRow ifaceIndex (rowId k)) s'

end Tracker

/-! ### Looking up a name -/

namespace NameMemo

/-- How a memo comes by the name of an interface: it remembers it, or it asks for it and
remembers the answer. `asked` says what may be answered and what that adds to a history. -/
inductive Looked (asked : UInt32 → Option String → List ω → Prop) (memo : NameMemo)
    (ifaceIndex : UInt32) : Option String → NameMemo → List ω → Prop
  | remembered {name : Option String} (known : memo.lookup ifaceIndex = some name) :
      Looked asked memo ifaceIndex name memo []
  | asked {name : Option String} {moments : List ω} (new : memo.lookup ifaceIndex = none)
      (answered : asked ifaceIndex name moments) :
      Looked asked memo ifaceIndex name ((ifaceIndex, name) :: memo) moments

variable {names : TableAccess σ UInt32 NameField}
variable {asked : UInt32 → Option String → List ω → Prop}

theorem leaves_resolve (resolves : ∀ i, Leaves history steady (names.resolve i)
      fun name moments calls => calls = [] ∧ asked i name moments)
    (memo : NameMemo) (ifaceIndex : UInt32) :
    Leaves history steady (memo.resolve names ifaceIndex) fun answer moments calls =>
      calls = [] ∧ Looked asked memo ifaceIndex answer.1 answer.2 moments := by
  unfold resolve
  split
  · rename_i name known
    exact .pure ⟨rfl, .remembered known⟩
  · rename_i new
    refine (resolves ifaceIndex).bind ?_
    rintro name moments _ ⟨rfl, answered⟩
    refine .pure ⟨rfl, ?_⟩
    rw [List.append_nil]
    exact .asked new answered

end NameMemo

/-! ### Taking a row -/

namespace Report

open NameMemo Tracker

/-- All that taking a row into a report can do. -/
inductive RowTaken (source : CounterTable σ K) (asked : UInt32 → Option String → List ω → Prop)
    (told : K → Except StoreError (Option RawCounters) → List ω → Prop) (p : Progress) :
    RowResult K RawCounters → Progress → List ω → List TrackerCall → Prop
  | unreadable (e : RowError) :
      RowTaken source asked told p (.error e) { p with skippedRows := p.skippedRows + 1 } [] []
  | reported {k : K} {raw : RawCounters} {iface : String} {memo : NameMemo} {moments : List ω}
      (looked : Looked asked p.memo (source.ifaceIndex k) (some iface) memo moments) :
      RowTaken source asked told p (.ok (k, raw))
        { p with memo, records := p.records.push (source.record k iface raw.clamped) } moments []
  | charged {k : K} {raw : RawCounters} {memo : NameMemo} {reading : Option RawCounters}
      {tracker : Tracker} {calls : List TrackerCall} {moments moments' : List ω}
      (looked : Looked asked p.memo (source.ifaceIndex k) none memo moments)
      (reread : Reread (told k) p.tracker.state reading moments')
      (charge : (tracker, calls) =
        p.tracker.charge (source.ifaceIndex k) (source.rowId k) reading) :
      RowTaken source asked told p (.ok (k, raw)) { p with memo, tracker } (moments ++ moments')
        calls

variable {source : CounterTable σ K} {names : TableAccess σ UInt32 NameField}
variable {asked : UInt32 → Option String → List ω → Prop}
variable {told : K → Except StoreError (Option RawCounters) → List ω → Prop}

theorem leaves_readRow (resolves : ∀ i, Leaves history steady (names.resolve i)
      fun name moments calls => calls = [] ∧ asked i name moments)
    (reads : ∀ k, Leaves history steady (onTables (source.access.read k))
      fun answer moments calls => calls = [] ∧ told k answer moments)
    (p : Progress) (r : RowResult K RawCounters) :
    Leaves history steady (readRow source names p r) (RowTaken source asked told p r) := by
  cases r with
  | error e => exact .unmoved_bind (fun _ => ⟨rfl, rfl⟩) fun _ => .pure (.unreadable e)
  | ok row =>
      obtain ⟨k, raw⟩ := row
      refine (leaves_resolve resolves p.memo (source.ifaceIndex k)).bind ?_
      rintro ⟨name, memo⟩ moments _ ⟨rfl, looked⟩
      cases name with
      | some iface =>
          refine .pure ?_
          rw [List.append_nil]
          exact .reported looked
      | none =>
          refine (p.tracker.leaves_recordRow (source.ifaceIndex k) (reads k) source.rowId).bind ?_
          rintro tracker moments' calls ⟨reading, reread, charge⟩
          refine .pure ?_
          rw [List.append_nil, List.nil_append, List.append_nil]
          exact .charged looked reread charge

/-- The report of a reading that has come to its end is made of what was collected. -/
theorem leaves_finish (p : Progress) :
    Leaves history steady (finish source p) fun outcome moments calls =>
      outcome = (.ok ⟨p.records.toList, p.skippedRows⟩, p.tracker) ∧ moments = [] ∧
        calls = [] := by
  unfold finish
  split
  · exact .unmoved_bind (fun _ => ⟨rfl, rfl⟩) fun _ => .pure ⟨rfl, rfl, rfl⟩
  · exact .pure ⟨rfl, rfl, rfl⟩

end Report

end TrafficStats
