import TrafficStats.Proofs.Table.Steady
import TrafficStats.Proofs.Text.Bounded
import TrafficStats.Report.Reading

/-!
# What a report holds

The report of a table that stays as it is has a record for each readable row whose
interface has a name, in the order of the rows, and counts the rows that cannot be read.
That the reading looks up each index only once makes no difference.
-/

namespace TrafficStats

variable {σ K : Type} {steady : σ → Prop}

open Query RowResult

namespace CounterTable

def record? (source : CounterTable σ K) (name? : UInt32 → Option String)
    (row : K × RawCounters) : Option ReportRecord :=
  (name? (source.ifaceIndex row.1)).map fun iface => source.record row.1 iface row.2.clamped

def report (source : CounterTable σ K) (name? : UInt32 → Option String)
    (rows : List (RowResult K RawCounters)) : Report :=
  ⟨(readable rows).filterMap (source.record? name?), unreadable rows⟩

variable (source : CounterTable σ K) (name? : UInt32 → Option String)

theorem report_map_ok (rows : List (K × RawCounters)) :
    source.report name? (rows.map .ok) = ⟨rows.filterMap (source.record? name?), 0⟩ := by
  rw [report, readable_map_ok, unreadable_map_ok]

variable (done : List (RowResult K RawCounters))

theorem report_concat_error (e : RowError) :
    source.report name? (done ++ [.error e]) =
      ⟨(source.report name? done).records, (source.report name? done).skippedRows + 1⟩ := by
  simp [report]

theorem report_concat_ok (row : K × RawCounters) :
    source.report name? (done ++ [.ok row]) =
      ⟨(source.report name? done).records ++ (source.record? name? row).toList,
        (source.report name? done).skippedRows⟩ := by
  cases hrecord : source.record? name? row <;> simp [report, hrecord]

end CounterTable

namespace Report

variable {source : CounterTable σ K} {names : TableAccess σ UInt32 NameField}
variable {read : K → Except StoreError (Option RawCounters)}
variable {rows : Except StoreError (List (RowResult K RawCounters))}
variable {name? : UInt32 → Option String}

/-- What has been read so far is the report for the rows so far. -/
structure Collected (source : CounterTable σ K) (name? : UInt32 → Option String)
    (done : List (RowResult K RawCounters)) (p : Progress) : Prop where
  memo : p.memo.Agrees name?
  records : p.records.toList = (source.report name? done).records
  skippedRows : p.skippedRows = (source.report name? done).skippedRows

theorem ensures_readRow (shows : source.access.Shows steady read rows)
    (named : ∀ i, Ensures steady (names.resolve i) (· = name? i))
    {done : List (RowResult K RawCounters)} (r : RowResult K RawCounters) {p : Progress}
    (h : Collected source name? done p) :
    Ensures steady (readRow source names p r) (Collected source name? (done ++ [r])) := by
  obtain ⟨memo, records, skipped⟩ := h
  cases r with
  | error e =>
      refine .quiet_bind (fun _ => rfl) fun _ => .pure ⟨memo, ?_, ?_⟩
      · rw [CounterTable.report_concat_error, records]
      · rw [CounterTable.report_concat_error, skipped]
  | ok row =>
      obtain ⟨k, raw⟩ := row
      have skipped' : p.skippedRows =
          (source.report name? (done ++ [.ok (k, raw)])).skippedRows := by
        rw [CounterTable.report_concat_ok, skipped]
      refine (memo.ensures_resolve (named (source.ifaceIndex k))).bind fun answer found => ?_
      obtain ⟨name, memo'⟩ := answer
      obtain ⟨rfl, memo'⟩ := found
      cases hname : name? (source.ifaceIndex k) with
      | some iface =>
          refine .pure ⟨memo', ?_, skipped'⟩
          rw [CounterTable.report_concat_ok, CounterTable.record?, hname, Array.toList_push,
            records]
          rfl
      | none =>
          have charged := p.tracker.ensures_recordRow (source.ifaceIndex k) shows source.rowId k
          refine charged.bind fun tracker _ => .pure ⟨memo', ?_, skipped'⟩
          rw [CounterTable.report_concat_ok, CounterTable.record?, hname, records]
          exact (List.append_nil _).symm

theorem ensures_finish {delivered : List (RowResult K RawCounters)} {p : Progress}
    (h : Collected source name? delivered p) :
    Ensures steady (finish source p) fun outcome =>
      outcome.1 = .ok (source.report name? delivered) := by
  have answer : (⟨p.records.toList, p.skippedRows⟩ : Report) = source.report name? delivered := by
    rw [h.records, h.skippedRows]
  unfold finish
  rw [answer]
  split
  · exact .quiet_bind (fun _ => rfl) fun _ => .pure rfl
  · exact .pure rfl

/-- What the reading of a steady table answers. -/
theorem ensures_read (shows : source.access.Shows steady read rows)
    (named : ∀ i, Ensures steady (names.resolve i) (· = name? i)) (t : Tracker) :
    Ensures steady (Report.read source names t) fun outcome =>
      outcome.1 = answerFrom source.name rows (source.report name?) := by
  cases rows with
  | error e =>
      refine (shows.refuses e rfl).bind fun answer eq => ?_
      rw [eq]
      exact .pure rfl
  | ok delivered =>
      refine (shows.delivers delivered rfl).bind fun answer started => ?_
      obtain ⟨c, rfl, delivers⟩ := started
      have start : Collected source name? [] ⟨[], #[], 0, t⟩ :=
        ⟨NameMemo.agrees_nil name?, rfl, rfl⟩
      have walked := delivers.foldRows (Collected source name?)
        (fun _ r _ h => ensures_readRow shows named r h) [] start
      exact walked.bind fun p h => ensures_finish h

end Report

end TrafficStats
