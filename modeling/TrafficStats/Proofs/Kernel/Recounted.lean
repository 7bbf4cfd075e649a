import TrafficStats.Proofs.Kernel.Laps
import TrafficStats.Proofs.Report.Rows

/-!
# Rows that are counted again

What is made of the rows of an enumeration is made of each of them as often as it comes. While
other processes remove rows, a total may count a row as often as the walk has laps, and a
report may have as many records for it; if the walk is never sent back, no row is counted or
reported twice (`goesInLaps`).
-/

namespace TrafficStats

open Query RowResult

/-- Where nothing is asked of the tables, any query may come first. -/
theorem Query.Ensures.any_bind {σ α β : Type} {q : Query σ α} {f : α → Query σ β} {goal : β → Prop}
    (next : ∀ a, Ensures (fun _ => True) (f a) goal) : Ensures (fun _ => True) (q >>= f) goal :=
  fun _ _ => next _ _ trivial

/-! ### What is counted and reported -/

section Gathered

variable {σ K : Type} {delivered : List (RowResult K RawCounters)}

/-- Some of the delivered rows have been counted. -/
def Total.Counts (delivered : List (RowResult K RawCounters)) (t : Total) : Prop :=
  ∃ counted : List (K × RawCounters), counted.Sublist (readable delivered) ∧
    t.counters = Counters.sum (counted.map fun r => r.2.clamped)

theorem Total.ensures_addRow_counts (name : TableName) (keep : K → Query σ Bool)
    (r : RowResult K RawCounters) {t : Total} (h : Counts delivered t) :
    Ensures (fun _ => True) (addRow name keep t r) (Counts (delivered ++ [r])) := by
  obtain ⟨counted, sublist, sum⟩ := h
  cases r with
  | error e =>
      refine .any_bind fun _ => .pure ⟨counted, ?_, sum⟩
      simpa using sublist
  | ok row =>
      refine .any_bind fun kept => ?_
      cases kept with
      | false =>
          refine .pure ⟨counted, ?_, sum⟩
          rw [readable_append]
          exact sublist.trans (List.sublist_append_left _ _)
      | true =>
          refine .pure ⟨counted ++ [row], ?_, ?_⟩
          · rw [readable_append]
            exact sublist.append (.refl _)
          · rw [List.map_append, Counters.sum_append, ← sum]
            simp

/-- Some of the delivered rows have been given a name and a record. -/
def Report.Reports (source : CounterTable σ K) (delivered : List (RowResult K RawCounters))
    (records : List ReportRecord) : Prop :=
  ∃ named : List ((K × RawCounters) × String), (named.map Prod.fst).Sublist (readable delivered) ∧
    records = named.map fun r => source.record r.1.1 r.2 r.1.2.clamped

theorem Report.ensures_readRow_reports (source : CounterTable σ K)
    (names : TableAccess σ UInt32 NameField) (r : RowResult K RawCounters) {p : Progress}
    (h : Reports source delivered p.records.toList) :
    Ensures (fun _ => True) (readRow source names p r) fun p' =>
      Reports source (delivered ++ [r]) p'.records.toList := by
  obtain ⟨named, sublist, records⟩ := h
  cases r with
  | error e =>
      refine .any_bind fun _ => .pure ⟨named, ?_, records⟩
      simpa using sublist
  | ok row =>
      refine .any_bind fun answer => ?_
      obtain ⟨name, memo⟩ := answer
      cases name with
      | none =>
          refine .any_bind fun tracker => .pure ⟨named, ?_, records⟩
          rw [readable_append]
          exact sublist.trans (List.sublist_append_left _ _)
      | some iface =>
          refine .pure ⟨named ++ [(row, iface)], ?_, ?_⟩
          · rw [readable_append, List.map_append]
            exact sublist.append (.refl _)
          · rw [Array.toList_push, records, List.map_append]
            rfl

theorem Report.ensures_finish_reports (source : CounterTable σ K) {p : Progress}
    (h : Reports source delivered p.records.toList) :
    Ensures (fun _ => True) (finish source p) fun outcome =>
      ∀ report, outcome.1 = .ok report → Reports source delivered report.records := by
  have answer : ∀ report, (.ok ⟨p.records.toList, p.skippedRows⟩ : Except QueryError Report) =
      .ok report → Reports source delivered report.records := by
    rintro report ⟨⟩
    exact h
  unfold finish
  split
  · exact .any_bind fun _ => .pure answer
  · exact .pure answer

end Gathered

namespace Pinned

variable {K : Type} [Layout K] [DecidableEq K] {path : String}
variable {rows : List (K × RawCounters)} {again : Nat}

/-- A total counts each of the given rows at most as often as they are gone through. -/
def CountsInLaps (rows : List (K × RawCounters)) (again : Nat) (t : Total) : Prop :=
  ∃ counted, InLaps rows again counted ∧
    t.counters = Counters.sum (counted.map fun r => r.2.clamped)

/-- A report has at most as many records for each of the given rows. -/
def ReportsInLaps (source : CounterTable Kernel K) (rows : List (K × RawCounters)) (again : Nat)
    (report : Report) : Prop :=
  ∃ named : List ((K × RawCounters) × String), InLaps rows again (named.map Prod.fst) ∧
    report.records = named.map fun r => source.record r.1.1 r.2 r.1.2.clamped

theorem countsInLaps_ofRows {s : Session Kernel} (yields : YieldsInLaps path rows s.tables)
    (nodup : (rows.map Prod.fst).Nodup) (name : TableName) (keep : K → Query Kernel Bool)
    {t : Total} (answered : (Total.ofRows name (access K RawCounters path) keep s).1 = .ok t) :
    CountsInLaps rows (s.tables.sentBack path) t := by
  rw [Total.ofRows, bind_apply] at answered
  cases started : (onTables (access K RawCounters path).iterate s).1 with
  | error e =>
      rw [started] at answered
      cases answered
  | ok c =>
      rw [started] at answered
      obtain ⟨delivered, rfl, laps⟩ := yields c started
      have delivers : (access K RawCounters path).Delivers (fun _ => True) delivered
          (delivered.map .row) := delivers_fetched delivered
      have counts := delivers.foldRows Total.Counts
        (fun _ r _ h => Total.ensures_addRow_counts name keep r h) [] (b := Total.zero)
        ⟨[], .refl _, rfl⟩
      have total := Except.ok.inj answered
      obtain ⟨counted, sublist, sum⟩ := (counts _ trivial).1
      rw [← total]
      exact ⟨counted, laps.sublist nodup sublist, sum⟩

theorem reportsInLaps_read {source : CounterTable Kernel K} {s : Session Kernel}
    (pinned : source.access = access K RawCounters path) (yields : YieldsInLaps path rows s.tables)
    (nodup : (rows.map Prod.fst).Nodup) (names : TableAccess Kernel UInt32 NameField) (t : Tracker)
    {report : Report} (answered : (Report.read source names t s).1.1 = .ok report) :
    ReportsInLaps source rows (s.tables.sentBack path) report := by
  rw [Report.read, bind_apply, pinned] at answered
  cases started : (onTables (access K RawCounters path).iterate s).1 with
  | error e =>
      rw [started] at answered
      cases answered
  | ok c =>
      rw [started] at answered
      obtain ⟨delivered, rfl, laps⟩ := yields c started
      have delivers : (access K RawCounters path).Delivers (fun _ => True) delivered
          (delivered.map .row) := delivers_fetched delivered
      have reports := delivers.foldRows
        (fun done (p : Report.Progress) => Report.Reports source done p.records.toList)
        (fun _ r _ h => Report.ensures_readRow_reports source names r h) []
        (b := ⟨[], #[], 0, t⟩) ⟨[], .refl _, rfl⟩
      have finished := reports.bind fun p h => Report.ensures_finish_reports source h
      obtain ⟨named, sublist, records⟩ := (finished _ trivial).1 report answered
      exact ⟨named, laps.sublist nodup sublist, records⟩

end Pinned

/-! ### The service -/

namespace Accounting

open Pinned

/-- What the service makes of the given rows in pinned maps while other processes remove rows:
an enumeration yields each row at most once more than it is sent back, and a total counts and a
report has it no more often. An enumeration that is never sent back yields no row twice. -/
structure GoesInLaps (a : Accounting Kernel) (paths : MapPaths) (rows : TableRows)
    (s : Session Kernel) : Prop where
  sentBack_le : ∀ path, s.tables.sentBack path ≤ KernelEvent.changesAt s.tables.events
  detail : YieldsInLaps paths.detail rows.detail s.tables
  device : YieldsInLaps paths.device rows.device s.tables
  ifaceNames : YieldsInLaps paths.ifaceNames rows.ifaceNames s.tables
  cookieTags : YieldsInLaps paths.cookieTags rows.cookieTags s.tables
  totalForOwner : ∀ uid t, (a.totalForOwner uid s).1 = .ok t →
    CountsInLaps rows.detail (s.tables.sentBack paths.detail) t
  totalForName : ∀ name t, (a.totalForName name s).1 = .ok t →
    CountsInLaps rows.device (s.tables.sentBack paths.device) t
  totalForNamed : ∀ t, (a.totalForNamed s).1 = .ok t →
    CountsInLaps rows.device (s.tables.sentBack paths.device) t
  detailReport : ∀ tracker report, (a.detailReportWith tracker s).1.1 = .ok report →
    ReportsInLaps (.detail a.tables.detail a.policy) rows.detail (s.tables.sentBack paths.detail)
      report
  deviceReport : ∀ tracker report, (a.deviceReportWith tracker s).1.1 = .ok report →
    ReportsInLaps (.device a.tables.device) rows.device (s.tables.sentBack paths.device) report

/-- They do, however calls are refused besides. -/
theorem goesInLaps {a : Accounting Kernel} {paths : MapPaths} (pinned : a.tables = tableSet paths)
    {rows : TableRows} (distinct : rows.Distinct) {s : Session Kernel}
    (holding : HoldingAll paths rows s.tables.maps)
    (removes : ∀ e ∈ s.tables.events, e.OnlyRemoves) : a.GoesInLaps paths rows s := by
  have detail := yieldsInLaps removes holding.detail distinct.detail
  have device := yieldsInLaps removes holding.device distinct.device
  constructor
  case sentBack_le => exact s.tables.sentBack_le
  case detail => exact detail
  case device => exact device
  case ifaceNames => exact yieldsInLaps removes holding.ifaceNames distinct.ifaceNames
  case cookieTags => exact yieldsInLaps removes holding.cookieTags distinct.cookieTags
  case totalForOwner =>
    intro uid t answered
    unfold totalForOwner at answered
    rw [pinned] at answered
    exact countsInLaps_ofRows detail distinct.detail _ _ answered
  case totalForName =>
    intro name t answered
    unfold totalForName at answered
    rw [pinned] at answered
    exact countsInLaps_ofRows device distinct.device _ _ answered
  case totalForNamed =>
    intro t answered
    unfold totalForNamed at answered
    rw [pinned] at answered
    exact countsInLaps_ofRows device distinct.device _ _ answered
  case detailReport =>
    intro tracker report answered
    exact reportsInLaps_read (by rw [pinned]; rfl) detail distinct.detail _ tracker answered
  case deviceReport =>
    intro tracker report answered
    exact reportsInLaps_read (by rw [pinned]; rfl) device distinct.device _ tracker answered

/-- Three rows of named interfaces. -/
def threeNamed : TableRows where
  detail := []
  device := [(1, ⟨1, 1, 1, 1⟩), (2, ⟨2, 1, 2, 1⟩), (3, ⟨3, 1, 3, 1⟩)]
  ifaceNames := [(1, .ofName "a"), (2, .ofName "b"), (3, .ofName "c")]
  cookieTags := []

/-- The row of the second interface is removed while a walk stands at it. -/
def removedUnderWalk : List KernelEvent :=
  [⟨MapPaths.default.device, .nextKey, 3, none,
    [(MapPaths.default.device, .remove (Layout.encode (2 : UInt32)))], false⟩]

/-- One row is then yielded and counted twice. -/
theorem goesInLaps_removedUnderWalk :
    threeNamed.Distinct ∧
      GoesInLaps (.new (tableSet .default)) .default threeNamed
        (.start (kernelOf .default threeNamed removedUnderWalk)) ∧
      (kernelOf .default threeNamed removedUnderWalk).sentBack MapPaths.default.device = 1 ∧
      ((new (tableSet .default)).totalForNamed
        (.start (kernelOf .default threeNamed removedUnderWalk))).1 = .ok ⟨⟨7, 4, 7, 4⟩, 0⟩ := by
  have distinct : threeNamed.Distinct := by
    constructor <;> decide
  refine ⟨distinct, ?_, by decide +kernel, by decide +kernel⟩
  apply goesInLaps rfl distinct
  · exact holdingAll_kernelOf _ _
  · rintro e he change hchange
    cases List.mem_singleton.mp he
    cases List.mem_singleton.mp hchange
    exact ⟨_, rfl⟩

end Accounting

end TrafficStats
