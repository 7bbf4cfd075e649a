import Mathlib.Logic.Function.Basic
import TrafficStats.Accounting
import TrafficStats.Proofs.Report.Grouping
import TrafficStats.Proofs.Total.Owners
import TrafficStats.Proofs.Unnamed.Order

/-!
# Tables that hold given rows

What the service answers depends on which rows there are in its tables, and not on the kind of
tables nor on the order in which they deliver their rows. `TableAccess.Holds` says that a
table has the given rows, all of them readable, and delivers them in some order. Totals are
then the same in every order, and so are the names; a report has the same records in another
order, and charges its tracker the same. `TableAccess.Keeps` says of a table that is deleted
from and written to which mapping from keys to values it keeps.
-/

namespace TrafficStats

variable {σ K V : Type} {steady : σ → Prop}

open Query RowResult

/-! ### Lookups in a list of rows -/

section Lookup

variable [DecidableEq K]

/-- Where keys are distinct, a row is found under its key. -/
theorem lookup_eq_some_iff_of_nodup {rows : List (K × V)} (nodup : (rows.map Prod.fst).Nodup)
    {k : K} {v : V} : rows.lookup k = some v ↔ (k, v) ∈ rows := by
  induction rows with
  | nil => simp
  | cons row rows ih =>
      obtain ⟨k', v'⟩ := row
      obtain ⟨absent, nodup⟩ := List.nodup_cons.mp nodup
      rw [List.lookup_cons, List.mem_cons]
      by_cases same : k = k'
      · subst same
        have elsewhere : (k, v) ∉ rows := by
          intro mem
          have key : k ∈ rows.map Prod.fst := List.mem_map_of_mem mem
          exact absent key
        simp [elsewhere, eq_comm]
      · have differs : (k == k') = false := beq_eq_false_iff_ne.mpr same
        simp [differs, same, ih nodup]

theorem lookup_perm {rows rows' : List (K × V)} (h : rows.Perm rows')
    (nodup : (rows.map Prod.fst).Nodup) (k : K) : rows.lookup k = rows'.lookup k := by
  have nodup' : (rows'.map Prod.fst).Nodup := (h.map Prod.fst).nodup_iff.mp nodup
  apply Option.ext
  intro v
  rw [lookup_eq_some_iff_of_nodup nodup, lookup_eq_some_iff_of_nodup nodup', h.mem_iff]

end Lookup

/-! ### Tables -/

/-- A table that has the given rows, all of them readable, and delivers them in some order. -/
def TableAccess.Holds [DecidableEq K] (steady : σ → Prop) (table : TableAccess σ K V)
    (rows : List (K × V)) : Prop :=
  ∃ order : List (K × V), order.Perm rows ∧
    table.Shows steady (fun k => .ok (rows.lookup k)) (.ok (order.map .ok))

/-- A table that keeps a mapping: `held` says of a state which one. -/
structure TableAccess.Keeps [DecidableEq K] (table : TableAccess σ K V)
    (held : (K → Option V) → σ → Prop) : Prop where
  read : ∀ f k s, held f s → (table.read k s).1 = .ok (f k)
  delete : ∀ f k s, held f s →
    (table.delete k s).1 = .ok (if (f k).isSome then .deleted else .alreadyAbsent) ∧
      held (Function.update f k none) (table.delete k s).2
  put : ∀ f k v s, held f s →
    (table.put k v s).1 = .ok () ∧ held (Function.update f k (some v)) (table.put k v s).2

/-- The rows of the four tables, all of which can be read. -/
structure TableRows where
  detail : List (DetailKey × RawCounters)
  device : List (UInt32 × RawCounters)
  ifaceNames : List (UInt32 × NameField)
  cookieTags : List (UInt64 × SocketTag)

namespace TableRows

/-- In each table all keys are distinct. -/
structure Distinct (rows : TableRows) : Prop where
  detail : (rows.detail.map Prod.fst).Nodup
  device : (rows.device.map Prod.fst).Nodup
  ifaceNames : (rows.ifaceNames.map Prod.fst).Nodup
  cookieTags : (rows.cookieTags.map Prod.fst).Nodup

def name? (rows : TableRows) (ifaceIndex : UInt32) : Option String :=
  (rows.ifaceNames.lookup ifaceIndex).bind NameField.name?

end TableRows

/-- Four tables that have the given rows. The two that the service edits keep the mapping of
theirs. -/
structure TableSet.Holds (steady : σ → Prop) (tables : TableSet σ) (rows : TableRows) : Prop where
  detail : tables.detail.Holds steady rows.detail
  device : tables.device.Holds steady rows.device
  ifaceNames : tables.ifaceNames.Holds steady rows.ifaceNames
  cookieTags : tables.cookieTags.Holds steady rows.cookieTags
  keepsNames : ∃ held, tables.ifaceNames.Keeps held ∧
    ∀ s, steady s → held (fun ifaceIndex => rows.ifaceNames.lookup ifaceIndex) s
  keepsTags : ∃ held, tables.cookieTags.Keeps held ∧
    ∀ s, steady s → held (fun cookie => rows.cookieTags.lookup cookie) s

/-! ### Totals and reports -/

section Queries

/-- The total of rows whose keys are kept, all of which can be read. -/
def Total.keeping (kept : K → Bool) (rows : List (K × RawCounters)) : Total :=
  ⟨Counters.sum (keptCounters kept rows), 0⟩

variable [DecidableEq K] {table : TableAccess σ K RawCounters} {rows : List (K × RawCounters)}

/-- A total is the sum over the rows that are kept. -/
theorem TableAccess.Holds.ofRows (h : table.Holds steady rows) (name : TableName)
    {keep : K → Query σ Bool} {kept : K → Bool}
    (decides : ∀ k, Ensures steady (keep k) (· = kept k)) :
    Ensures steady (Total.ofRows name table keep) (· = .ok (Total.keeping kept rows)) := by
  obtain ⟨order, perm, shows⟩ := h
  refine (Total.ensures_ofRows shows name decides).mono fun answer eq => ?_
  rw [eq, Total.keeping, ← Total.sum_keptCounters_perm kept perm, ← Total.ofKept_map_ok]
  rfl

/-- A reading of the given rows: the report has their records in some order, and the tracker
added what the unnamed rows grew by. -/
structure Report.ReadFrom (source : CounterTable σ K) (name? : UInt32 → Option String)
    (rows : List (K × RawCounters)) (t : Tracker) (outcome : Except QueryError Report × Tracker) :
    Prop where
  records : ∃ records, outcome.1 = .ok ⟨records, 0⟩ ∧
    records.Perm (rows.filterMap (source.record? name?))
  state : outcome.2.state = t.state.addAll t.threshold (source.chargeable name? t rows)

theorem TableAccess.Holds.read {source : CounterTable σ K} (h : source.access.Holds steady rows)
    (nodup : (rows.map Prod.fst).Nodup) (distinct : Function.Injective source.rowId)
    {names : TableAccess σ UInt32 NameField} {name? : UInt32 → Option String}
    (named : ∀ i, Ensures steady (names.resolve i) (· = name? i)) (t : Tracker) :
    Ensures steady (Report.read source names t) (Report.ReadFrom source name? rows t) := by
  obtain ⟨order, perm, shows⟩ := h
  have nodup' : ((readable (order.map .ok : List (RowResult K RawCounters))).map Prod.fst).Nodup := by
    rw [readable_map_ok]
    exact (perm.map Prod.fst).nodup_iff.mpr nodup
  have present : ∀ row ∈ readable (order.map .ok : List (RowResult K RawCounters)),
      (.ok (rows.lookup row.1) : Except StoreError (Option RawCounters)) = .ok (some row.2) := by
    intro row hrow
    rw [readable_map_ok] at hrow
    rw [(lookup_eq_some_iff_of_nodup nodup).mpr (perm.mem_iff.mp hrow)]
  have charged := Report.ensures_read_charged distinct shows nodup' present named t
  have answered := Report.ensures_read shows named t
  intro s hs
  obtain ⟨answer, still⟩ := answered s hs
  obtain ⟨charged, -⟩ := charged s hs
  refine ⟨⟨⟨order.filterMap (source.record? name?), ?_, perm.filterMap _⟩, ?_⟩, still⟩
  · rw [answer, ← CounterTable.report_map_ok]
    rfl
  · rw [charged.state, readable_map_ok]
    exact TrackerState.addAll_perm (source.chargeable_perm name? (fun _ => rfl) perm)
      (source.pos_of_mem_chargeable name? t)

end Queries

end TrafficStats
