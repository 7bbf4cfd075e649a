import TrafficStats.Proofs.Report.Grouping
import TrafficStats.Proofs.Report.Rows
import TrafficStats.Proofs.Total.Rows

/-!
# Totals and records

A record carries the clamped counters of its row. What some of the records of a report
amount to is therefore the sum over the rows from which they were made, which is how a
report is compared with a total over the same rows.
-/

namespace TrafficStats

variable {σ K : Type}

/-- The records of a table carry the counters of their rows. -/
def CounterTable.KeepsCounters (source : CounterTable σ K) : Prop :=
  ∀ k iface counters, (source.record k iface counters).counters = counters

theorem CounterTable.keepsCounters_detail (access : TableAccess σ DetailKey RawCounters)
    (policy : DetailKey → TrafficSet) : (detail access policy).KeepsCounters :=
  fun _ _ _ => rfl

theorem CounterTable.keepsCounters_device (access : TableAccess σ UInt32 RawCounters) :
    (device access).KeepsCounters :=
  fun _ _ _ => rfl

namespace Report

variable {source : CounterTable σ K}

/-- What the records that are shown amount to, where these are the records of the rows that are
kept. -/
theorem mass_filter_records (keeps : source.KeepsCounters) {name? : UInt32 → Option String}
    {shown : ReportRecord → Bool} {kept : K → Bool}
    (same : ∀ row, (source.record? name? row).any shown = kept row.1)
    (rows : List (K × RawCounters)) :
    mass ((rows.filterMap (source.record? name?)).filter shown) =
      Counters.sum (Total.keptCounters kept rows) := by
  induction rows with
  | nil => rfl
  | cons row rows ih =>
      rw [Total.sum_keptCounters_cons, ← same row]
      cases hrecord : source.record? name? row with
      | none =>
          rw [List.filterMap_cons_none hrecord, ih]
          exact (Counters.zero_add _).symm
      | some r =>
          have counters : r.counters = row.2.clamped := by
            obtain ⟨iface, -, eq⟩ := Option.map_eq_some_iff.mp hrecord
            rw [← eq]
            exact keeps _ _ _
          rw [List.filterMap_cons_some hrecord, Option.any_some]
          cases hshown : shown r with
          | true =>
              rw [List.filter_cons_of_pos hshown, mass_cons, ih, counters]
              rfl
          | false =>
              rw [List.filter_cons_of_neg (by simp [hshown]), ih]
              exact (Counters.zero_add _).symm

end Report

end TrafficStats
