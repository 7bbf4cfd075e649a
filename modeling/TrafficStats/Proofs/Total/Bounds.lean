import TrafficStats.Proofs.Counters.Exact
import TrafficStats.Proofs.Total.Rows

/-!
# Bounds of totals

A raw counter that is no smaller is clamped to a counter that is no smaller, and no clamped
counter is negative. As long as the exact sum of clamped counters is in the signed range, a total
holds it exactly. Adding rows, or raising some of them, then raises the total: `RaisedIn` compares
two lists of rows, and `RaisedIn.counter_le` their totals.
-/

namespace TrafficStats

open Counters

namespace Total

variable {K : Type} {counter : Counters → Int64} (kept : K → Bool)
variable {rows rows' : List (K × RawCounters)}

theorem exactSum_keptCounters_cons (row : K × RawCounters) (rows : List (K × RawCounters)) :
    exactSum counter (keptCounters kept (row :: rows)) =
      (if kept row.1 then (counter row.2.clamped).toInt else 0) +
        exactSum counter (keptCounters kept rows) := by
  cases hkept : kept row.1 <;> simp [keptCounters, exactSum, hkept]

theorem exactSum_keptCounters_nonneg (isField : IsField counter)
    (rows : List (K × RawCounters)) : 0 ≤ exactSum counter (keptCounters kept rows) := by
  induction rows with
  | nil => exact Int.le_refl 0
  | cons row rows ih =>
      have value := isField.nonneg row.2
      rw [exactSum_keptCounters_cons]
      split
      · omega
      · omega

theorem exactSum_keptCounters_perm (h : rows.Perm rows') :
    exactSum counter (keptCounters kept rows) = exactSum counter (keptCounters kept rows') :=
  (((h.filter _).map _).map _).sum_eq

/-- Rows with distinct keys, each of which has a row of its key among the others with
counters that are no smaller. -/
structure RaisedIn (rows rows' : List (K × RawCounters)) : Prop where
  nodup : (rows.map Prod.fst).Nodup
  exists_le : ∀ k raw, (k, raw) ∈ rows → ∃ raw', (k, raw') ∈ rows' ∧ raw ≤ raw'

/-- Adding rows and raising rows does not lower the sum of those that are kept. -/
theorem RaisedIn.exactSum_le (h : RaisedIn rows rows') (isField : IsField counter) :
    exactSum counter (keptCounters kept rows) ≤ exactSum counter (keptCounters kept rows') := by
  induction rows generalizing rows' with
  | nil => exact exactSum_keptCounters_nonneg kept isField rows'
  | cons row rows ih =>
      obtain ⟨k, raw⟩ := row
      obtain ⟨raw', hmem, le⟩ := h.exists_le k raw List.mem_cons_self
      obtain ⟨front, back, rfl⟩ := List.append_of_mem hmem
      obtain ⟨absent, nodup⟩ := List.nodup_cons.mp h.nodup
      -- The other rows have other keys, so that they are raised in what is left.
      have others : RaisedIn rows (front ++ back) := by
        refine ⟨nodup, ?_⟩
        intro k' raw₁ hrow
        obtain ⟨raw₂, hmem', le'⟩ := h.exists_le k' raw₁ (List.mem_cons_of_mem _ hrow)
        refine ⟨raw₂, ?_, le'⟩
        rcases List.mem_append.mp hmem' with hfront | hback
        · exact List.mem_append_left _ hfront
        · rcases List.mem_cons.mp hback with same | hback
          · cases same
            exact absurd (List.mem_map_of_mem hrow) absent
          · exact List.mem_append_right _ hback
      have value := isField.mono raw raw' le
      rw [exactSum_keptCounters_cons, exactSum_keptCounters_perm kept List.perm_middle,
        exactSum_keptCounters_cons]
      have rest := ih others
      simp only
      split
      · omega
      · omega

/-- If what the raised rows sum up to is in the signed range, no counter is lower before they
are raised. -/
theorem RaisedIn.counter_le (h : RaisedIn rows rows') (isField : IsField counter)
    (fits : exactSum counter (keptCounters kept rows') ≤ 0x7FFFFFFFFFFFFFFF) :
    counter (Counters.sum (keptCounters kept rows)) ≤
      counter (Counters.sum (keptCounters kept rows')) := by
  have le := h.exactSum_le kept isField
  have nonneg := exactSum_keptCounters_nonneg kept isField rows
  have nonneg' := exactSum_keptCounters_nonneg kept isField rows'
  rw [Int64.le_iff_toInt_le, isField.toInt_sum_eq_exactSum (by omega) (Int.le_trans le fits),
    isField.toInt_sum_eq_exactSum (by omega) fits]
  exact le

end Total

end TrafficStats
