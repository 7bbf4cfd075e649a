import Mathlib.Algebra.BigOperators.Group.Finset.Basic
import Mathlib.Algebra.GroupWithZero.Nat
import Mathlib.Data.List.SplitBy
import TrafficStats.Counters
import TrafficStats.Key

/-!
# What readings of rows amount to

Kernel counters only grow until their row is created anew and counts from zero. The
readings of one row therefore fall into stretches that do not decrease, and what a row has
counted is the sum of the last readings of its stretches; what all rows have counted is
the sum over the rows. One more reading adds what the row grew by (`exactTotal_concat`).
All of this is in exact numbers.
-/

namespace TrafficStats

/-- What a reading comes to, in exact numbers: received and sent bytes, each cut off at the
end of the signed range, and their sum cut off there as well. -/
def RawCounters.reading (raw : RawCounters) : Nat :=
  min 0x7FFFFFFFFFFFFFFF
    (min raw.rxBytes.toNat 0x7FFFFFFFFFFFFFFF + min raw.txBytes.toNat 0x7FFFFFFFFFFFFFFF)

theorem RawCounters.toInt_totalBytes (raw : RawCounters) :
    raw.clamped.totalBytes.toInt = raw.reading := by
  rw [Counters.totalBytes, toInt_saturatingAdd, clamped, toInt_clamp, toInt_clamp, reading]
  omega

/-- What a row that was last read with `last` bytes and now has `bytes` grew by. -/
def exactGrowth (last bytes : Nat) : Nat :=
  if last ≤ bytes then bytes - last else bytes

/-- The last elements of the longest stretches of a list that do not decrease. -/
def runEnds (values : List Nat) : List Nat :=
  (values.splitBy fun a b => a ≤ b).filterMap List.getLast?

/-- A last element that is no smaller than the one before it prolongs the last stretch. -/
theorem splitBy_concat_of_le {front : List (List Nat)} {stretch values : List Nat} {b : Nat}
    (split : values.splitBy (fun a b => a ≤ b) = front ++ [stretch])
    (hle : ∀ last ∈ stretch.getLast?, last ≤ b) :
    (values ++ [b]).splitBy (fun a b => a ≤ b) = front ++ [stretch ++ [b]] := by
  rw [List.splitBy_eq_iff] at split ⊢
  obtain ⟨whole, nonempty, chains, breaks⟩ := split
  have nonempty' : stretch ≠ [] := by
    rintro rfl
    simp at nonempty
  refine ⟨?_, ?_, ?_, ?_⟩
  · rw [whole]
    simp
  · simpa [nonempty'] using nonempty
  · intro m hm
    rcases List.mem_append.mp hm with hm | hm
    · exact chains m (List.mem_append_left _ hm)
    · rw [List.mem_singleton.mp hm, List.isChain_append]
      refine ⟨chains stretch (by simp), List.isChain_singleton b, ?_⟩
      intro last hlast y hy
      cases hy
      simpa using hle last hlast
  · rw [List.isChain_append] at breaks ⊢
    obtain ⟨before, -, between⟩ := breaks
    refine ⟨before, List.isChain_singleton _, ?_⟩
    intro x hx y hy
    cases hy
    obtain ⟨ha, hb, less⟩ := between x hx stretch rfl
    refine ⟨ha, by simp, ?_⟩
    rwa [List.head_append_of_ne_nil]

/-- The last stretch of a list ends as the list does. -/
theorem exists_last_stretch {values : List Nat} {last : Nat} (h : values.getLast? = some last) :
    ∃ front stretch, values.splitBy (fun a b => a ≤ b) = front ++ [stretch] ∧
      stretch.getLast? = some last := by
  rcases List.eq_nil_or_concat (values.splitBy fun a b => a ≤ b) with
    empty | ⟨front, stretch, split⟩
  · rw [List.splitBy_eq_nil] at empty
    rw [empty] at h
    cases h
  · rw [List.concat_eq_append] at split
    have nonempty : stretch ≠ [] := List.ne_nil_of_mem_splitBy (by rw [split]; simp)
    refine ⟨front, stretch, split, ?_⟩
    rw [← h, ← List.flatten_splitBy (fun a b => decide (a ≤ b)) values, split,
      List.flatten_append, List.flatten_singleton, List.getLast?_append_of_ne_nil _ nonempty]

theorem sum_runEnds_concat (values : List Nat) (b : Nat) :
    (runEnds (values ++ [b])).sum = (runEnds values).sum + exactGrowth (values.getLastD 0) b := by
  have single : (runEnds [b]).sum = b := Nat.add_zero b
  cases hlast : values.getLast? with
  | none =>
      rw [List.getLast?_eq_none_iff.mp hlast, List.nil_append, single]
      exact (Nat.zero_add b).symm
  | some last =>
      rw [List.getLastD_eq_getLast?, hlast, Option.getD_some, exactGrowth]
      obtain ⟨front, stretch, split, ends⟩ := exists_last_stretch hlast
      have sum_values : (runEnds values).sum = (front.filterMap List.getLast?).sum + last := by
        rw [runEnds, split]
        simp [ends]
      split
      · rename_i hle
        have prolonged := splitBy_concat_of_le split (b := b) (by simpa [ends] using hle)
        have sum_now : (runEnds (values ++ [b])).sum =
            (front.filterMap List.getLast?).sum + b := by
          rw [runEnds, prolonged]
          simp
        omega
      · rename_i less
        have broken : (values ++ [b]).splitBy (fun a b => decide (a ≤ b)) =
            values.splitBy (fun a b => decide (a ≤ b)) ++ [b].splitBy fun a b => decide (a ≤ b) :=
          List.splitBy_append_cons [] (by simpa [hlast] using less)
        rw [runEnds, broken, List.filterMap_append, List.sum_append]
        exact congrArg _ single

/-- If values never decrease, all of them are one stretch. -/
theorem sum_runEnds_of_pairwise {values : List Nat} (grows : values.Pairwise (· ≤ ·)) :
    (runEnds values).sum = values.getLastD 0 := by
  rcases List.eq_nil_or_concat values with rfl | ⟨values', last, rfl⟩
  · rfl
  · rw [List.concat_eq_append] at grows ⊢
    have chain : (values' ++ [last]).IsChain fun a b => decide (a ≤ b) = true := by
      simpa using grows.isChain
    rw [runEnds, List.splitBy_of_isChain (by simp) chain]
    simp

/-- The readings of one row among those of all rows. -/
def readingsOf (row : RowId) (readings : List (RowId × Nat)) : List Nat :=
  (readings.filter fun reading => reading.1 = row).map Prod.snd

/-- The latest reading of a row, zero if there is none. -/
def latest (row : RowId) (readings : List (RowId × Nat)) : Nat :=
  (readingsOf row readings).getLastD 0

/-- What all rows have counted. -/
def exactTotal (readings : List (RowId × Nat)) : Nat :=
  ∑ row ∈ (readings.map Prod.fst).toFinset, (runEnds (readingsOf row readings)).sum

variable (readings : List (RowId × Nat)) (row : RowId) (b : Nat)

theorem readingsOf_concat (row' : RowId) :
    readingsOf row' (readings ++ [(row, b)]) =
      if row' = row then readingsOf row' readings ++ [b] else readingsOf row' readings := by
  rw [readingsOf, List.filter_append, List.map_append]
  split
  · rename_i same
    simp [readingsOf, same]
  · rename_i other
    simp [readingsOf, Ne.symm other]

theorem latest_concat (row' : RowId) :
    latest row' (readings ++ [(row, b)]) = if row' = row then b else latest row' readings := by
  rw [latest, readingsOf_concat]
  split
  · simp
  · rfl

theorem readingsOf_eq_nil {readings : List (RowId × Nat)} {row : RowId}
    (h : row ∉ (readings.map Prod.fst).toFinset) : readingsOf row readings = [] := by
  rw [readingsOf, List.map_eq_nil_iff, List.filter_eq_nil_iff]
  intro reading hmem
  simp only [List.mem_toFinset, List.mem_map, not_exists, not_and] at h
  simpa using h reading hmem

/-- One more reading adds what its row grew by. -/
theorem exactTotal_concat :
    exactTotal (readings ++ [(row, b)]) =
      exactTotal readings + exactGrowth (latest row readings) b := by
  have rows : ((readings ++ [(row, b)]).map Prod.fst).toFinset =
      insert row (readings.map Prod.fst).toFinset := by
    ext row'
    simp
  -- A row that has no readings yet adds nothing to the sum before.
  have before : exactTotal readings =
      ∑ row' ∈ insert row (readings.map Prod.fst).toFinset,
        (runEnds (readingsOf row' readings)).sum := by
    refine Finset.sum_subset (Finset.subset_insert _ _) fun row' _ absent => ?_
    rw [readingsOf_eq_nil absent]
    rfl
  have others : ∀ row' ∈ (insert row (readings.map Prod.fst).toFinset).erase row,
      (runEnds (readingsOf row' (readings ++ [(row, b)]))).sum =
        (runEnds (readingsOf row' readings)).sum := by
    intro row' hmem
    rw [readingsOf_concat, if_neg (Finset.ne_of_mem_erase hmem)]
  have member := Finset.mem_insert_self row (readings.map Prod.fst).toFinset
  rw [before, exactTotal, rows, ← Finset.add_sum_erase _ _ member,
    ← Finset.add_sum_erase _ _ member, Finset.sum_congr rfl others, readingsOf_concat,
    if_pos rfl, sum_runEnds_concat, latest]
  omega

/-- For rows that only grow, all rows have counted what was read of them last. -/
theorem exactTotal_of_growing {readings : List (RowId × Nat)}
    (grows : ∀ row, (readingsOf row readings).Pairwise (· ≤ ·)) :
    exactTotal readings = ∑ row ∈ (readings.map Prod.fst).toFinset, latest row readings :=
  Finset.sum_congr rfl fun row _ => sum_runEnds_of_pairwise (grows row)

end TrafficStats
