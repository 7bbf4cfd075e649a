import TrafficStats.Proofs.Counters.Sums
import TrafficStats.Proofs.Report.Order
import TrafficStats.Report.Group

/-!
# What grouping computes

Sorting brings the records of one identity together, and summing the runs leaves one of
them. Neither changes which identities there are, nor what the records of any set of
identities amount to (`mass_filter_group`); and the result increases strictly. There is
only one list of records with these properties, `IsSumByIdentity.unique`, so grouping
depends neither on the order of the records nor on whether some of them were grouped
before.
-/

namespace TrafficStats.Report

open ReportRecord

@[simp] theorem mass_nil : mass [] = 0 := rfl

@[simp] theorem mass_cons (r : ReportRecord) (records : List ReportRecord) :
    mass (r :: records) = r.counters + mass records :=
  Counters.sum_cons _ _

theorem mass_filter_cons (p : Identity → Bool) (r : ReportRecord)
    (records : List ReportRecord) :
    mass ((r :: records).filter fun q => p q.identity) =
      (if p r.identity then r.counters else 0) + mass (records.filter fun q => p q.identity) := by
  by_cases counts : p r.identity = true
  · rw [List.filter_cons_of_pos (by exact counts), mass_cons, if_pos counts]
  · rw [List.filter_cons_of_neg (by exact counts), if_neg counts, Counters.zero_add]

theorem mass_perm {records records' : List ReportRecord} (h : records.Perm records') :
    mass records = mass records' :=
  Counters.sum_perm (h.map _)

/-! ### Sorting -/

theorem sort_perm (records : List ReportRecord) : (sort records).Perm records :=
  List.mergeSort_perm _ _

theorem sort_pairwise (records : List ReportRecord) :
    (sort records).Pairwise fun a b => (a.compare b).isLE = true := by
  refine List.pairwise_mergeSort ?_ isLE_total records
  intro a b c
  exact isLE_trans

/-! ### Summing runs -/

theorem mem_identities_mergeHead (i : Identity) (r : ReportRecord)
    (records : List ReportRecord) :
    i ∈ (mergeHead r records).map identity ↔ i = r.identity ∨ i ∈ records.map identity := by
  cases records with
  | nil => simp [mergeHead]
  | cons s rest =>
      rw [mergeHead]
      split
      · rename_i same
        change i ∈ r.identity :: rest.map identity ↔ _
        rw [List.map_cons, ← same, List.mem_cons, or_self_left]
      · rw [List.map_cons, List.mem_cons]

theorem mem_identities_sumRuns (i : Identity) (records : List ReportRecord) :
    i ∈ (sumRuns records).map identity ↔ i ∈ records.map identity := by
  induction records with
  | nil => rfl
  | cons r rest ih =>
      change i ∈ (mergeHead r (sumRuns rest)).map identity ↔ _
      rw [mem_identities_mergeHead, ih, List.map_cons, List.mem_cons]

/-- A record put in front adds its counters, whichever identities are looked at. -/
theorem mass_filter_mergeHead (p : Identity → Bool) (r : ReportRecord)
    (records : List ReportRecord) :
    mass ((mergeHead r records).filter fun q => p q.identity) =
      mass ((r :: records).filter fun q => p q.identity) := by
  cases records with
  | nil => rfl
  | cons s rest =>
      rw [mergeHead]
      split
      · rename_i same
        rw [mass_filter_cons, mass_filter_cons, mass_filter_cons, ← same]
        change (if p r.identity then r.counters + s.counters else 0) + _ = _
        split
        · rw [Counters.add_assoc]
        · rw [Counters.zero_add, Counters.zero_add]
      · rfl

theorem mass_filter_sumRuns (p : Identity → Bool) (records : List ReportRecord) :
    mass ((sumRuns records).filter fun q => p q.identity) =
      mass (records.filter fun q => p q.identity) := by
  induction records with
  | nil => rfl
  | cons r rest ih =>
      change mass ((mergeHead r (sumRuns rest)).filter fun q => p q.identity) = _
      rw [mass_filter_mergeHead, mass_filter_cons, mass_filter_cons, ih]

theorem increasing_mergeHead {r : ReportRecord} {records : List ReportRecord}
    (h : Increasing records) (least : ∀ s ∈ records, (r.compare s).isLE = true) :
    Increasing (mergeHead r records) := by
  cases records with
  | nil => exact List.pairwise_singleton _ _
  | cons s rest =>
      obtain ⟨above, tail⟩ := List.pairwise_cons.mp h
      rw [mergeHead]
      split
      · rename_i same
        refine List.pairwise_cons.mpr ⟨?_, tail⟩
        intro t ht
        change r.identity.compare t.identity = .lt
        rw [same]
        exact above t ht
      · rename_i differ
        have less : r.compare s = .lt := by
          have le := least s List.mem_cons_self
          have ne := mt compare_eq_iff.mp differ
          cases hcompare : r.compare s with
          | lt => rfl
          | eq => exact absurd hcompare ne
          | gt =>
              rw [hcompare] at le
              cases le
        refine List.pairwise_cons.mpr ⟨?_, h⟩
        intro t ht
        rcases List.mem_cons.mp ht with rfl | ht
        · exact less
        · exact Std.TransCmp.lt_trans less (above t ht)

theorem increasing_sumRuns {records : List ReportRecord}
    (sorted : records.Pairwise fun a b => (a.compare b).isLE = true) :
    Increasing (sumRuns records) := by
  induction records with
  | nil => exact .nil
  | cons r rest ih =>
      obtain ⟨least, tail⟩ := List.pairwise_cons.mp sorted
      refine increasing_mergeHead (ih tail) ?_
      -- Only identities are compared, and those of the summed rest are those of the rest.
      intro s hs
      have present : s.identity ∈ rest.map identity :=
        (mem_identities_sumRuns _ rest).mp (List.mem_map_of_mem hs)
      obtain ⟨q, hq, same⟩ := List.mem_map.mp present
      change (r.identity.compare s.identity).isLE = true
      rw [← same]
      exact least q hq

/-! ### Grouping -/

theorem increasing_group (records : List ReportRecord) : Increasing (group records) :=
  increasing_sumRuns (sort_pairwise records)

theorem mem_identities_group (i : Identity) (records : List ReportRecord) :
    i ∈ (group records).map identity ↔ i ∈ records.map identity := by
  rw [group, mem_identities_sumRuns]
  exact ((sort_perm records).map identity).mem_iff

/-- Grouping keeps what the records of any set of identities amount to. -/
theorem mass_filter_group (p : Identity → Bool) (records : List ReportRecord) :
    mass ((group records).filter fun q => p q.identity) =
      mass (records.filter fun q => p q.identity) := by
  rw [group, mass_filter_sumRuns]
  exact mass_perm ((sort_perm records).filter _)

theorem mass_group (records : List ReportRecord) : mass (group records) = mass records := by
  have all := mass_filter_group (fun _ => true) records
  rwa [List.filter_true, List.filter_true] at all

def countersOf (i : Identity) (records : List ReportRecord) : List Counters :=
  (records.filter fun r => r.identity = i).map ReportRecord.counters

theorem countersOf_append (i : Identity) (records more : List ReportRecord) :
    countersOf i (records ++ more) = countersOf i records ++ countersOf i more := by
  rw [countersOf, List.filter_append, List.map_append]
  rfl

theorem sum_countersOf_group (i : Identity) (records : List ReportRecord) :
    Counters.sum (countersOf i (group records)) = Counters.sum (countersOf i records) :=
  mass_filter_group (fun j => j = i) records

/-- `sums` is the sum of `records` by identity: it has one record for each identity, in order,
with the wrapped sums of the counters. -/
structure IsSumByIdentity (records sums : List ReportRecord) : Prop where
  increasing : Increasing sums
  distinct : (sums.map identity).Nodup
  identities : ∀ i, i ∈ sums.map identity ↔ i ∈ records.map identity
  counters : ∀ r ∈ sums, r.counters.IsWrappedSum (countersOf r.identity records)

namespace IsSumByIdentity

variable {records records' sums sums' : List ReportRecord}

theorem of_group (records : List ReportRecord) : IsSumByIdentity records (group records) := by
  refine ⟨increasing_group records, ?_, fun i => mem_identities_group i records, ?_⟩
  · exact List.pairwise_map.mpr (increasing_group records).pairwise_identity_ne
  intro r hr
  have own : countersOf r.identity (group records) = [r.counters] := by
    rw [countersOf, (increasing_group records).filter_identity hr]
    rfl
  rw [Counters.isWrappedSum_iff, ← sum_countersOf_group, own, Counters.sum_cons,
    Counters.sum_nil, Counters.add_zero]

/-- Which records are in a sum by identity. -/
theorem mem_iff (h : IsSumByIdentity records sums) (r : ReportRecord) :
    r ∈ sums ↔ r.identity ∈ records.map identity ∧
      r.counters = Counters.sum (countersOf r.identity records) := by
  constructor
  · intro hr
    exact ⟨(h.identities _).mp (List.mem_map_of_mem hr),
      Counters.isWrappedSum_iff.mp (h.counters r hr)⟩
  · rintro ⟨present, counts⟩
    obtain ⟨q, hq, same⟩ := List.mem_map.mp ((h.identities _).mpr present)
    have alike : q.counters = r.counters := by
      rw [Counters.isWrappedSum_iff.mp (h.counters q hq), counts, same]
    rwa [← eq_of_identity_eq same alike]

/-- Only the identities of the records and the sums of their counters matter. -/
theorem unique (h : IsSumByIdentity records sums) (h' : IsSumByIdentity records' sums')
    (identities : ∀ i, i ∈ records.map identity ↔ i ∈ records'.map identity)
    (counters : ∀ i, Counters.sum (countersOf i records) = Counters.sum (countersOf i records')) :
    sums = sums' := by
  refine h.increasing.ext h'.increasing fun r => ?_
  rw [h.mem_iff, h'.mem_iff, identities, counters]

end IsSumByIdentity

theorem group_congr {records records' : List ReportRecord}
    (identities : ∀ i, i ∈ records.map identity ↔ i ∈ records'.map identity)
    (counters : ∀ i, Counters.sum (countersOf i records) = Counters.sum (countersOf i records')) :
    group records = group records' :=
  (IsSumByIdentity.of_group records).unique (.of_group records') identities counters

theorem group_perm {records records' : List ReportRecord} (h : records.Perm records') :
    group records = group records' :=
  group_congr (fun _ => (h.map identity).mem_iff)
    fun _ => Counters.sum_perm ((h.filter _).map ReportRecord.counters)

/-- Grouping some of the records beforehand makes no difference. -/
theorem group_group_append (records more : List ReportRecord) :
    group (group records ++ more) = group (records ++ more) := by
  refine group_congr ?_ ?_
  · intro i
    rw [List.map_append, List.map_append, List.mem_append, List.mem_append,
      mem_identities_group]
  · intro i
    rw [countersOf_append, countersOf_append, Counters.sum_append, Counters.sum_append,
      sum_countersOf_group]

/-- Grouping yields the sum by identity, whatever the order of the records and however many of
them were grouped before, and keeps the sum of all counters. -/
theorem group_isSumByIdentity (records : List ReportRecord) :
    IsSumByIdentity records (group records) ∧
      (∀ records', records.Perm records' → group records' = group records) ∧
      (∀ more, group (group records ++ more) = group (records ++ more)) ∧
      group (group records) = group records ∧
      (mass (group records)).IsWrappedSum (records.map ReportRecord.counters) ∧
      mass (group records) = mass records := by
  refine ⟨.of_group records, ?_, group_group_append records, ?_, ?_, mass_group records⟩
  · intro records' h
    exact (group_perm h).symm
  · simpa using group_group_append records []
  · rw [Counters.isWrappedSum_iff, mass_group]
    rfl

/-- Three records of two identities; those of one of them together exceed the signed range. -/
def wrappingRecords : List ReportRecord :=
  [⟨"wlan0", 10, .default, 0, ⟨0x7FFFFFFFFFFFFFFF, 1, 0, 0⟩⟩,
    ⟨"eth0", 10, .default, 0, ⟨1, 1, 1, 1⟩⟩, ⟨"wlan0", 10, .default, 0, ⟨1, 1, 0, 0⟩⟩]

/-- In either order they are grouped alike, and the sum that exceeds the range starts again at
its lower end. -/
theorem group_wrappingRecords :
    wrappingRecords.Perm wrappingRecords.reverse ∧
      group wrappingRecords.reverse = group wrappingRecords ∧
      ∃ r ∈ group wrappingRecords, r.identity = ⟨"wlan0", 10, .default, 0⟩ ∧
        r.counters = ⟨Int64.minValue, 2, 0, 0⟩ := by
  have perm : wrappingRecords.Perm wrappingRecords.reverse :=
    (List.reverse_perm wrappingRecords).symm
  obtain ⟨⟨-, -, identities, counters⟩, sameByOrder, -⟩ := group_isSumByIdentity wrappingRecords
  refine ⟨perm, sameByOrder _ perm, ?_⟩
  have present := (identities ⟨"wlan0", 10, .default, 0⟩).mpr (by decide)
  obtain ⟨r, hr, eq⟩ := List.mem_map.mp present
  have wrapped := Counters.isWrappedSum_iff.mp (counters r hr)
  rw [eq] at wrapped
  exact ⟨r, hr, eq, wrapped.trans (by decide)⟩

end TrafficStats.Report
