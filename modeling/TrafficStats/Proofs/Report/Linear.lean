import TrafficStats.Proofs.Report.Grouping
import TrafficStats.Proofs.Text.Order

/-!
# Records in a linear order

Two records either count for the same, or exactly one of them comes before the other; which one
is decided by the first part in which their identities differ (`Identity.compare_eq_lt_iff`).
Sorting by this order leaves no choice: the records are put in order, those of one identity stay in
the order in which they came, and only one list is arranged like that (`IsStableSort.unique`).
-/

namespace TrafficStats

namespace Text

theorem compare_bytes_eq_lt_iff {u v : List UInt8} : compare u v = .lt ↔ u < v := by
  induction u generalizing v with
  | nil => cases v <;> simp
  | cons a u ih =>
      cases v with
      | nil => simp
      | cons b v =>
          rw [List.compare_cons_cons, Ordering.then_eq_lt, List.cons_lt_cons_iff, ih,
            ← compare_toNat, Nat.compare_eq_lt, Nat.compare_eq_eq, UInt8.toNat_inj,
            UInt8.lt_iff_toNat_lt]

end Text

namespace Identity

variable {a b : Identity}

/-- The first part in which the identities differ is less in `a`. Names are compared by their
bytes, a name before those that it is the beginning of. -/
inductive Before (a b : Identity) : Prop
  | iface (less : Text.utf8 a.iface < Text.utf8 b.iface)
  | uid (iface : a.iface = b.iface) (less : a.uid < b.uid)
  | set (iface : a.iface = b.iface) (uid : a.uid = b.uid) (less : a.set.rank < b.set.rank)
  | tag (iface : a.iface = b.iface) (uid : a.uid = b.uid) (set : a.set = b.set)
      (less : a.tag < b.tag)

theorem compare_eq_lt_iff : a.compare b = .lt ↔ a.Before b := by
  have ifaces : Ord.compare (Text.utf8 a.iface) (Text.utf8 b.iface) = .eq ↔ a.iface = b.iface := by
    rw [Std.LawfulEqOrd.compare_eq_iff_eq]
    exact ⟨Text.utf8_injective, congrArg Text.utf8⟩
  have sets : a.set.rank = b.set.rank ↔ a.set = b.set :=
    ⟨TrafficSet.rank_injective, congrArg TrafficSet.rank⟩
  simp only [compare, Ordering.then_eq_lt, Text.compare_bytes_eq_lt_iff, ifaces,
    Nat.compare_eq_lt, Nat.compare_eq_eq, UInt32.toNat_inj, ← UInt32.lt_iff_toNat_lt, sets]
  constructor
  · rintro (less | ⟨iface, less | ⟨uid, less | ⟨set, less⟩⟩⟩)
    · exact .iface less
    · exact .uid iface less
    · exact .set iface uid less
    · exact .tag iface uid set less
  · rintro (less | ⟨iface, less⟩ | ⟨iface, uid, less⟩ | ⟨iface, uid, set, less⟩)
    · exact .inl less
    · exact .inr ⟨iface, .inl less⟩
    · exact .inr ⟨iface, .inr ⟨uid, .inl less⟩⟩
    · exact .inr ⟨iface, .inr ⟨uid, .inr ⟨set, less⟩⟩⟩

end Identity

namespace ReportRecord

/-- How two records compare, with each other and with a third one. -/
structure ComparesLinearly (a b : ReportRecord) : Prop where
  -- Exactly one of them comes first, unless they count for the same.
  trichotomy :
    (a.compare b = .lt ∧ a.identity ≠ b.identity ∧ b.compare a = .gt) ∨
      (a.compare b = .eq ∧ a.identity = b.identity ∧ b.compare a = .eq) ∨
      (a.compare b = .gt ∧ a.identity ≠ b.identity ∧ b.compare a = .lt)
  swap : b.compare a = (a.compare b).swap
  trans : ∀ c : ReportRecord, a.compare b = .lt → b.compare c = .lt → a.compare c = .lt
  eq_iff : a.compare b = .eq ↔ a.identity = b.identity
  identity_eq_iff : a.identity = b.identity ↔
    a.iface = b.iface ∧ a.uid = b.uid ∧ a.set = b.set ∧ a.tag = b.tag
  -- The counters are not looked at.
  payload : ∀ counters counters',
    compare { a with counters := counters } { b with counters := counters' } = a.compare b
  lt_iff : a.compare b = .lt ↔ a.identity.Before b.identity

theorem comparesLinearly (a b : ReportRecord) : ComparesLinearly a b where
  trichotomy := by
    have swapped := compare_swap b a
    have same := compare_eq_iff (a := a) (b := b)
    cases hcompare : a.compare b with
    | lt =>
        rw [hcompare] at swapped
        exact .inl ⟨rfl, identity_ne_of_compare hcompare, swapped⟩
    | eq =>
        rw [hcompare] at swapped
        exact .inr (.inl ⟨rfl, same.mp hcompare, swapped⟩)
    | gt =>
        rw [hcompare] at swapped
        exact .inr (.inr ⟨rfl, (identity_ne_of_compare swapped).symm, swapped⟩)
  swap := compare_swap b a
  trans _ := Std.TransCmp.lt_trans
  eq_iff := compare_eq_iff
  identity_eq_iff := Identity.mk.injEq .. ▸ Iff.rfl
  payload _ _ := rfl
  lt_iff := Identity.compare_eq_lt_iff

end ReportRecord

namespace Report

open ReportRecord

variable {records sorted sorted' : List ReportRecord}

/-- `sorted` has the records in order, and those of one identity as they came. -/
structure IsStableSort (records sorted : List ReportRecord) : Prop where
  perm : sorted.Perm records
  ordered : sorted.Pairwise fun a b => a.compare b ≠ .gt
  stable : ∀ i, sorted.filter (fun r => r.identity = i) = records.filter fun r => r.identity = i

theorem ordered_sort (records : List ReportRecord) :
    (sort records).Pairwise fun a b => a.compare b ≠ .gt := by
  refine (sort_pairwise records).imp ?_
  intro a b le more
  rw [more] at le
  cases le

/-- The records of one identity are in order as they come, and a stable sort keeps such a part of
a list in place. -/
theorem filter_sort (i : Identity) (records : List ReportRecord) :
    (sort records).filter (fun r => r.identity = i) = records.filter fun r => r.identity = i := by
  have alike : (records.filter fun r => r.identity = i).Pairwise
      fun a b => (a.compare b).isLE = true := by
    refine List.pairwise_of_forall_mem_list fun a ha b hb => ?_
    simp only [List.mem_filter, decide_eq_true_eq] at ha hb
    rw [compare_eq_iff.mpr (ha.2.trans hb.2.symm)]
    rfl
  have kept : (records.filter fun r => r.identity = i).Sublist (sort records) := by
    refine List.sublist_mergeSort ?_ isLE_total alike List.filter_sublist
    intro a b c
    exact isLE_trans
  have within := kept.filter fun r => r.identity = i
  rw [List.filter_filter] at within
  simp only [Bool.and_self] at within
  exact (within.eq_of_length ((sort_perm records).filter _).length_eq.symm).symm

theorem isStableSort_sort (records : List ReportRecord) : IsStableSort records (sort records) :=
  ⟨sort_perm records, ordered_sort records, fun i => filter_sort i records⟩

/-- The first of some records in order, among which there is another one, does not come after
it. -/
theorem compare_head_ne_gt {r q : ReportRecord} {rest : List ReportRecord}
    (ordered : (r :: rest).Pairwise fun a b => a.compare b ≠ .gt) (hq : q ∈ r :: rest) :
    r.compare q ≠ .gt := by
  rcases List.mem_cons.mp hq with rfl | hq
  · rw [compare_eq_iff.mpr rfl]
    exact nofun
  · exact List.rel_of_pairwise_cons ordered hq

theorem mem_iff_of_filter_eq
    (same : ∀ i, sorted.filter (fun r => r.identity = i) = sorted'.filter fun r => r.identity = i)
    (r : ReportRecord) : r ∈ sorted ↔ r ∈ sorted' := by
  have mem : r ∈ sorted.filter (fun q => q.identity = r.identity) ↔
      r ∈ sorted'.filter fun q => q.identity = r.identity := by rw [same]
  simpa using mem

/-- Records in order are determined by those of each identity. -/
theorem eq_of_filter_eq (ordered : sorted.Pairwise fun a b => a.compare b ≠ .gt)
    (ordered' : sorted'.Pairwise fun a b => a.compare b ≠ .gt)
    (same : ∀ i, sorted.filter (fun r => r.identity = i) = sorted'.filter fun r => r.identity = i) :
    sorted = sorted' := by
  have mem_iff := mem_iff_of_filter_eq same
  induction sorted generalizing sorted' with
  | nil =>
      cases sorted' with
      | nil => rfl
      | cons r' rest' => exact absurd ((mem_iff r').mpr List.mem_cons_self) List.not_mem_nil
  | cons r rest ih =>
      cases sorted' with
      | nil => exact absurd ((mem_iff r).mp List.mem_cons_self) List.not_mem_nil
      | cons r' rest' =>
          -- Neither of the two first records comes after the other, as each is in both lists.
          have alike : r.identity = r'.identity := by
            have le := compare_head_ne_gt ordered ((mem_iff r').mpr List.mem_cons_self)
            have ge := compare_head_ne_gt ordered' ((mem_iff r).mp List.mem_cons_self)
            rw [compare_swap r' r] at ge
            rw [← compare_eq_iff]
            cases hcompare : r.compare r' with
            | lt => exact absurd (congrArg Ordering.swap hcompare) ge
            | eq => rfl
            | gt => exact absurd hcompare le
          have first := same r.identity
          rw [List.filter_cons_of_pos (by simp), List.filter_cons_of_pos (by simp [alike])] at first
          obtain ⟨rfl, -⟩ := List.cons.inj first
          have others : ∀ i, rest.filter (fun r => r.identity = i) =
              rest'.filter fun r => r.identity = i := by
            intro i
            have whole := same i
            rw [List.filter_cons, List.filter_cons] at whole
            split at whole
            · exact (List.cons.inj whole).2
            · exact whole
          rw [ih ordered.of_cons ordered'.of_cons others (mem_iff_of_filter_eq others)]

/-- Given records have one stable sort. -/
theorem IsStableSort.unique (h : IsStableSort records sorted)
    (h' : IsStableSort records sorted') : sorted = sorted' :=
  eq_of_filter_eq h.ordered h'.ordered fun i => (h.stable i).trans (h'.stable i).symm

/-- Records are ordered linearly by what they count for, with names in the order of their bytes,
which is that of their characters; and sorting yields the stable sort by this order. -/
theorem records_linearlyOrdered :
    (∀ a b : ReportRecord, a.ComparesLinearly b) ∧
      (∀ s t : String, Ord.compare (Text.utf8 s) (Text.utf8 t) =
        Ord.compare (Text.scalars s) (Text.scalars t)) ∧
      ∀ records, IsStableSort records (sort records) ∧
        ∀ sorted, IsStableSort records sorted → sorted = sort records := by
  refine ⟨comparesLinearly, Text.compare_utf8, fun records => ?_⟩
  have stable := isStableSort_sort records
  exact ⟨stable, fun sorted h => h.unique stable⟩

/-- Traffic on an interface whose name is one character. -/
def recordOf (character : Char) (bytes : Int64) : ReportRecord :=
  ⟨character.toString, 10, .default, 0, ⟨bytes, 0, 0, 0⟩⟩

/-- The names of these records have two, three and four bytes. They are in the order of their
characters, and those of one name stay as they are. -/
theorem records_linearlyOrdered_twoToFourBytes :
    (recordOf 'é' 1).compare (recordOf '～' 2) = .lt ∧
      (recordOf '～' 2).compare (recordOf '😀' 3) = .lt ∧
      (recordOf 'é' 1).compare (recordOf '😀' 3) = .lt ∧
      IsStableSort [recordOf '😀' 3, recordOf '～' 5, recordOf 'é' 1, recordOf '～' 2]
        [recordOf 'é' 1, recordOf '～' 5, recordOf '～' 2, recordOf '😀' 3] ∧
      sort [recordOf '😀' 3, recordOf '～' 5, recordOf 'é' 1, recordOf '～' 2] =
        [recordOf 'é' 1, recordOf '～' 5, recordOf '～' 2, recordOf '😀' 3] := by
  obtain ⟨linear, -, sorts⟩ := records_linearlyOrdered
  have first : (recordOf 'é' 1).compare (recordOf '～' 2) = .lt := by decide +kernel
  have second : (recordOf '～' 2).compare (recordOf '😀' 3) = .lt := by decide +kernel
  have sorted : IsStableSort [recordOf '😀' 3, recordOf '～' 5, recordOf 'é' 1, recordOf '～' 2]
      [recordOf 'é' 1, recordOf '～' 5, recordOf '～' 2, recordOf '😀' 3] := by
    refine ⟨by decide +kernel, by decide +kernel, fun i => ?_⟩
    have alike : (recordOf '～' 5).identity = (recordOf '～' 2).identity := rfl
    have differ : (recordOf 'é' 1).identity ≠ (recordOf '～' 2).identity := by decide +kernel
    have differ' : (recordOf '～' 2).identity ≠ (recordOf '😀' 3).identity := by decide +kernel
    have differ'' : (recordOf 'é' 1).identity ≠ (recordOf '😀' 3).identity := by decide +kernel
    by_cases small : (recordOf 'é' 1).identity = i
    · subst small
      simp [alike, differ.symm, differ''.symm]
    · by_cases large : (recordOf '😀' 3).identity = i
      · subst large
        simp [alike, differ', differ'']
      · simp [List.filter_cons, small, large]
  exact ⟨first, second, (linear _ _).trans _ first second, sorted, ((sorts _).2 _ sorted).symm⟩

end Report

end TrafficStats
