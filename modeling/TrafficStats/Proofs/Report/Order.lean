import TrafficStats.Report.Record

/-!
# The order of records

Identities are compared by the bytes of the interface name and then by numbers, one part
after the other. That makes a linear order: identities that compare as equal are equal.
Records inherit it, but for their counters, so a list of records that increases strictly
has each identity once, and is determined by the records in it.
-/

namespace TrafficStats

namespace Identity

theorem compare_eq_compareLex :
    compare = compareLex (compareOn fun i => Text.utf8 i.iface)
      (compareLex (compareOn fun i => i.uid.toNat)
        (compareLex (compareOn fun i => i.set.rank) (compareOn fun i => i.tag.toNat))) := rfl

instance : Std.TransCmp compare := by
  rw [compare_eq_compareLex]
  infer_instance

theorem eq_of_compare_eq {a b : Identity} (h : a.compare b = .eq) : a = b := by
  simp only [compare, Ordering.then_eq_eq, Std.LawfulEqOrd.compare_eq_iff_eq] at h
  obtain ⟨iface, uid, set, tag⟩ := h
  cases a
  cases b
  rw [mk.injEq]
  exact ⟨Text.utf8_injective iface, UInt32.toNat_inj.mp uid, TrafficSet.rank_injective set,
    UInt32.toNat_inj.mp tag⟩

instance : Std.LawfulEqCmp compare where
  compare_self := Std.ReflCmp.compare_self
  eq_of_compare := eq_of_compare_eq

end Identity

namespace ReportRecord

theorem compare_swap (a b : ReportRecord) : a.compare b = (b.compare a).swap := by
  change a.identity.compare b.identity = (b.identity.compare a.identity).swap
  exact Std.OrientedCmp.eq_swap

theorem isLE_trans {a b c : ReportRecord} (hab : (a.compare b).isLE = true)
    (hbc : (b.compare c).isLE = true) : (a.compare c).isLE = true := by
  change (a.identity.compare b.identity).isLE = true at hab
  change (b.identity.compare c.identity).isLE = true at hbc
  change (a.identity.compare c.identity).isLE = true
  exact Std.TransCmp.isLE_trans hab hbc

theorem isLE_total (a b : ReportRecord) : ((a.compare b).isLE || (b.compare a).isLE) = true := by
  rw [compare_swap b a]
  cases a.compare b <;> rfl

instance : Std.TransCmp compare where
  eq_swap := compare_swap _ _
  isLE_trans := isLE_trans

/-- Records compare as equal exactly if they count for the same. -/
theorem compare_eq_iff {a b : ReportRecord} :
    a.compare b = .eq ↔ a.identity = b.identity := by
  change a.identity.compare b.identity = .eq ↔ _
  exact Std.LawfulEqCmp.compare_eq_iff_eq

theorem eq_of_identity_eq {a b : ReportRecord} (same : a.identity = b.identity)
    (counters : a.counters = b.counters) : a = b := by
  cases a
  cases b
  cases same
  cases counters
  rfl

theorem identity_ne_of_compare {a b : ReportRecord} (h : a.compare b = .lt) :
    a.identity ≠ b.identity := by
  intro same
  rw [compare_eq_iff.mpr same] at h
  cases h

end ReportRecord

namespace Report

def Increasing (records : List ReportRecord) : Prop :=
  records.Pairwise fun a b => a.compare b = .lt

namespace Increasing

variable {records records' : List ReportRecord}

theorem pairwise_identity_ne (h : Increasing records) :
    records.Pairwise fun a b => a.identity ≠ b.identity :=
  h.imp ReportRecord.identity_ne_of_compare

/-- Records that increase are determined by which ones there are. -/
theorem ext (h : Increasing records) (h' : Increasing records')
    (same : ∀ r, r ∈ records ↔ r ∈ records') : records = records' := by
  have nodup : ∀ {l : List ReportRecord}, Increasing l → l.Nodup := by
    intro l hl
    exact hl.pairwise_identity_ne.imp fun differ eq => differ (congrArg _ eq)
  have perm := (List.perm_ext_iff_of_nodup (nodup h) (nodup h')).mpr same
  refine perm.eq_of_pairwise ?_ h h'
  intro a b _ _ less more
  exact absurd more (Std.OrientedCmp.not_lt_of_lt less)

/-- Only the record itself has its identity. -/
theorem filter_identity (h : Increasing records) {r : ReportRecord} (hr : r ∈ records) :
    records.filter (fun q => q.identity = r.identity) = [r] := by
  obtain ⟨front, back, rfl⟩ := List.append_of_mem hr
  have differ := h.pairwise_identity_ne
  rw [List.pairwise_append, List.pairwise_cons] at differ
  obtain ⟨-, ⟨later, -⟩, earlier⟩ := differ
  have none_before : front.filter (fun q => q.identity = r.identity) = [] := by
    rw [List.filter_eq_nil_iff]
    intro q hq
    simpa using earlier q hq r List.mem_cons_self
  have none_after : back.filter (fun q => q.identity = r.identity) = [] := by
    rw [List.filter_eq_nil_iff]
    intro q hq
    simpa using (later q hq).symm
  rw [List.filter_append, none_before, List.filter_cons_of_pos (by simp), none_after]
  rfl

end Increasing

end Report

end TrafficStats
