import Mathlib.Order.Defs.PartialOrder
import TrafficStats.Proofs.Counters.Sums

/-!
# Counters in exact numbers

What holds of each of the four counters is stated over `fields`. The counters of a report come
from raw ones, which are cut off at the end of the signed range, so that none of them is negative.
A counter of a sum is the exact sum, brought back into the signed range (`IsReduced`). Nothing else
can be said of a sum that is beyond it, but one within it is exact, even where the sum of the first
terms is not.
-/

namespace TrafficStats

namespace RawCounters

instance : Preorder RawCounters where
  le a b := a.rxBytes ≤ b.rxBytes ∧ a.rxPackets ≤ b.rxPackets ∧ a.txBytes ≤ b.txBytes ∧
    a.txPackets ≤ b.txPackets
  le_refl _ := ⟨UInt64.le_refl _, UInt64.le_refl _, UInt64.le_refl _, UInt64.le_refl _⟩
  le_trans _ _ _ h h' := ⟨UInt64.le_trans h.1 h'.1, UInt64.le_trans h.2.1 h'.2.1,
    UInt64.le_trans h.2.2.1 h'.2.2.1, UInt64.le_trans h.2.2.2 h'.2.2.2⟩

instance (a b : RawCounters) : Decidable (a ≤ b) :=
  inferInstanceAs (Decidable (_ ∧ _ ∧ _ ∧ _))

end RawCounters

theorem toInt_clamp_nonneg (raw : UInt64) : 0 ≤ (clamp raw).toInt := by
  rw [toInt_clamp]
  omega

theorem toInt_clamp_mono {raw raw' : UInt64} (h : raw ≤ raw') :
    (clamp raw).toInt ≤ (clamp raw').toInt := by
  have exact : raw.toNat ≤ raw'.toNat := UInt64.le_iff_toNat_le.mp h
  rw [toInt_clamp, toInt_clamp]
  omega

namespace Counters

def fields : List (Counters → Int64) := [rxBytes, rxPackets, txBytes, txPackets]

/-- What all four counters have in common. -/
structure IsField (counter : Counters → Int64) : Prop where
  zero : counter 0 = 0
  add : ∀ a b, counter (a + b) = counter a + counter b
  nonneg : ∀ raw : RawCounters, 0 ≤ (counter raw.clamped).toInt
  mono : ∀ raw raw' : RawCounters, raw ≤ raw' →
    (counter raw.clamped).toInt ≤ (counter raw'.clamped).toInt

theorem isField_of_mem {counter : Counters → Int64} (h : counter ∈ fields) :
    IsField counter := by
  simp only [fields, List.mem_cons, List.not_mem_nil, or_false] at h
  rcases h with rfl | rfl | rfl | rfl
  · exact ⟨rfl, fun _ _ => rfl, fun _ => toInt_clamp_nonneg _,
      fun _ _ le => toInt_clamp_mono le.1⟩
  · exact ⟨rfl, fun _ _ => rfl, fun _ => toInt_clamp_nonneg _,
      fun _ _ le => toInt_clamp_mono le.2.1⟩
  · exact ⟨rfl, fun _ _ => rfl, fun _ => toInt_clamp_nonneg _,
      fun _ _ le => toInt_clamp_mono le.2.2.1⟩
  · exact ⟨rfl, fun _ _ => rfl, fun _ => toInt_clamp_nonneg _,
      fun _ _ le => toInt_clamp_mono le.2.2.2⟩

variable {counter : Counters → Int64}

/-- `x` is `n`, brought into the signed range by a multiple of 2 to the power of 64. -/
structure IsReduced (n x : Int) : Prop where
  lower : -0x8000000000000000 ≤ x
  upper : x ≤ 0x7FFFFFFFFFFFFFFF
  multiple : ∃ k, n = x + 0x10000000000000000 * k

theorem IsReduced.eq_of_inRange {n x : Int} (h : IsReduced n x) (lower : -0x8000000000000000 ≤ n)
    (upper : n ≤ 0x7FFFFFFFFFFFFFFF) : x = n := by
  have lower' := h.lower
  have upper' := h.upper
  obtain ⟨k, multiple⟩ := h.multiple
  omega

namespace IsField

theorem isReduced_sum (isField : IsField counter) (items : List Counters) :
    IsReduced (exactSum counter items) (counter (sum items)).toInt := by
  refine ⟨Int64.le_toInt _, Int.le_of_lt_add_one (Int64.toInt_lt _),
    (exactSum counter items).bdiv 0x10000000000000000, ?_⟩
  rw [toInt_sum counter isField.zero isField.add]
  exact (Int.bmod_add_bdiv _ _).symm

/-- A sum that is in the signed range does not wrap. -/
theorem toInt_sum_eq_exactSum (isField : IsField counter) {items : List Counters}
    (lower : -0x8000000000000000 ≤ exactSum counter items)
    (upper : exactSum counter items ≤ 0x7FFFFFFFFFFFFFFF) :
    (counter (sum items)).toInt = exactSum counter items :=
  (isField.isReduced_sum items).eq_of_inRange lower upper

end IsField

/-- What the sum of some counters is. -/
structure SumsExactly (items : List Counters) : Prop where
  reduced : ∀ counter ∈ fields,
    IsReduced (exactSum counter items) (counter (sum items)).toInt
  -- An exact sum in the signed range is not reduced, whichever terms come first.
  inRange : ∀ counter ∈ fields, -0x8000000000000000 ≤ exactSum counter items →
    exactSum counter items ≤ 0x7FFFFFFFFFFFFFFF →
      (counter (sum items)).toInt = exactSum counter items
  perm : ∀ items', items.Perm items' → sum items' = sum items
  append : ∀ more, sum (items ++ more) = sum items + sum more

/-- The counters are the raw ones, cut off at the end of the signed range. -/
structure IsClamped (raw : RawCounters) (c : Counters) : Prop where
  rxBytes : c.rxBytes.toInt = min raw.rxBytes.toNat 0x7FFFFFFFFFFFFFFF
  rxPackets : c.rxPackets.toInt = min raw.rxPackets.toNat 0x7FFFFFFFFFFFFFFF
  txBytes : c.txBytes.toInt = min raw.txBytes.toNat 0x7FFFFFFFFFFFFFFF
  txPackets : c.txPackets.toInt = min raw.txPackets.toNat 0x7FFFFFFFFFFFFFFF
  nonneg : ∀ counter ∈ fields, 0 ≤ (counter c).toInt
  totalBytes : c.totalBytes.toInt = min (c.rxBytes.toInt + c.txBytes.toInt) 0x7FFFFFFFFFFFFFFF

theorem sumsExactly (items : List Counters) : SumsExactly items where
  reduced _ h := (isField_of_mem h).isReduced_sum items
  inRange _ h := (isField_of_mem h).toInt_sum_eq_exactSum
  perm _ h := (sum_perm h).symm
  append := sum_append items

theorem isClamped_clamped (raw : RawCounters) : IsClamped raw raw.clamped := by
  refine ⟨toInt_clamp _, toInt_clamp _, toInt_clamp _, toInt_clamp _, ?_, ?_⟩
  · intro counter h
    exact (isField_of_mem h).nonneg raw
  · have rx : 0 ≤ raw.clamped.rxBytes.toInt := toInt_clamp_nonneg raw.rxBytes
    have tx : 0 ≤ raw.clamped.txBytes.toInt := toInt_clamp_nonneg raw.txBytes
    rw [Counters.totalBytes, toInt_saturatingAdd]
    omega

/-- Sums of counters are exact up to multiples of 2 to the power of 64, in any order of their
terms, and the counters of a row are its raw ones up to the end of the signed range. -/
theorem counters_sumExactly :
    (∀ items, SumsExactly items) ∧ ∀ raw : RawCounters, IsClamped raw raw.clamped :=
  ⟨sumsExactly, isClamped_clamped⟩

/-- The first two of these terms exceed the signed range together, all three do not. -/
def passingTerms : List Counters :=
  [⟨0x7FFFFFFFFFFFFFFF, 1, 0, 0⟩, ⟨1, 1, 0, 0⟩, ⟨-2, 1, 0, 0⟩]

/-- The sum wraps on its way and is exact at its end, in either order; and raw counters at the
ends of their range are cut off. -/
theorem counters_sumExactly_passingTerms :
    (sum (passingTerms.take 2)).rxBytes.toInt = -0x8000000000000000 ∧
      (sum passingTerms).rxBytes.toInt = 0x7FFFFFFFFFFFFFFE ∧
      sum passingTerms.reverse = sum passingTerms ∧
      IsClamped ⟨0xFFFFFFFFFFFFFFFF, 3, 0, 5⟩
        (RawCounters.clamped ⟨0xFFFFFFFFFFFFFFFF, 3, 0, 5⟩) := by
  obtain ⟨sums, clamps⟩ := counters_sumExactly
  have exact := (sums passingTerms).inRange rxBytes (by simp [fields]) (by decide) (by decide)
  have reversed := (sums passingTerms).perm _ (List.reverse_perm passingTerms).symm
  exact ⟨by decide, exact.trans (by decide), reversed, clamps _⟩

end Counters

end TrafficStats
