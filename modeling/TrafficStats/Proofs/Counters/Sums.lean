import Mathlib.Algebra.BigOperators.Group.Finset.Piecewise
import Mathlib.Algebra.Ring.Int.Defs
import TrafficStats.Counters

/-!
# Sums of counters

Wrapping addition makes counters a commutative monoid: a sum depends neither on the order
of its terms nor on how they are put together. `isWrappedSum_iff` says what a sum is in
exact numbers, counter by counter, and `sum_map_eq_sum_fibers` splits a sum by a key of
its terms.
-/

namespace TrafficStats.Counters

instance : AddCommMonoid Counters where
  add_assoc := add_assoc
  zero_add := zero_add
  add_zero := add_zero
  add_comm := add_comm
  nsmul := nsmulRec

theorem sum_eq_sum (items : List Counters) : sum items = items.sum :=
  List.sum_eq_foldl.symm

@[simp] theorem sum_nil : sum [] = 0 := rfl

@[simp] theorem sum_cons (c : Counters) (items : List Counters) :
    sum (c :: items) = c + sum items := by
  rw [sum_eq_sum, sum_eq_sum, List.sum_cons]

theorem sum_append (items more : List Counters) :
    sum (items ++ more) = sum items + sum more := by
  rw [sum_eq_sum, sum_eq_sum, sum_eq_sum, List.sum_append]

theorem sum_perm {items items' : List Counters} (h : items.Perm items') :
    sum items = sum items' := by
  rw [sum_eq_sum, sum_eq_sum, h.sum_eq]

/-- The sum of one counter over a list, in exact numbers. -/
def exactSum (counter : Counters → Int64) (items : List Counters) : Int :=
  (items.map fun c => (counter c).toInt).sum

/-- Each of the four counters is the exact sum over a list, brought into the signed range by a
multiple of 2 to the power of 64. -/
structure IsWrappedSum (c : Counters) (items : List Counters) : Prop where
  rxBytes : c.rxBytes.toInt = (exactSum rxBytes items).bmod 0x10000000000000000
  rxPackets : c.rxPackets.toInt = (exactSum rxPackets items).bmod 0x10000000000000000
  txBytes : c.txBytes.toInt = (exactSum txBytes items).bmod 0x10000000000000000
  txPackets : c.txPackets.toInt = (exactSum txPackets items).bmod 0x10000000000000000

theorem toInt_sum (counter : Counters → Int64) (zero : counter 0 = 0)
    (add : ∀ a b, counter (a + b) = counter a + counter b) (items : List Counters) :
    (counter (sum items)).toInt = (exactSum counter items).bmod 0x10000000000000000 := by
  induction items with
  | nil =>
      rw [sum_nil, zero]
      rfl
  | cons c items ih =>
      have exact_cons : exactSum counter (c :: items) =
          (counter c).toInt + exactSum counter items := List.sum_cons
      rw [sum_cons, add, Int64.toInt_add, ih, exact_cons]
      exact Int.add_bmod_bmod

attribute [ext] Counters

theorem isWrappedSum_iff {c : Counters} {items : List Counters} :
    c.IsWrappedSum items ↔ c = sum items := by
  have rxBytes := toInt_sum rxBytes rfl (fun _ _ => rfl) items
  have rxPackets := toInt_sum rxPackets rfl (fun _ _ => rfl) items
  have txBytes := toInt_sum txBytes rfl (fun _ _ => rfl) items
  have txPackets := toInt_sum txPackets rfl (fun _ _ => rfl) items
  constructor
  · intro h
    apply Counters.ext
    · exact Int64.toInt_inj.mp (h.rxBytes.trans rxBytes.symm)
    · exact Int64.toInt_inj.mp (h.rxPackets.trans rxPackets.symm)
    · exact Int64.toInt_inj.mp (h.txBytes.trans txBytes.symm)
    · exact Int64.toInt_inj.mp (h.txPackets.trans txPackets.symm)
  · rintro rfl
    exact ⟨rxBytes, rxPackets, txBytes, txPackets⟩

/-- A sum is the sum of what is kept and of what is not. -/
theorem sum_map_filter_add {α : Type} (keep : α → Bool) (value : α → Counters)
    (items : List α) :
    sum ((items.filter keep).map value) + sum ((items.filter fun a => !keep a).map value) =
      sum (items.map value) := by
  rw [← sum_append, ← List.map_append]
  exact sum_perm ((List.filter_append_perm keep items).map value)

/-- A sum is the sum over the keys of its terms, of the sums of the terms of each key. -/
theorem sum_map_eq_sum_fibers {α β : Type} [DecidableEq β] (key : α → β)
    (value : α → Counters) {items : List α} {keys : Finset β}
    (covers : ∀ a ∈ items, key a ∈ keys) :
    sum (items.map value) = ∑ k ∈ keys, sum ((items.filter fun a => key a = k).map value) := by
  induction items with
  | nil => simp
  | cons a items ih =>
      have term : ∀ k, sum (((a :: items).filter fun a => key a = k).map value) =
          (if key a = k then value a else 0) +
            sum ((items.filter fun a => key a = k).map value) := by
        intro k
        by_cases here : key a = k <;> simp [here]
      rw [List.map_cons, sum_cons, ih fun b hb => covers b (List.mem_cons_of_mem a hb),
        Finset.sum_congr rfl fun k _ => term k, Finset.sum_add_distrib, Finset.sum_ite_eq,
        if_pos (covers a List.mem_cons_self)]

end TrafficStats.Counters
