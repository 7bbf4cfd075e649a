import TrafficStats.Proofs.Kernel.Holding

/-!
# Walks in which calls fail

In a walk through a map that nobody changes, a lookup that fails takes the place of its row,
and only of that. But the first item decides whether there is a walk at all, and it is all the same
which of the two calls failed: a single row that cannot be looked up hides the whole table if
all rows before it are skipped, and is a bad row among others anywhere else
(`iterate_eq_of_badRows`).
-/

namespace TrafficStats

open Query

namespace Pinned

open Kernel

variable {K V : Type} [Layout K] [Layout V] {path : String} {k : Kernel}
variable {refusal : K → Option Refusal} {order : List (K × V)}

/-- The kernel walks a map that nobody changes in the given order. It always tells the next
key, but refuses lookups of some keys. -/
structure RefusesKeys (path : String) (refusal : K → Option Refusal) (order : List (K × V))
    (k : Kernel) : Prop where
  pinned : ∃ map, k.map? path = some map ∧ map.rows = order.map encodeRow
  nodup : (order.map Prod.fst).Nodup
  unchanged : ∀ e ∈ k.events, e.changes = []
  nextKeys : ∀ n, k.refusalAt path .nextKey n = none
  lookups : ∀ n row, order[n]? = some row → k.refusalAt path .lookup n = refusal row.1

/-- What an enumeration delivers for a row when lookups of some keys are refused: in the place
of a row that cannot be looked up there is one that cannot be read. -/
def lookedUp? (refusal : K → Option Refusal) (r : K × V) : Option (RowResult K V) :=
  match refusal r.1 with
  | none => some (.ok r)
  | some .absent => none
  | some .failed => some (.error ⟨KernelCall.lookup.failure⟩)

/-- The first row that is not skipped cannot be looked up. -/
def FirstIsBad (refusal : K → Option Refusal) (order : List (K × V)) : Prop :=
  ∃ front bad later, order = front ++ bad :: later ∧
    (∀ r ∈ front, refusal r.1 = some .absent) ∧ refusal bad.1 = some .failed

/-- How an enumeration copes with rows that cannot be looked up: a first one hides the table,
and every other one is a single row that cannot be read, in its place among the others. -/
structure CopesWithBadRows (path : String) (refusal : K → Option Refusal) (order : List (K × V))
    (answer : Except StoreError (Cursor K V)) : Prop where
  hidden_iff : answer = .error (.walkFailed path .lookup) ↔ FirstIsBad refusal order
  shown : ¬ FirstIsBad refusal order → answer = .ok ((order.filterMap (lookedUp? refusal)).map .row)

/-- What the walk delivers for the rows. -/
theorem walk_eq_of_refusesKeys (h : RefusesKeys path refusal order k) :
    (walk path k).1 =
      started (order.filterMap fun r => itemOf? (refusal r.1) (encodeRow r)) := by
  obtain ⟨map, pinned, bytes⟩ := h.pinned
  have unchanged : Unchanged (fun _ => True) k.maps k := ⟨rfl, h.unchanged, fun _ _ => trivial⟩
  have nodup : (map.rows.map Prod.fst).Nodup := by
    rw [bytes]
    exact nodup_encodeRow h.nodup
  have refuses : ∀ n r, map.rows[n]? = some r →
      k.refusalAt path .lookup n = refusal (Layout.decode r.1) := by
    intro n r there
    rw [bytes, List.getElem?_map, Option.map_eq_some_iff] at there
    obtain ⟨row, there, rfl⟩ := there
    rw [h.lookups n row there, encodeRow, Layout.decode_encode]
  rw [walk_eq_itemsOf (fun _ _ _ => trivial) pinned nodup unchanged,
    itemsOf_eq_filterMap h.nextKeys refuses, bytes, List.filterMap_map]
  congr 2
  funext r
  rw [Function.comp_apply, encodeRow, Layout.decode_encode]

theorem itemOf?_map_row (refusal : K → Option Refusal) (r : K × V) :
    (itemOf? (refusal r.1) (encodeRow r)).map row = lookedUp? refusal r := by
  rw [lookedUp?]
  match refusal r.1 with
  | none => exact congrArg some (row_encodeRow r)
  | some .absent => rfl
  | some .failed => rfl

/-- A walk begins with a failure if the first row that is not skipped is bad. -/
theorem firstIsBad_iff :
    FirstIsBad refusal order ↔ ∃ call later,
      (order.filterMap fun r => itemOf? (refusal r.1) (encodeRow r)) = .error call :: later := by
  simp only [FirstIsBad, List.filterMap_eq_cons_iff, itemOf?_eq_none_iff, itemOf?_eq_error_iff]
  constructor
  · rintro ⟨front, bad, later, split, skipped, fails⟩
    exact ⟨_, _, front, bad, later, split, skipped, ⟨fails, rfl⟩, rfl⟩
  · rintro ⟨call, _, front, bad, later, split, skipped, ⟨fails, -⟩, -⟩
    exact ⟨front, bad, later, split, skipped, fails⟩

theorem iterate_eq_of_badRows (h : RefusesKeys path refusal order k) :
    CopesWithBadRows path refusal order (iterate path k).1 := by
  rw [iterate_eq, walk_eq_of_refusesKeys h]
  set items := order.filterMap fun r => itemOf? (refusal r.1) (encodeRow r) with hitems
  have delivered : items.map row = order.filterMap (lookedUp? refusal) := by
    rw [hitems, List.map_filterMap]
    exact List.filterMap_congr fun r _ => itemOf?_map_row refusal r
  obtain ⟨call, later, begins, failed⟩ | ⟨begins, walked⟩ := started_cases items
  · have bad : FirstIsBad refusal order := firstIsBad_iff.mpr ⟨call, later, begins⟩
    obtain ⟨r, -, item⟩ := List.mem_filterMap.mp (begins ▸ List.mem_cons_self : .error call ∈ items)
    obtain ⟨-, rfl⟩ := itemOf?_eq_error_iff.mp item
    rw [failed]
    exact ⟨iff_of_true rfl bad, fun fine => absurd bad fine⟩
  · have fine : ¬ FirstIsBad refusal order := by
      rintro bad
      obtain ⟨call, later, begins'⟩ := firstIsBad_iff.mp bad
      exact begins call later begins'
    rw [walked]
    refine ⟨iff_of_false (by simp [handed]) fine, fun _ => ?_⟩
    rw [← delivered]
    rfl

/-- A kernel with one hash map, in which lookups of some keys are refused. -/
def kernelRefusing (path : String) (refusal : K → Option Refusal) (order : List (K × V)) :
    Kernel where
  maps := [hashMap path order]
  events := KernelEvent.schedule path .lookup 0 (order.map fun r => refusal r.1)
  interrupted := false

/-- Lookups of any keys may be refused. -/
theorem refusesKeys_kernelRefusing (path : String) (refusal : K → Option Refusal)
    (nodup : (order.map Prod.fst).Nodup) :
    RefusesKeys path refusal order (kernelRefusing path refusal order) where
  pinned := by
    refine ⟨hashMap path order, ?_, rfl⟩
    simp [map?, kernelRefusing, hashMap]
  nodup := nodup
  unchanged e he := (KernelEvent.mem_schedule _ _ he).2.2.2
  nextKeys n := by
    rw [refusalAt, kernelRefusing, KernelEvent.refusalsAt_schedule_other _ _ (by simp)]
    rfl
  lookups n r there := by
    have listed := KernelEvent.refusalsAt_schedule path .lookup 0 n (order.map fun r => refusal r.1)
    rw [Nat.zero_add, List.getElem?_map, there, Option.map_some, Option.join_some] at listed
    rw [refusalAt, kernelRefusing, listed]
    cases refusal r.1 <;> rfl

/-- Three rows of a device table. -/
def threeRows : List (UInt32 × RawCounters) :=
  [(1, ⟨1, 1, 1, 1⟩), (2, ⟨2, 1, 2, 1⟩), (3, ⟨3, 1, 3, 1⟩)]

/-- Only the lookup of one key fails. -/
def failsFor (bad key : UInt32) : Option Refusal :=
  if key = bad then some .failed else none

/-- A bad row among others is one row that cannot be read; as the first it hides all others. -/
theorem iterate_eq_of_badRows_threeRows :
    (iterate (K := UInt32) (V := RawCounters) "/p/m"
        (kernelRefusing "/p/m" (failsFor 2) threeRows)).1 =
      .ok [.row (.ok (1, ⟨1, 1, 1, 1⟩)), .row (.error ⟨KernelCall.lookup.failure⟩),
        .row (.ok (3, ⟨3, 1, 3, 1⟩))] ∧
      (iterate (K := UInt32) (V := RawCounters) "/p/m"
        (kernelRefusing "/p/m" (failsFor 1) threeRows)).1 =
      .error (.walkFailed "/p/m" .lookup) := by
  have nodup : (threeRows.map Prod.fst).Nodup := by decide
  constructor
  · refine (iterate_eq_of_badRows (refusesKeys_kernelRefusing _ _ nodup)).shown ?_
    rintro ⟨front, bad, later, split, skipped, fails⟩
    cases front with
    | nil =>
        cases split
        cases fails
    | cons first front =>
        have absent := skipped first List.mem_cons_self
        rw [← (List.cons.inj split).1] at absent
        cases absent
  · refine (iterate_eq_of_badRows (refusesKeys_kernelRefusing _ _ nodup)).hidden_iff.mpr ?_
    exact ⟨[], _, _, rfl, by simp, rfl⟩

end Pinned

end TrafficStats
