import TrafficStats.Proofs.Kernel.Walk

/-!
# A kernel that answers every call

A kernel is untroubled if at none of the events that are still to happen a call is refused or
a map changed. It answers every call from its maps and is untroubled afterwards. A walk
through one of its maps visits each key once, in the order in which the map has them: this is
`ensures_walk`.
-/

namespace TrafficStats

open Query

variable {α : Type}

/-- At this event the call is answered, and no map is changed. -/
structure KernelEvent.Harmless (e : KernelEvent) : Prop where
  refusal : e.refusal = none
  changes : e.changes = []

namespace Kernel

/-- The kernel has the given maps, and answers every call about them. -/
structure Untroubled (maps : List KernelMap) (k : Kernel) : Prop where
  maps : k.maps = maps
  harmless : ∀ e ∈ k.events, e.Harmless

variable {maps : List KernelMap} {k : Kernel}

/-- That is, its maps are unchanged, and no event refuses a call. -/
theorem untroubled_eq : Untroubled maps = Unchanged (fun e => e.refusal = none) maps := by
  funext k
  apply propext
  constructor
  · intro h
    exact ⟨h.maps, fun e he => (h.harmless e he).changes, fun e he => (h.harmless e he).refusal⟩
  · intro h
    exact ⟨h.maps, fun e he => ⟨h.events e he, h.changes e he⟩⟩

theorem Untroubled.unchanged (h : Untroubled maps k) :
    Unchanged (fun e => e.refusal = none) maps k :=
  untroubled_eq ▸ h

theorem lasting_unrefused : KernelEvent.Lasting fun e => e.refusal = none :=
  fun _ _ answered => answered

theorem Untroubled.call_eq (h : Untroubled maps k) (path : String) (kind : KernelCall)
    (answer : Kernel → Except Refusal α × Kernel) :
    ∃ k', Untroubled maps k' ∧ call path kind answer k = answer k' := by
  have answered : k.refusalAt path kind 0 = none :=
    h.unchanged.refusalAt_eq_none (fun _ unrefused _ _ => unrefused) 0
  refine ⟨(k.before path kind).2, ?_, ?_⟩
  · rw [untroubled_eq]
    exact h.unchanged.before lasting_unrefused path kind
  · rw [Kernel.call_eq, answered]

variable {path : String} {map : KernelMap}

/-- A walk fetches all rows of a map in their order. -/
theorem ensures_walk (pinned : maps.find? (fun m => m.path = path) = some map)
    (nodup : (map.rows.map Prod.fst).Nodup) :
    Ensures (Untroubled maps) (onTables (walk path)) (· = .ok (map.rows.map .ok)) := by
  rw [untroubled_eq]
  apply ensures_walk_of lasting_unrefused pinned nodup
  intro k h
  have answered : ∀ call n, k.refusalAt path call n = none := by
    intro call n
    exact h.refusalAt_eq_none (fun _ unrefused _ _ => unrefused) n
  have all : itemsOf (k.refusalAt path .nextKey) (k.refusalAt path .lookup) map.rows =
      map.rows.map .ok := by
    rw [itemsOf_eq_filterMap (answered _) fun n row _ => answered .lookup n,
      ← List.filterMap_eq_map]
    rfl
  rw [all]
  cases map.rows <;> rfl

end Kernel

end TrafficStats
