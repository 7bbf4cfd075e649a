import Mathlib.Data.List.Basic
import TrafficStats.Kernel.Pinned

/-!
# How the calls to come are refused

The events of a kernel settle beforehand how every later call is refused: `refusalAt` tells
it of the calls of each kind on each path, counted from now on. A call is refused as told of
the first one, and leaves the others one nearer; calls of another kind or on another path
leave them where they are. What an event does is not changed by waiting for it, so whatever
holds of all events to come holds after every call.
-/

namespace TrafficStats

/-! ### Events -/

namespace KernelEvent

/-- The refusals, among the events, of the call of a kind on a path that so many calls of the
kind come before. -/
def refusalsAt (path : String) (call : KernelCall) (n : Nat) (events : List KernelEvent) :
    List Refusal :=
  events.filterMap fun e =>
    if e.path = path ∧ e.call = call ∧ e.countdown = n + 1 then e.refusal else none

/-- What a call leaves of an event: nothing of one that is due. -/
def waited? (path : String) (call : KernelCall) (e : KernelEvent) : Option KernelEvent :=
  if e.path = path ∧ e.call = call then
    if e.countdown = 1 then none else some { e with countdown := e.countdown - 1 }
  else some e

variable (path : String) (call : KernelCall) (events : List KernelEvent)

theorem divide_eq :
    divide path call events =
      (events.filter fun e => e.path = path ∧ e.call = call ∧ e.countdown = 1,
        events.filterMap (waited? path call)) := by
  induction events with
  | nil => rfl
  | cons e events ih =>
      rw [divide, ih]
      by_cases here : e.path = path ∧ e.call = call
      · by_cases due : e.countdown = 1
        · simp [waited?, here, due]
        · simp [waited?, here, due]
      · have undue : ¬ (e.path = path ∧ e.call = call ∧ e.countdown = 1) :=
          fun now => here ⟨now.1, now.2.1⟩
        simp [waited?, here, undue]

theorem filterMap_refusal_due :
    (divide path call events).1.filterMap refusal = refusalsAt path call 0 events := by
  rw [divide_eq, List.filterMap_filter]
  simp only [decide_eq_true_eq]
  rfl

theorem refusalsAt_waiting (n : Nat) :
    refusalsAt path call n (divide path call events).2 = refusalsAt path call (n + 1) events := by
  rw [divide_eq, refusalsAt, refusalsAt, List.filterMap_filterMap]
  apply List.filterMap_congr
  intro e _
  by_cases here : e.path = path ∧ e.call = call
  · by_cases due : e.countdown = 1
    · simp [waited?, here, due]
    · have nearer : e.countdown - 1 = n + 1 ↔ e.countdown = n + 1 + 1 := by omega
      simp [waited?, here, due, nearer]
  · have other : ∀ m, ¬ (e.path = path ∧ e.call = call ∧ e.countdown = m) :=
      fun m now => here ⟨now.1, now.2.1⟩
    simp [waited?, here, other]

theorem refusalsAt_other {path' : String} {call' : KernelCall}
    (other : ¬ (path' = path ∧ call' = call)) (n : Nat) :
    refusalsAt path' call' n (divide path call events).2 = refusalsAt path' call' n events := by
  rw [divide_eq, refusalsAt, refusalsAt, List.filterMap_filterMap]
  apply List.filterMap_congr
  intro e _
  by_cases here : e.path = path ∧ e.call = call
  · have unmet : ∀ m, ¬ (e.path = path' ∧ e.call = call' ∧ m = n + 1) := by
      rintro m ⟨rfl, rfl, -⟩
      exact other here
    by_cases due : e.countdown = 1
    · rw [waited?, if_pos here, if_pos due, if_neg (unmet _)]
      rfl
    · rw [waited?, if_pos here, if_neg due, if_neg (unmet _), Option.bind_some, if_neg (unmet _)]
  · rw [waited?, if_neg here]
    rfl

/-- What does not depend on how long an event still waits. -/
def Lasting (Q : KernelEvent → Prop) : Prop :=
  ∀ e n, Q e → Q { e with countdown := n }

/-- Waiting does not change what an event does. -/
theorem forall_divide {events : List KernelEvent} {Q : KernelEvent → Prop} (lasting : Lasting Q)
    (h : ∀ e ∈ events, Q e) :
    (∀ e ∈ (divide path call events).1, Q e) ∧ ∀ e ∈ (divide path call events).2, Q e := by
  rw [divide_eq]
  constructor
  · intro e he
    exact h e (List.mem_filter.mp he).1
  · intro e he
    obtain ⟨before, hbefore, left⟩ := List.mem_filterMap.mp he
    unfold waited? at left
    split at left
    · split at left
      · cases left
      · cases left
        exact lasting before _ (h before hbefore)
    · cases left
      exact h e hbefore

/-- Events that refuse the calls of a kind on a path as listed, from the call on that so many
come before. -/
def schedule (path : String) (call : KernelCall) : Nat → List (Option Refusal) → List KernelEvent
  | _, [] => []
  | passed, refusal :: later =>
    ⟨path, call, passed + 1, refusal, [], false⟩ :: schedule path call (passed + 1) later

theorem mem_schedule {passed : Nat} {refusals : List (Option Refusal)} {e : KernelEvent}
    (h : e ∈ schedule path call passed refusals) :
    e.path = path ∧ e.call = call ∧ passed < e.countdown ∧ e.changes = [] := by
  induction refusals generalizing passed with
  | nil => cases h
  | cons refusal later ih =>
      obtain rfl | h := List.mem_cons.mp h
      · exact ⟨rfl, rfl, Nat.lt_succ_self passed, rfl⟩
      · obtain ⟨here, kind, further, unchanged⟩ := ih h
        exact ⟨here, kind, Nat.lt_of_succ_lt further, unchanged⟩

theorem refusalsAt_schedule (passed n : Nat) (refusals : List (Option Refusal)) :
    refusalsAt path call (passed + n) (schedule path call passed refusals) =
      refusals[n]?.join.toList := by
  induction refusals generalizing passed n with
  | nil => rfl
  | cons refusal later ih =>
      rw [schedule, refusalsAt, List.filterMap_cons]
      cases n with
      | zero =>
          have others :
              refusalsAt path call passed (schedule path call (passed + 1) later) = [] := by
            rw [refusalsAt, List.filterMap_eq_nil_iff]
            intro e he
            obtain ⟨-, -, further, -⟩ := mem_schedule path call he
            exact if_neg fun here => by omega
          rw [refusalsAt] at others
          simp only [Nat.add_zero, others]
          cases refusal <;> simp
      | succ n =>
          have further : passed + 1 + n = passed + (n + 1) := by omega
          have rest := ih (passed + 1) n
          rw [refusalsAt, further] at rest
          simp [rest]

theorem refusalsAt_schedule_other {path' : String} {call' : KernelCall} (other : call' ≠ call)
    (n : Nat) (refusals : List (Option Refusal)) :
    refusalsAt path' call' n (schedule path call 0 refusals) = [] := by
  rw [refusalsAt, List.filterMap_eq_nil_iff]
  intro e he
  obtain ⟨-, kind, -⟩ := mem_schedule path call he
  exact if_neg fun here => other (here.2.1.symm.trans kind)

end KernelEvent

/-! ### Calls -/

namespace Kernel

/-- How the call of a kind on a path is refused, if it is, that so many calls of the kind come
before. Of several refusals the last one counts. -/
def refusalAt (k : Kernel) (path : String) (call : KernelCall) (n : Nat) : Option Refusal :=
  (KernelEvent.refusalsAt path call n k.events).getLast?

theorem events_foldl_happen (k : Kernel) (events : List KernelEvent) :
    (events.foldl happen k).events = k.events := by
  induction events generalizing k with
  | nil => rfl
  | cons e events ih =>
      have alters : ∀ (changes : List (String × MapChange)) (k : Kernel),
          (changes.foldl (fun k change => k.alter change.1 change.2.apply) k).events =
            k.events := by
        intro changes
        induction changes with
        | nil => exact fun _ => rfl
        | cons change changes ih => exact fun k => ih _
      rw [List.foldl_cons, ih]
      exact alters e.changes k

theorem events_before (k : Kernel) (path : String) (call : KernelCall) :
    (k.before path call).2.events = (KernelEvent.divide path call k.events).2 :=
  events_foldl_happen _ _

theorem fst_before (k : Kernel) (path : String) (call : KernelCall) :
    (k.before path call).1 = k.refusalAt path call 0 := by
  rw [refusalAt, ← KernelEvent.filterMap_refusal_due]
  rfl

theorem refusalAt_before (k : Kernel) (path : String) (call : KernelCall) (n : Nat) :
    (k.before path call).2.refusalAt path call n = k.refusalAt path call (n + 1) := by
  rw [refusalAt, events_before, KernelEvent.refusalsAt_waiting]
  rfl

theorem refusalAt_before_other (k : Kernel) {path path' : String} {call call' : KernelCall}
    (other : ¬ (path' = path ∧ call' = call)) (n : Nat) :
    (k.before path call).2.refusalAt path' call' n = k.refusalAt path' call' n := by
  rw [refusalAt, events_before, KernelEvent.refusalsAt_other _ _ _ other]
  rfl

/-- Events at which nobody changes a map leave the maps as they are. -/
theorem maps_foldl_happen (k : Kernel) {events : List KernelEvent}
    (unchanged : ∀ e ∈ events, e.changes = []) : (events.foldl happen k).maps = k.maps := by
  induction events generalizing k with
  | nil => rfl
  | cons e events ih =>
      have same : (k.happen e).maps = k.maps := by
        rw [happen, unchanged e List.mem_cons_self]
        rfl
      rw [List.foldl_cons, ih _ fun e' he' => unchanged e' (List.mem_cons_of_mem _ he'), same]

/-- A call is refused, or answered by the kernel as it is then. -/
theorem call_eq {α : Type} (path : String) (kind : KernelCall)
    (answer : Kernel → Except Refusal α × Kernel) (k : Kernel) :
    call path kind answer k =
      match k.refusalAt path kind 0 with
      | some refusal => (.error refusal, (k.before path kind).2)
      | none => answer (k.before path kind).2 := by
  rw [call, ← fst_before]
  generalize k.before path kind = outcome
  obtain ⟨refusal, k'⟩ := outcome
  cases refusal <;> rfl

theorem call_ask {α : Type} (path : String) (kind : KernelCall)
    (ask : Kernel → Except Refusal α) (k : Kernel) :
    call path kind (fun k => (ask k, k)) k =
      (match k.refusalAt path kind 0 with
        | some refusal => .error refusal
        | none => ask (k.before path kind).2,
      (k.before path kind).2) := by
  rw [call_eq]
  cases k.refusalAt path kind 0 <;> rfl

/-- The maps of the kernel are as given, nobody changes them, and of all events to come `Q`
holds. -/
structure Unchanged (Q : KernelEvent → Prop) (maps : List KernelMap) (k : Kernel) : Prop where
  maps : k.maps = maps
  changes : ∀ e ∈ k.events, e.changes = []
  events : ∀ e ∈ k.events, Q e

namespace Unchanged

variable {Q : KernelEvent → Prop} {maps : List KernelMap} {k : Kernel}

/-- They are so after every call. -/
theorem before (h : Unchanged Q maps k) (lasting : KernelEvent.Lasting Q) (path : String)
    (call : KernelCall) : Unchanged Q maps (k.before path call).2 := by
  have idle : KernelEvent.Lasting fun e => e.changes = [] := fun _ _ unchanged => unchanged
  obtain ⟨due, waiting⟩ := KernelEvent.forall_divide path call idle h.changes
  obtain ⟨-, events⟩ := KernelEvent.forall_divide path call lasting h.events
  refine ⟨(maps_foldl_happen _ due).trans h.maps, ?_, ?_⟩
  · rw [events_before]
    exact waiting
  · rw [events_before]
    exact events

theorem map?_eq (h : Unchanged Q maps k) {path : String} {map : KernelMap}
    (pinned : maps.find? (fun m => m.path = path) = some map) : k.map? path = some map := by
  rw [map?, h.maps, pinned]

theorem rows_eq (h : Unchanged Q maps k) {path : String} {map : KernelMap}
    (pinned : maps.find? (fun m => m.path = path) = some map) : k.rows path = map.rows := by
  rw [rows, h.map?_eq pinned]

theorem refusalAt_ne (h : Unchanged Q maps k) {path : String} {call : KernelCall}
    {refusal : Refusal}
    (never : ∀ e, Q e → e.path = path → e.call = call → e.refusal ≠ some refusal) (n : Nat) :
    k.refusalAt path call n ≠ some refusal := by
  intro refused
  obtain ⟨e, he, holds⟩ := List.mem_filterMap.mp (List.mem_of_getLast? refused)
  split at holds
  · rename_i here
    exact never e (h.events e he) here.1 here.2.1 holds
  · cases holds

theorem refusalAt_eq_none (h : Unchanged Q maps k) {path : String} {call : KernelCall}
    (answered : ∀ e, Q e → e.path = path → e.call = call → e.refusal = none) (n : Nat) :
    k.refusalAt path call n = none := by
  rw [Option.eq_none_iff_forall_ne_some]
  intro refusal
  apply h.refusalAt_ne
  intro e he here kind
  rw [answered e he here kind]
  exact (Option.some_ne_none refusal).symm

end Unchanged

end Kernel

end TrafficStats
