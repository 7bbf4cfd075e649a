import Mathlib.Control.Monad.Basic
import Mathlib.Logic.ExistsUnique
import TrafficStats.Proofs.Shared.Walk
import TrafficStats.Store.Script

/-!
# Enumerations in any interleaving

Several enumerations of one table may be under way at once, and between their steps the table
may be changed in any way. `visits` picks the steps of one of them out of a run, each with the
table as it found it. `Visited` says how such steps use up the keys that the enumeration found
when it started; a run keeps to it whatever else happens (`exists_visited`). What an
enumeration promises, `Enumerates`, follows from `Visited` alone, by induction on the steps.
-/

namespace TrafficStats

variable {K V : Type} [Ranked K]

/-- A step of an enumeration: the table as it was, and what the step answered. -/
structure Visit (K V : Type) [Ranked K] where
  store : MemoryStore K V
  answer : Option (RowResult K V)

/-- The steps of an enumeration that has `keys` to visit, with the keys whose rows they give:
each step passes over keys that have no row and gives the row of the next one, or finds that
no key has a row any more. -/
inductive Visited : List K → List (Visit K V) → List K → Prop
  | start (keys : List K) : Visited keys [] []
  | found {skipped later given : List K} {k : K} {slot : Slot V} {store : MemoryStore K V}
      {visits : List (Visit K V)} (absent : ∀ x ∈ skipped, store.rows.get? x = none)
      (present : store.rows.get? k = some slot) (onward : Visited later visits given) :
      Visited (skipped ++ k :: later) (⟨store, some (slot.row k)⟩ :: visits) (k :: given)
  | ended {keys : List K} {store : MemoryStore K V} {visits : List (Visit K V)}
      (absent : ∀ x ∈ keys, store.rows.get? x = none) (onward : Visited [] visits []) :
      Visited keys (⟨store, none⟩ :: visits) []

/-- The step in which a key has its turn: the keys given before come before it, and the key
given by the step does not. The turn is no later than the end. -/
structure HasTurn (given : List K) (k : K) (i : Nat) : Prop where
  reached : i ≤ given.length
  before : ∀ x ∈ given.take i, rank x < rank k
  now : ∀ x, given[i]? = some x → rank k ≤ rank x

/-- The turn of a key that does not come first is its turn among the others. -/
theorem HasTurn.tail {k k' : K} {given : List K} {i : Nat}
    (h : HasTurn (k' :: given) k (i + 1)) : rank k' < rank k ∧ HasTurn given k i := by
  refine ⟨h.before k' List.mem_cons_self, Nat.le_of_succ_le_succ h.reached, ?_, h.now⟩
  intro x hx
  exact h.before x (List.mem_cons_of_mem _ hx)

/-- What an enumeration that found `keys` when it started promises of its steps, where `given`
are the keys whose rows they gave. -/
structure Enumerates (keys : List K) (visits : List (Visit K V)) (given : List K) : Prop where
  increasing : given.Pairwise fun a b => rank a < rank b
  opening : ∀ k ∈ given, k ∈ keys
  length_le : given.length ≤ visits.length
  -- Each step gives the row of one key, with what the key holds at that moment.
  row : ∀ (i : Nat) v k, visits[i]? = some v → given[i]? = some k →
    ∃ slot, v.store.rows.get? k = some slot ∧ v.answer = some (slot.row k)
  -- The steps after that find the end.
  ended : ∀ i v, visits[i]? = some v → given.length ≤ i → v.answer = none
  -- A key that has a row at its turn is given by that step.
  present : ∀ k ∈ keys, ∀ i v, visits[i]? = some v → HasTurn given k i →
    v.store.rows.get? k ≠ none → given[i]? = some k
  -- A key that has no row at its turn is skipped.
  skipped : ∀ k ∈ keys, ∀ i v, visits[i]? = some v → HasTurn given k i →
    v.store.rows.get? k = none → k ∉ given
  -- A key that has a row until the end is found is given once.
  once : ∀ k ∈ keys, given.length < visits.length →
    (∀ v ∈ visits.take (given.length + 1), v.store.rows.get? k ≠ none) →
    ∃! i : Nat, given[i]? = some k
  -- The end is found after one more step than there were keys, if not before.
  ends : ∀ i v, visits[i]? = some v → keys.length ≤ i → v.answer = none

namespace Visited

variable {keys given : List K} {visits : List (Visit K V)} {v : Visit K V} {k : K} {i : Nat}

theorem sublist (h : Visited keys visits given) : given.Sublist keys := by
  induction h with
  | start => exact List.nil_sublist _
  | @found skipped later given k _ _ _ _ _ _ ih =>
      exact (ih.cons_cons k).trans (List.sublist_append_right skipped (k :: later))
  | ended => exact List.nil_sublist _

theorem length_le (h : Visited keys visits given) : given.length ≤ visits.length := by
  induction h with
  | start => exact Nat.le_refl 0
  | found _ _ _ ih => exact Nat.succ_le_succ ih
  | ended => exact Nat.zero_le _

theorem row (h : Visited keys visits given) (hv : visits[i]? = some v) (hk : given[i]? = some k) :
    ∃ slot, v.store.rows.get? k = some slot ∧ v.answer = some (slot.row k) := by
  induction h generalizing i with
  | start => cases hv
  | found _ present _ ih =>
      cases i with
      | zero =>
          cases hv
          cases hk
          exact ⟨_, present, rfl⟩
      | succ i => exact ih hv hk
  | ended => cases hk

theorem answer_eq_none (h : Visited keys visits given) (hv : visits[i]? = some v)
    (past : given.length ≤ i) : v.answer = none := by
  induction h generalizing i with
  | start => cases hv
  | found _ _ _ ih =>
      cases i with
      | zero => cases past
      | succ i => exact ih hv (Nat.le_of_succ_le_succ past)
  | ended _ _ ih =>
      cases i with
      | zero =>
          cases hv
          rfl
      | succ i => exact ih hv (Nat.zero_le i)

/-- A key that has a row at every step is given before the end is found. -/
theorem mem_of_present (h : Visited keys visits given) (hk : k ∈ keys)
    (past : given.length < visits.length)
    (present : ∀ v ∈ visits.take (given.length + 1), v.store.rows.get? k ≠ none) : k ∈ given := by
  induction h with
  | start => cases past
  | @found skipped later given k' slot store visits absent _ _ ih =>
      have now := present _ List.mem_cons_self
      obtain hk | hk := List.mem_append.mp hk
      · exact absurd (absent k hk) now
      · obtain rfl | hk := List.mem_cons.mp hk
        · exact List.mem_cons_self
        · have later := ih hk (Nat.lt_of_succ_lt_succ past)
            fun v hv => present v (List.mem_cons_of_mem _ hv)
          exact List.mem_cons_of_mem _ later
  | ended absent =>
      have now := present _ List.mem_cons_self
      exact absurd (absent k hk) now

/-- At the turn of a key it is decided whether the key is given. -/
theorem of_hasTurn (h : Visited keys visits given)
    (sorted : keys.Pairwise fun a b => rank a < rank b) (hk : k ∈ keys)
    (hv : visits[i]? = some v) (turn : HasTurn given k i) :
    (v.store.rows.get? k ≠ none → given[i]? = some k) ∧
      (v.store.rows.get? k = none → k ∉ given) := by
  induction h generalizing i with
  | start => cases hv
  | @found skipped later given k' slot store visits absent present onward ih =>
      obtain ⟨-, sorted', between⟩ := List.pairwise_append.mp sorted
      obtain ⟨after, sortedLater⟩ := List.pairwise_cons.mp sorted'
      have apart (less : rank k < rank k') : k ∉ k' :: given := by
        intro mem
        obtain rfl | mem := List.mem_cons.mp mem
        · exact Nat.lt_irrefl _ less
        · exact Nat.lt_asymm less (after k (onward.sublist.subset mem))
      cases i with
      | zero =>
          cases hv
          have notLater := turn.now k' rfl
          obtain hk | hk := List.mem_append.mp hk
          · refine ⟨?_, fun _ => apart (between k hk k' List.mem_cons_self)⟩
            intro there
            exact absurd (absent k hk) there
          · obtain rfl | hk := List.mem_cons.mp hk
            · refine ⟨fun _ => rfl, ?_⟩
              intro gone
              rw [present] at gone
              cases gone
            · exact absurd (after k hk) (Nat.not_lt.mpr notLater)
      | succ i =>
          obtain ⟨less, turn'⟩ := turn.tail
          have hk' : k ∈ later := by
            obtain hk | hk := List.mem_append.mp hk
            · exact absurd (between k hk k' List.mem_cons_self) (Nat.lt_asymm less)
            · obtain rfl | hk := List.mem_cons.mp hk
              · exact absurd less (Nat.lt_irrefl _)
              · exact hk
          obtain ⟨givenNow, notGiven⟩ := ih sortedLater hk' hv turn'
          refine ⟨givenNow, ?_⟩
          intro gone mem
          obtain rfl | mem := List.mem_cons.mp mem
          · exact Nat.lt_irrefl _ less
          · exact notGiven gone mem
  | ended absent =>
      obtain rfl := Nat.le_zero.mp turn.reached
      cases hv
      refine ⟨?_, fun _ => List.not_mem_nil⟩
      intro there
      exact absurd (absent k hk) there

/-- Such steps keep what an enumeration promises. -/
theorem enumerates (h : Visited keys visits given)
    (sorted : keys.Pairwise fun a b => rank a < rank b) : Enumerates keys visits given := by
  have increasing := sorted.sublist h.sublist
  have once (k : K) (hk : k ∈ keys) (past : given.length < visits.length)
      (present : ∀ v ∈ visits.take (given.length + 1), v.store.rows.get? k ≠ none) :
      ∃! i : Nat, given[i]? = some k := by
    have nodup := nodup_of_increasing increasing
    obtain ⟨i, hi⟩ := List.mem_iff_getElem?.mp (h.mem_of_present hk past present)
    refine ⟨i, hi, ?_⟩
    intro j hj
    have inside : j < given.length := (List.getElem?_eq_some_iff.mp hj).1
    exact (List.getElem?_inj inside nodup).mp (hj.trans hi.symm)
  exact {
    increasing
    opening := fun k hk => h.sublist.subset hk
    length_le := h.length_le
    row := fun _ _ _ hv hk => h.row hv hk
    ended := fun _ _ hv past => h.answer_eq_none hv past
    present := fun _ hk _ _ hv turn => (h.of_hasTurn sorted hk hv turn).1
    skipped := fun _ hk _ _ hv turn => (h.of_hasTurn sorted hk hv turn).2
    once
    ends := fun _ _ hv past => h.answer_eq_none hv (Nat.le_trans h.sublist.length_le past) }

end Visited

namespace Script

theorem cursor_setCursor_self (s : Script K V) (name : String) (c : Cursor K V) :
    (s.setCursor name c).cursor name = c := by
  simp [cursor, setCursor]

theorem cursor_setCursor_of_ne (s : Script K V) {name other : String} (ne : name ≠ other)
    (c : Cursor K V) : (s.setCursor other c).cursor name = s.cursor name := by
  have differs : (name == other) = false := beq_eq_false_iff_ne.mpr ne
  have kept : (s.cursors.filter fun entry => entry.1 ≠ other).lookup name =
      s.cursors.lookup name := by
    induction s.cursors with
    | nil => rfl
    | cons entry rest ih =>
        by_cases removed : entry.1 = other
        · rw [List.filter_cons_of_neg (by simpa using removed), ih, List.lookup_cons, removed,
            differs]
        · rw [List.filter_cons_of_pos (by simpa using removed), List.lookup_cons,
            List.lookup_cons, ih]
  rw [cursor, setCursor, List.lookup_cons, differs, kept]
  rfl

def Step.starts (name : String) : Step K V → Bool
  | .start other => other = name
  | _ => false

def Answer.row? : Answer K V → Option (RowResult K V)
  | .row r => r
  | _ => none

/-- A step as a step of the named enumeration, if it is one. -/
def visit? (name : String) (s : Script K V) : Step K V → Option (Visit K V)
  | .next other => if other = name then some ⟨s.store, (s.step (.next other)).1.row?⟩ else none
  | _ => none

/-- The steps of the named enumeration in a run. -/
def visits (name : String) : Script K V → List (Step K V) → List (Visit K V)
  | _, [] => []
  | s, step :: steps => (visit? name s step).toList ++ visits name (s.step step).2 steps

/-- What a step of the named enumeration does to it. -/
theorem step_next (s : Script K V) (name : String) :
    s.step (.next name) =
      (.row ((s.store.next (s.cursor name)).map Prod.fst),
        s.setCursor name (((s.store.next (s.cursor name)).map Prod.snd).getD [])) := by
  rw [step]
  cases s.store.next (s.cursor name) with
  | none => rfl
  | some answer => rfl

theorem visit?_next (s : Script K V) (name : String) :
    visit? name s (.next name) =
      some ⟨s.store, (s.store.next (s.cursor name)).map Prod.fst⟩ := by
  rw [visit?, if_pos rfl, step_next]
  rfl

/-- All other steps leave an enumeration where it is, unless they start it anew. -/
theorem frame_step (s : Script K V) {name : String} {step : Step K V}
    (running : step.starts name = false) (other : step ≠ .next name) :
    visit? name s step = none ∧ (s.step step).2.cursor name = s.cursor name := by
  cases step with
  | next name' =>
      have ne : name ≠ name' := by
        rintro rfl
        exact other rfl
      rw [visit?, step_next]
      exact ⟨if_neg ne.symm, cursor_setCursor_of_ne s ne _⟩
  | start name' =>
      have ne : name ≠ name' := by
        rintro rfl
        simp [Step.starts] at running
      refine ⟨rfl, ?_⟩
      rw [Script.step]
      cases s.store.iterate with
      | error e => rfl
      | ok c => exact cursor_setCursor_of_ne s ne c
  | _ => exact ⟨rfl, rfl⟩

/-- Whatever happens between the steps of an enumeration, they use up its keys. -/
theorem exists_visited {name : String} {steps : List (Step K V)}
    (running : ∀ step ∈ steps, step.starts name = false) (s : Script K V) {keys : List K}
    (hcursor : s.cursor name = keys.map .key) :
    ∃ given, Visited keys (visits name s steps) given := by
  induction steps generalizing s keys with
  | nil => exact ⟨[], .start keys⟩
  | cons step steps ih =>
      have running' : ∀ step ∈ steps, step.starts name = false :=
        fun step h => running step (List.mem_cons_of_mem _ h)
      rw [visits]
      by_cases mine : step = .next name
      · subst mine
        rw [visit?_next, step_next, hcursor]
        cases hnext : s.store.next (keys.map .key) with
        | none =>
            have absent := Cursor.absent_of_next_eq_none hnext
            have atEnd : (s.setCursor name []).cursor name = ([] : List K).map .key :=
              cursor_setCursor_self s name []
            obtain ⟨given, onward⟩ := ih running' _ atEnd
            obtain rfl := List.sublist_nil.mp onward.sublist
            exact ⟨[], .ended absent onward⟩
        | some answer =>
            obtain ⟨r, rest⟩ := answer
            obtain ⟨skipped, k, slot, later, rfl, absent, present, rfl, rfl⟩ :=
              Cursor.exists_of_next_eq_some hnext
            obtain ⟨given, onward⟩ := ih running' _ (cursor_setCursor_self s name _)
            exact ⟨k :: given, .found absent present onward⟩
      · obtain ⟨unseen, unmoved⟩ := frame_step s (running step List.mem_cons_self) mine
        rw [unseen]
        exact ih running' _ (unmoved.trans hcursor)

/-- An enumeration that was started promises this of its steps, whatever else is done to the
table and however many other enumerations of it are under way. -/
theorem enumerates_of_start (s : Script K V) {name : String}
    (started : (s.step (.start name)).1 = .accepted (.ok ())) {steps : List (Step K V)}
    (running : ∀ step ∈ steps, step.starts name = false) :
    ∃ given, Enumerates s.store.rows.keys (visits name (s.step (.start name)).2 steps) given := by
  have opened : (s.step (.start name)).2.cursor name = s.store.rows.keys.map .key := by
    rw [step] at started ⊢
    cases hiterate : s.store.iterate with
    | error e =>
        rw [hiterate] at started
        cases started
    | ok c =>
        rw [MemoryStore.eq_keys_of_iterate hiterate]
        exact cursor_setCursor_self s name _
  obtain ⟨given, visited⟩ := exists_visited running _ opened
  exact ⟨given, visited.enumerates s.store.rows.sorted_keys⟩

/-- A table of four rows. -/
def fourRows : Script UInt32 UInt64 := ⟨.ofList [(1, 10), (2, 20), (3, 30), (5, 50)], []⟩

/-- Two enumerations take turns, while one row is removed, one spoilt, one stored anew, one
added, and the table is made unavailable. -/
def takingTurns : List (Step UInt32 UInt64) :=
  [.next "first", .start "second", .edit (.remove 2), .next "second",
    .edit (.malformed 3 "value size 16"), .put 4 40, .edit (.insert 5 55),
    .edit (.unavailable true), .next "first", .next "second", .next "first", .next "first",
    .edit (.insert 6 60), .next "first"]

/-- The first enumeration gives the rows of the keys 1, 3 and 5 as they are by then. -/
theorem enumerates_of_start_takingTurns :
    (∃ given, Enumerates [1, 2, 3, 5]
      (visits "first" (fourRows.step (.start "first")).2 takingTurns) given) ∧
    (visits "first" (fourRows.step (.start "first")).2 takingTurns).map Visit.answer =
      [some (.ok (1, 10)), some (.error ⟨"value size 16"⟩), some (.ok (5, 55)), none, none] ∧
    (visits "second" (fourRows.step (.start "first")).2 takingTurns).map Visit.answer =
      [some (.ok (1, 10)), some (.error ⟨"value size 16"⟩)] := by
  refine ⟨enumerates_of_start fourRows rfl ?_, ?_, ?_⟩
  · decide
  · decide +kernel
  · decide +kernel

end Script

end TrafficStats
