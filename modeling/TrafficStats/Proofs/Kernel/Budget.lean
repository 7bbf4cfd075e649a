import TrafficStats.Proofs.Kernel.Laps

/-!
# Enough steps for every walk

The kernel promises no end of a walk: while other processes change the map, the walk may be sent
back and find rows that were not there before. But all that is going to happen is part of the
kernel's state, and so the steps that a walk can still make are bounded by `stepsLeft`. An event
that happens is used up, and between two events the walk comes nearer to the end of the map by
a row, so the bound goes down with every step (`stepsLeft_lt`). With the budget of `walk` or
more, a walk is therefore never cut short (`walkFrom_eq_walk`). All this is about maps with
distinct keys: rows that were stored have them (`nodup_ofList`), and changes leave them distinct
(`Grows.nodup`).
-/

namespace TrafficStats

/-! ### Rows ahead -/

namespace KernelRows

variable {rows : KernelRows} {key : Option Bytes} {next : Bytes}

/-- The rows that a walk at a key has before it. Where the key is gone, it has all of them. -/
def ahead (rows : KernelRows) : Option Bytes → KernelRows
  | none => rows
  | some key => if rows.holds key then rows.afterKey key else rows

theorem nextKey?_eq_ahead (rows : KernelRows) (key : Option Bytes) :
    rows.nextKey? key = (rows.ahead key).firstKey? := by
  cases key with
  | none => rfl
  | some key =>
      rw [nextKey?, ahead]
      split <;> rfl

theorem ahead_suffix (rows : KernelRows) (key : Option Bytes) : rows.ahead key <:+ rows := by
  cases key with
  | none => exact List.suffix_rfl
  | some key =>
      rw [ahead]
      split
      · exact afterKey_suffix key rows
      · exact List.suffix_rfl

/-- A walk that comes to the next key has fewer rows before it. -/
theorem length_ahead_lt (nodup : (rows.map Prod.fst).Nodup)
    (found : rows.nextKey? key = some next) :
    (rows.ahead (some next)).length < (rows.ahead key).length := by
  obtain ⟨front, split⟩ := rows.ahead_suffix key
  rw [nextKey?_eq_ahead] at found
  generalize rows.ahead key = later at split found
  cases later with
  | nil => cases found
  | cons row later =>
      cases found
      subst split
      have new := notMem_front nodup
      have there : holds row.1 (front ++ row :: later) = true := by
        rw [holds, value?_append_cons new]
        rfl
      rw [ahead, if_pos there, afterKey_append_cons new]
      exact Nat.lt_succ_self _

/-- Storing a value leaves the keys as they are, unless the key is new; then it comes last. -/
theorem map_fst_store (key value : Bytes) (rows : KernelRows) :
    (rows.store key value).map Prod.fst =
      if key ∈ rows.map Prod.fst then rows.map Prod.fst else rows.map Prod.fst ++ [key] := by
  induction rows with
  | nil => rfl
  | cons row rows ih =>
      rw [store]
      by_cases here : row.1 = key
      · rw [if_pos here, if_pos (by simp [here]), List.map_cons, List.map_cons, here]
      · rw [if_neg here, List.map_cons, ih, List.map_cons]
        by_cases known : key ∈ rows.map Prod.fst
        · rw [if_pos known, if_pos (List.mem_cons_of_mem _ known)]
        · rw [if_neg known, if_neg (by simp [Ne.symm here, known]), List.cons_append]

/-- What so many changes can make of rows: each adds one row at most, and none stores a second
row under a key. -/
structure Grows (changes : Nat) (rows rows' : KernelRows) : Prop where
  length_le : rows'.length ≤ rows.length + changes
  nodup : (rows.map Prod.fst).Nodup → (rows'.map Prod.fst).Nodup

namespace Grows

theorem refl (rows : KernelRows) : Grows 0 rows rows := ⟨Nat.le_refl _, id⟩

theorem mono {m n : Nat} {rows rows' : KernelRows} (h : Grows m rows rows') (le : m ≤ n) :
    Grows n rows rows' :=
  ⟨h.length_le.trans (Nat.add_le_add_left le _), h.nodup⟩

theorem trans {m n : Nat} {rows rows' rows'' : KernelRows} (h : Grows m rows rows')
    (h' : Grows n rows' rows'') : Grows (m + n) rows rows'' := by
  refine ⟨?_, fun nodup => h'.nodup (h.nodup nodup)⟩
  have first := h.length_le
  have second := h'.length_le
  omega

theorem store (key value : Bytes) (rows : KernelRows) : Grows 1 rows (rows.store key value) := by
  have keys := map_fst_store key value rows
  by_cases known : key ∈ rows.map Prod.fst
  · rw [if_pos known] at keys
    have same := congrArg List.length keys
    rw [List.length_map, List.length_map] at same
    refine ⟨by omega, fun nodup => ?_⟩
    rw [keys]
    exact nodup
  · rw [if_neg known] at keys
    have longer := congrArg List.length keys
    rw [List.length_map, List.length_append, List.length_map] at longer
    refine ⟨longer.le, fun nodup => ?_⟩
    rw [keys]
    exact List.concat_eq_append ▸ nodup.concat known

theorem remove (key : Bytes) (rows : KernelRows) : Grows 1 rows (rows.remove key) := by
  have fewer : (rows.remove key).Sublist rows := List.filter_sublist
  exact ⟨fewer.length_le.trans (Nat.le_succ _), fun nodup => nodup.sublist (fewer.map Prod.fst)⟩

theorem change (change : MapChange) (rows : KernelRows) : Grows 1 rows (change.apply rows) := by
  cases change with
  | store key value => exact .store key value rows
  | remove key => exact .remove key rows

end Grows

/-- Rows that were stored one after the other have distinct keys. -/
theorem nodup_ofList (stored : List (Bytes × Bytes)) : ((ofList stored).map Prod.fst).Nodup := by
  have kept (rows : KernelRows) (nodup : (rows.map Prod.fst).Nodup) :
      ((stored.foldl (fun kept row => kept.store row.1 row.2) rows).map Prod.fst).Nodup := by
    induction stored generalizing rows with
    | nil => exact nodup
    | cons row stored ih => exact ih _ ((Grows.store row.1 row.2 rows).nodup nodup)
  exact kept [] List.nodup_nil

end KernelRows

/-! ### What happens before a call -/

namespace KernelEvent

theorem length_divide (path : String) (call : KernelCall) (events : List KernelEvent) :
    (divide path call events).1.length + (divide path call events).2.length = events.length := by
  induction events with
  | nil => rfl
  | cons e events ih =>
      rw [divide]
      dsimp only
      split
      · split
        · simp only [List.length_cons]
          omega
        · simp only [List.length_cons]
          omega
      · simp only [List.length_cons]
        omega

end KernelEvent

namespace Kernel

open KernelRows

variable {path : String} {k : Kernel} {key : Option Bytes} {next : Bytes}

theorem grows_alter (k : Kernel) (altered path : String) (change : MapChange) :
    Grows 1 (k.rows path) ((k.alter altered change.apply).rows path) := by
  rw [rows, rows, map?_alter_eq]
  cases k.map? path with
  | none => exact (Grows.refl _).mono (Nat.zero_le 1)
  | some m =>
      dsimp only [Option.map_some]
      split
      · exact .change change m.rows
      · exact (Grows.refl _).mono (Nat.zero_le 1)

theorem grows_happen (k : Kernel) (e : KernelEvent) (path : String) :
    Grows e.changes.length (k.rows path) ((k.happen e).rows path) := by
  change Grows _ _ ((e.changes.foldl (fun k change => k.alter change.1 change.2.apply) k).rows path)
  induction e.changes generalizing k with
  | nil => exact .refl _
  | cons change changes ih =>
      rw [List.length_cons, Nat.add_comm]
      exact (k.grows_alter change.1 path change.2).trans (ih _)

theorem grows_before (k : Kernel) (path path' : String) (call : KernelCall) :
    Grows (KernelEvent.changesAt (KernelEvent.divide path' call k.events).1) (k.rows path)
      ((k.before path' call).2.rows path) := by
  have happened (due : List KernelEvent) (k : Kernel) :
      Grows (KernelEvent.changesAt due) (k.rows path) ((due.foldl happen k).rows path) := by
    induction due generalizing k with
    | nil => exact .refl _
    | cons e due ih => exact (k.grows_happen e path).trans (ih (k.happen e))
  exact happened _ { k with events := (KernelEvent.divide path' call k.events).2 }

theorem nodup_before (nodup : ((k.rows path).map Prod.fst).Nodup) (path' : String)
    (call : KernelCall) : (((k.before path' call).2.rows path).map Prod.fst).Nodup :=
  (k.grows_before path path' call).nodup nodup

/-- Before a call nothing happens to the rows, or else an event is used up. -/
theorem rows_eq_or_events_lt (k : Kernel) (path path' : String) (call : KernelCall) :
    (k.before path' call).2.events.length ≤ k.events.length ∧
      ((k.before path' call).2.rows path = k.rows path ∨
        (k.before path' call).2.events.length < k.events.length) := by
  have split := KernelEvent.length_divide path' call k.events
  rw [events_before]
  refine ⟨by omega, ?_⟩
  cases due : (KernelEvent.divide path' call k.events).1 with
  | nil =>
      have nothing : (k.before path' call).2 =
          (KernelEvent.divide path' call k.events).1.foldl happen
            { k with events := (KernelEvent.divide path' call k.events).2 } := rfl
      refine .inl ?_
      rw [nothing, due]
      rfl
  | cons e due' =>
      rw [due, List.length_cons] at split
      exact .inr (by omega)

/-- The rows that a map can come to have. -/
def room (k : Kernel) (path : String) : Nat :=
  (k.rows path).length + KernelEvent.changesAt k.events

theorem room_before_le (k : Kernel) (path path' : String) (call : KernelCall) :
    (k.before path' call).2.room path ≤ k.room path := by
  have grown := (k.grows_before path path' call).length_le
  have split := KernelEvent.changesAt_divide path' call k.events
  rw [room, room, events_before]
  omega

/-! ### Steps -/

/-- A bound for the steps of a walk: until the next event it makes one for each row ahead, and
after each of the events to come one for each row that there can be. -/
def stepsLeft (k : Kernel) (path : String) (key : Option Bytes) : Nat :=
  k.events.length * (k.room path + 1) + ((k.rows path).ahead key).length + 1

theorem stepsLeft_before_le (k : Kernel) (path path' : String) (call : KernelCall)
    (key : Option Bytes) :
    (k.before path' call).2.stepsLeft path key ≤ k.stepsLeft path key := by
  have fits := k.room_before_le path path' call
  obtain ⟨fewer, same | used⟩ := k.rows_eq_or_events_lt path path' call
  · have events := Nat.mul_le_mul fewer (Nat.add_le_add_right fits 1)
    rw [stepsLeft, stepsLeft, same]
    omega
  · generalize (k.before path' call).2 = after at fits used
    have ahead : ((after.rows path).ahead key).length ≤ after.room path :=
      ((after.rows path).ahead_suffix key).length_le.trans (Nat.le_add_right _ _)
    calc after.stepsLeft path key
        ≤ after.events.length * (k.room path + 1) + (k.room path + 1) := by
          have events := Nat.mul_le_mul_left after.events.length (Nat.add_le_add_right fits 1)
          rw [stepsLeft]
          omega
      _ = (after.events.length + 1) * (k.room path + 1) := (Nat.succ_mul _ _).symm
      _ ≤ k.events.length * (k.room path + 1) := Nat.mul_le_mul_right _ used
      _ ≤ k.stepsLeft path key := by
          rw [stepsLeft]
          omega

theorem stepsLeft_lt (nodup : ((k.rows path).map Prod.fst).Nodup)
    (found : ((k.before path .nextKey).2.rows path).nextKey? key = some next) :
    ((k.before path .nextKey).2.before path .lookup).2.stepsLeft path (some next) <
      k.stepsLeft path key := by
  have asked := k.stepsLeft_before_le path path .nextKey key
  have onward := length_ahead_lt (nodup_before nodup path .nextKey) found
  have looked := (k.before path .nextKey).2.stepsLeft_before_le path path .lookup (some next)
  generalize (k.before path .nextKey).2 = k' at asked onward looked
  refine looked.trans_lt (Nat.lt_of_lt_of_le ?_ asked)
  rw [stepsLeft, stepsLeft]
  omega

theorem stepsLeft_le_walkBudget (k : Kernel) (path : String) :
    k.stepsLeft path none ≤ k.walkBudget path := by
  have budget : k.walkBudget path = (k.events.length + 1) * (k.room path + 2) := rfl
  have held : ((k.rows path).ahead none).length ≤ k.room path := Nat.le_add_right _ _
  have events : k.events.length * (k.room path + 1) ≤ k.events.length * (k.room path + 2) :=
    Nat.mul_le_mul_left _ (Nat.le_succ _)
  rw [budget, stepsLeft, Nat.succ_mul]
  omega

theorem nextKey_apply (path : String) (key : Option Bytes) (k : Kernel) :
    nextKey path key k =
      (match k.refusalAt path .nextKey 0 with
        | some refusal => .error refusal
        | none => orAbsent (((k.before path .nextKey).2.rows path).nextKey? key),
        (k.before path .nextKey).2) :=
  call_ask path .nextKey _ k

/-- If a walk is told a next key, fewer steps are left when that key has been looked up. -/
theorem stepsLeft_lt_of_nextKey (nodup : ((k.rows path).map Prod.fst).Nodup)
    (told : (nextKey path key k).1 = .ok next) :
    (lookup path next (nextKey path key k).2).2.stepsLeft path (some next) <
      k.stepsLeft path key := by
  rw [lookup_eq, nextKey_apply]
  rw [nextKey_apply] at told
  refine stepsLeft_lt nodup ?_
  cases refused : k.refusalAt path .nextKey 0 with
  | some refusal =>
      rw [refused] at told
      cases told
  | none =>
      simp only [refused] at told
      cases found : ((k.before path .nextKey).2.rows path).nextKey? key with
      | none =>
          rw [found] at told
          cases told
      | some next' =>
          rw [found] at told
          cases told
          rfl

theorem nodup_asked (nodup : ((k.rows path).map Prod.fst).Nodup) (key : Option Bytes)
    (next : Bytes) :
    (((lookup path next (nextKey path key k).2).2.rows path).map Prod.fst).Nodup := by
  rw [lookup_eq, nextKey_apply]
  exact nodup_before (nodup_before nodup path .nextKey) path .lookup

theorem walkRest_eq_of_le {steps more : Nat} {key : Bytes}
    (nodup : ((k.rows path).map Prod.fst).Nodup)
    (enough : k.stepsLeft path (some key) ≤ steps) (le : steps ≤ more) :
    walkRest path more key k = walkRest path steps key k := by
  induction steps generalizing more key k with
  | zero => exact absurd enough (Nat.not_succ_le_zero _)
  | succ steps ih =>
      obtain ⟨more, rfl⟩ := Nat.exists_eq_add_one.mpr (Nat.lt_of_lt_of_le steps.succ_pos le)
      have nodup' := nodup_asked nodup (some key)
      have fewer {next : Bytes} (told : (nextKey path (some key) k).1 = .ok next) :
          (lookup path next (nextKey path (some key) k).2).2.stepsLeft path (some next) <
            k.stepsLeft path (some key) := stepsLeft_lt_of_nextKey nodup told
      simp only [walkRest, bind, StateT.bind]
      generalize nextKey path (some key) k = asked at nodup' fewer
      obtain ⟨told, k'⟩ := asked
      cases told with
      | error refusal => cases refusal <;> rfl
      | ok next =>
          have rest := ih (nodup' next) (Nat.le_of_lt_succ ((fewer rfl).trans_le enough))
            (Nat.le_of_succ_le_succ le)
          simp only [StateT.bind]
          generalize lookup path next k' = looked at rest
          obtain ⟨answer, k''⟩ := looked
          cases answer with
          | error refusal =>
              cases refusal with
              | absent => exact rest
              | failed => exact congrArg (Prod.map (.error .lookup :: ·) id) rest
          | ok value => exact congrArg (Prod.map (.ok (next, value) :: ·) id) rest

/-- A walk needs no more steps than are left. -/
theorem walkFrom_eq_of_le {steps more : Nat} (nodup : ((k.rows path).map Prod.fst).Nodup)
    (enough : k.stepsLeft path key ≤ steps) (le : steps ≤ more) :
    walkFrom path more key k = walkFrom path steps key k := by
  induction steps generalizing more key k with
  | zero => exact absurd enough (Nat.not_succ_le_zero _)
  | succ steps ih =>
      obtain ⟨more, rfl⟩ := Nat.exists_eq_add_one.mpr (Nat.lt_of_lt_of_le steps.succ_pos le)
      have nodup' := nodup_asked nodup key
      have fewer {next : Bytes} (told : (nextKey path key k).1 = .ok next) :
          (lookup path next (nextKey path key k).2).2.stepsLeft path (some next) <
            k.stepsLeft path key := stepsLeft_lt_of_nextKey nodup told
      simp only [walkFrom, bind, StateT.bind]
      generalize nextKey path key k = asked at nodup' fewer
      obtain ⟨told, k'⟩ := asked
      cases told with
      | error refusal => cases refusal <;> rfl
      | ok next =>
          have left := Nat.le_of_lt_succ ((fewer rfl).trans_le enough)
          have walked := ih (nodup' next) left (Nat.le_of_succ_le_succ le)
          have rest := walkRest_eq_of_le (nodup' next) left (Nat.le_of_succ_le_succ le)
          simp only [StateT.bind]
          generalize lookup path next k' = looked at walked rest
          obtain ⟨answer, k''⟩ := looked
          cases answer with
          | error refusal =>
              cases refusal with
              | absent => exact walked
              | failed => rfl
          | ok value =>
              exact congrArg (Prod.map (Except.ok <| Except.ok (next, value) :: ·) id) rest

/-- A walk through a map with distinct keys is not cut short, whatever happens meanwhile: with
more steps it comes to the same. -/
theorem walkFrom_eq_walk (nodup : ((k.rows path).map Prod.fst).Nodup) {steps : Nat}
    (enough : k.walkBudget path ≤ steps) : walkFrom path steps none k = walk path k :=
  walkFrom_eq_of_le nodup (k.stepsLeft_le_walkBudget path) enough

end Kernel

end TrafficStats
