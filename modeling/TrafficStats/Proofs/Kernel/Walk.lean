import TrafficStats.Proofs.Kernel.Trail
import TrafficStats.Proofs.Table.Steady

/-!
# Walks through a map that nobody changes

If nobody changes a map, a walk through it is determined by how its calls are refused:
`itemsOf` computes what it delivers. The rows are delivered in their order, each as its own
lookup is refused, until the kernel refuses to tell the next key (`walk_eq_itemsOf`). A walk
leaves such a kernel as it is, apart from the calls that are made (`ensures_walk_of`).
-/

namespace TrafficStats

open Query

variable {α β σ : Type}

namespace Query

theorem onTables_bind (x : StateM σ α) (f : α → StateM σ β) :
    onTables (x >>= f) = onTables x >>= fun a => onTables (f a) := rfl

end Query

/-! ### Rows of bytes -/

namespace KernelRows

variable {front later : KernelRows} {key value : Bytes}

theorem value?_append_cons (new : key ∉ front.map Prod.fst) :
    value? key (front ++ (key, value) :: later) = some value := by
  induction front with
  | nil => exact if_pos rfl
  | cons row front ih =>
      rw [List.map_cons, List.mem_cons, not_or] at new
      exact (if_neg (Ne.symm new.1)).trans (ih new.2)

theorem afterKey_append_cons (new : key ∉ front.map Prod.fst) :
    afterKey key (front ++ (key, value) :: later) = later := by
  induction front with
  | nil => exact if_pos rfl
  | cons row front ih =>
      rw [List.map_cons, List.mem_cons, not_or] at new
      exact (if_neg (Ne.symm new.1)).trans (ih new.2)

/-- Asked for the key after a given one, the kernel has the next row to tell. -/
theorem nextKey?_append_cons (new : key ∉ front.map Prod.fst) :
    nextKey? (some key) (front ++ (key, value) :: later) = later.firstKey? := by
  simp only [nextKey?, holds, value?_append_cons new, afterKey_append_cons new]
  rfl

theorem notMem_front (nodup : ((front ++ (key, value) :: later).map Prod.fst).Nodup) :
    key ∉ front.map Prod.fst := by
  rw [List.map_append, List.nodup_append] at nodup
  intro mem
  exact nodup.2.2 key mem key List.mem_cons_self rfl

theorem value?_store (key value key' : Bytes) (rows : KernelRows) :
    value? key' (rows.store key value) = if key = key' then some value else value? key' rows := by
  induction rows with
  | nil => rfl
  | cons row rows ih =>
      by_cases here : row.1 = key
      · subst here
        simp only [store, value?, if_true]
        split <;> rfl
      · simp only [store, if_neg here, value?, ih]
        by_cases found : row.1 = key'
        · subst found
          rw [if_pos rfl, if_pos rfl, if_neg (Ne.symm here)]
        · rw [if_neg found, if_neg found]

theorem value?_remove (key key' : Bytes) (rows : KernelRows) :
    value? key' (rows.remove key) = if key = key' then none else value? key' rows := by
  induction rows with
  | nil => exact (ite_self _).symm
  | cons row rows ih =>
      by_cases here : row.1 = key
      · have gone : remove key (row :: rows) = remove key rows :=
          List.filter_cons_of_neg (by simpa using here)
        rw [gone, ih, value?]
        by_cases same : key = key'
        · rw [if_pos same, if_pos same]
        · rw [if_neg same, if_neg same, if_neg (here ▸ same)]
      · have stays : remove key (row :: rows) = row :: remove key rows :=
          List.filter_cons_of_pos (by simpa using here)
        rw [stays, value?, value?, ih]
        by_cases found : row.1 = key'
        · rw [if_pos found, if_pos found, if_neg (found ▸ Ne.symm here)]
        · rw [if_neg found, if_neg found]

end KernelRows

/-! ### Rows that are still to come -/

/-- The rows that a walk through the given rows has before it: all of them at the start, and
those after a key afterwards. -/
inductive KernelRows.Ahead (rows : KernelRows) : Option Bytes → KernelRows → Prop
  | start : Ahead rows none rows
  | after {front later : KernelRows} {key value : Bytes}
      (split : rows = front ++ (key, value) :: later) : Ahead rows (some key) later

namespace KernelRows.Ahead

variable {rows later : KernelRows} {key : Option Bytes} {key' value' : Bytes}

theorem nextKey?_eq (h : Ahead rows key later) (nodup : (rows.map Prod.fst).Nodup) :
    rows.nextKey? key = later.firstKey? := by
  cases h with
  | start => rfl
  | after split =>
      subst split
      exact nextKey?_append_cons (notMem_front nodup)

/-- The next row is one of the rows. -/
theorem exists_split (h : Ahead rows key ((key', value') :: later)) :
    ∃ front, rows = front ++ (key', value') :: later := by
  cases h with
  | start => exact ⟨[], rfl⟩
  | @after front _ key value split =>
      refine ⟨front ++ [(key, value)], ?_⟩
      rw [split, List.append_assoc]
      rfl

theorem step (h : Ahead rows key ((key', value') :: later)) : Ahead rows (some key') later := by
  obtain ⟨front, split⟩ := h.exists_split
  exact .after split

theorem value?_eq (h : Ahead rows key ((key', value') :: later))
    (nodup : (rows.map Prod.fst).Nodup) : rows.value? key' = some value' := by
  obtain ⟨front, rfl⟩ := h.exists_split
  exact value?_append_cons (notMem_front nodup)

end KernelRows.Ahead

/-! ### What a walk delivers -/

namespace Kernel

/-- What a walk delivers for a row, by how its lookup is refused. -/
def itemOf? (refusal : Option Refusal) (row : Bytes × Bytes) : Option Fetched :=
  match refusal with
  | none => some (.ok row)
  | some .absent => none
  | some .failed => some (.error .lookup)

theorem itemOf?_eq_none_iff {refusal : Option Refusal} {row : Bytes × Bytes} :
    itemOf? refusal row = none ↔ refusal = some .absent := by
  match refusal with
  | none => simp [itemOf?]
  | some .absent => simp [itemOf?]
  | some .failed => simp [itemOf?]

theorem itemOf?_eq_error_iff {refusal : Option Refusal} {row : Bytes × Bytes} {call : KernelCall} :
    itemOf? refusal row = some (.error call) ↔ refusal = some .failed ∧ call = .lookup := by
  match refusal with
  | none => simp [itemOf?]
  | some .absent => simp [itemOf?]
  | some .failed => simp [itemOf?, eq_comm]

/-- What a walk delivers for rows that stay as they are, by how its questions for the next key
and its lookups are refused. -/
def itemsOf (nextKeys lookups : Nat → Option Refusal) : KernelRows → List Fetched
  | [] => if nextKeys 0 = some .failed then [.error .nextKey] else []
  | row :: later =>
    match nextKeys 0 with
    | some .absent => []
    | some .failed => [.error .nextKey]
    | none =>
      (itemOf? (lookups 0) row).toList ++
        itemsOf (fun n => nextKeys (n + 1)) (fun n => lookups (n + 1)) later

variable {Q : KernelEvent → Prop} {maps : List KernelMap} {path : String} {map : KernelMap}

/-! ### Calls about maps that nobody changes -/

/-- A call that only asks changes no map. -/
theorem ensures_ask (lasting : KernelEvent.Lasting Q) (path : String) (kind : KernelCall)
    (ask : Kernel → Except Refusal α) :
    Ensures (Unchanged Q maps) (onTables (call path kind fun k => (ask k, k))) fun _ => True := by
  intro s hs
  rw [onTables, call_ask]
  exact ⟨trivial, hs.before lasting path kind⟩

theorem ensures_call (lasting : KernelEvent.Lasting Q) {kind : KernelCall}
    (answered : ∀ e, Q e → e.path = path → e.call = kind → e.refusal = none)
    {ask : Kernel → Except Refusal α} {answer : Except Refusal α}
    (same : ∀ k, Unchanged Q maps k → ask k = answer) :
    Ensures (Unchanged Q maps) (onTables (call path kind fun k => (ask k, k))) (· = answer) := by
  intro s hs
  have after := hs.before lasting path kind
  rw [onTables, call_ask, hs.refusalAt_eq_none answered]
  exact ⟨same _ after, after⟩

theorem ensures_lookup (lasting : KernelEvent.Lasting Q)
    (answered : ∀ e, Q e → e.path = path → e.call = .lookup → e.refusal = none)
    (pinned : maps.find? (fun m => m.path = path) = some map) (key : Bytes) :
    Ensures (Unchanged Q maps) (onTables (lookup path key))
      (· = orAbsent (map.rows.value? key)) := by
  apply ensures_call lasting answered
  intro k h
  rw [h.rows_eq pinned]

/-! ### Walks -/

/-- What a step delivers that has found a row of a map that nobody changes. -/
theorem item?_found (lasting : KernelEvent.Lasting Q)
    (pinned : maps.find? (fun m => m.path = path) = some map) {k : Kernel} (h : Unchanged Q maps k)
    {key value : Bytes} (there : map.rows.value? key = some value) (again : Bool) :
    (WalkStep.found again key (k.looked path key)).item? =
      itemOf? (k.refusalAt path .lookup 0) (key, value) := by
  rw [looked, (h.before lasting path .lookup).rows_eq pinned, there]
  match k.refusalAt path .lookup 0 with
  | none => rfl
  | some .absent => rfl
  | some .failed => rfl

/-- The steps of a walk through a map that nobody changes deliver its rows, each as its lookup
is refused, until the kernel refuses to tell the next key. -/
theorem filterMap_item_trail (lasting : KernelEvent.Lasting Q)
    (pinned : maps.find? (fun m => m.path = path) = some map)
    (nodup : (map.rows.map Prod.fst).Nodup) {k : Kernel} (h : Unchanged Q maps k)
    {key : Option Bytes} {later : KernelRows} (ahead : map.rows.Ahead key later) {steps : Nat}
    (enough : later.length < steps) :
    (trail path steps key k).1.filterMap WalkStep.item? =
      itemsOf (k.refusalAt path .nextKey) (k.refusalAt path .lookup) later := by
  induction later generalizing steps key k with
  | nil =>
      obtain ⟨steps, rfl⟩ := Nat.exists_eq_add_one.mpr (Nat.zero_lt_of_lt enough)
      have last : ((k.before path .nextKey).2.rows path).nextKey? key = none := by
        rw [(h.before lasting path .nextKey).rows_eq pinned, ahead.nextKey?_eq nodup]
        rfl
      simp only [trail_succ, last, itemsOf]
      match k.refusalAt path .nextKey 0 with
      | none => rfl
      | some .absent => rfl
      | some .failed => rfl
  | cons row later ih =>
      obtain ⟨key', value'⟩ := row
      obtain ⟨steps, rfl⟩ := Nat.exists_eq_add_one.mpr (Nat.zero_lt_of_lt enough)
      have asked := h.before lasting path .nextKey
      have looked := asked.before lasting path .lookup
      have next : ((k.before path .nextKey).2.rows path).nextKey? key = some key' := by
        rw [asked.rows_eq pinned, ahead.nextKey?_eq nodup]
        rfl
      have item := item?_found lasting pinned asked (ahead.value?_eq nodup)
        (((k.before path .nextKey).2.rows path).startsAgain key)
      have rest := ih looked ahead.step (Nat.lt_of_succ_lt_succ enough)
      -- Asking for the key brings the later such questions nearer, and looking it up the later
      -- lookups.
      have nextKeys : ((k.before path .nextKey).2.before path .lookup).2.refusalAt path .nextKey =
          fun n => k.refusalAt path .nextKey (n + 1) := by
        funext n
        rw [refusalAt_before_other _ (by simp), refusalAt_before]
      have lookups : ((k.before path .nextKey).2.before path .lookup).2.refusalAt path .lookup =
          fun n => k.refusalAt path .lookup (n + 1) := by
        funext n
        rw [refusalAt_before, refusalAt_before_other _ (by simp)]
      rw [nextKeys, lookups] at rest
      rw [refusalAt_before_other _ (by simp)] at item
      simp only [trail_succ, next, itemsOf]
      match k.refusalAt path .nextKey 0 with
      | some .absent => rfl
      | some .failed => rfl
      | none =>
          simp only [List.filterMap_cons, item, rest]
          cases itemOf? (k.refusalAt path .lookup 0) (key', value') <;> rfl

theorem length_lt_walkBudget (k : Kernel) (path : String) :
    (k.rows path).length < k.walkBudget path := by
  have once : 0 < k.events.length + 1 := Nat.succ_pos _
  have room := Nat.le_mul_of_pos_left
    ((k.rows path).length + KernelEvent.total (fun e => e.changes.length) k.events + 2) once
  rw [walkBudget]
  omega

/-- A walk through a map that nobody changes. -/
theorem walk_eq_itemsOf (lasting : KernelEvent.Lasting Q)
    (pinned : maps.find? (fun m => m.path = path) = some map)
    (nodup : (map.rows.map Prod.fst).Nodup) {k : Kernel} (h : Unchanged Q maps k) :
    (walk path k).1 =
      started (itemsOf (k.refusalAt path .nextKey) (k.refusalAt path .lookup) map.rows) := by
  have enough : map.rows.length < k.walkBudget path := by
    rw [← h.rows_eq pinned]
    exact k.length_lt_walkBudget path
  rw [walk_eq_started, filterMap_item_trail lasting pinned nodup h .start enough]

/-- If no question for the next key is refused, every row is delivered as its own lookup is
refused. -/
theorem itemsOf_eq_filterMap {refusal : Bytes × Bytes → Option Refusal}
    {nextKeys lookups : Nat → Option Refusal} {rows : KernelRows}
    (tells : ∀ n, nextKeys n = none)
    (refuses : ∀ n row, rows[n]? = some row → lookups n = refusal row) :
    itemsOf nextKeys lookups rows = rows.filterMap fun row => itemOf? (refusal row) row := by
  induction rows generalizing nextKeys lookups with
  | nil => simp [itemsOf, tells 0]
  | cons row rows ih =>
      have rest := ih (fun n => tells (n + 1)) fun n row' there => refuses (n + 1) row' there
      rw [itemsOf, tells 0, refuses 0 row rfl]
      simp only [rest, List.filterMap_cons]
      cases itemOf? (refusal row) row <;> rfl

/-- There is no walk if its first item is a failure, and else a walk with all its items. -/
theorem started_cases (items : List Fetched) :
    (∃ call later, items = .error call :: later ∧ started items = .error call) ∨
      ((∀ call later, items ≠ .error call :: later) ∧ started items = .ok items) := by
  match items with
  | [] => exact .inr ⟨by simp, rfl⟩
  | .ok row :: later => exact .inr ⟨by simp, rfl⟩
  | .error call :: later => exact .inl ⟨call, later, rfl, rfl⟩

theorem ensures_walkRest (lasting : KernelEvent.Lasting Q) (path : String) (steps : Nat)
    (key : Bytes) :
    Ensures (Unchanged Q maps) (onTables (walkRest path steps key)) fun _ => True := by
  induction steps generalizing key with
  | zero => exact .pure trivial
  | succ steps ih =>
      rw [walkRest, onTables_bind]
      refine (ensures_ask lasting path .nextKey _).bind fun found _ => ?_
      cases found with
      | error refusal => cases refusal <;> exact .pure trivial
      | ok next =>
          rw [onTables_bind]
          refine (ensures_ask lasting path .lookup _).bind fun answer _ => ?_
          cases answer with
          | error refusal =>
              cases refusal with
              | absent => exact ih next
              | failed => exact (ih next).bind fun _ _ => .pure trivial
          | ok value => exact (ih next).bind fun _ _ => .pure trivial

theorem ensures_walkFrom (lasting : KernelEvent.Lasting Q) (path : String) (steps : Nat)
    (key : Option Bytes) :
    Ensures (Unchanged Q maps) (onTables (walkFrom path steps key)) fun _ => True := by
  induction steps generalizing key with
  | zero => exact .pure trivial
  | succ steps ih =>
      rw [walkFrom, onTables_bind]
      refine (ensures_ask lasting path .nextKey _).bind fun found _ => ?_
      cases found with
      | error refusal => cases refusal <;> exact .pure trivial
      | ok next =>
          rw [onTables_bind]
          refine (ensures_ask lasting path .lookup _).bind fun answer _ => ?_
          cases answer with
          | error refusal =>
              cases refusal with
              | absent => exact ih (some next)
              | failed => exact .pure trivial
          | ok value =>
              simp only [onTables_bind]
              exact (ensures_walkRest lasting path steps next).bind fun _ _ => .pure trivial

/-- What holds of all that a walk may answer, however its calls are refused. -/
theorem ensures_walk_of (lasting : KernelEvent.Lasting Q)
    (pinned : maps.find? (fun m => m.path = path) = some map)
    (nodup : (map.rows.map Prod.fst).Nodup) {post : Except KernelCall (List Fetched) → Prop}
    (holds : ∀ k, Unchanged Q maps k →
      post (started (itemsOf (k.refusalAt path .nextKey) (k.refusalAt path .lookup) map.rows))) :
    Ensures (Unchanged Q maps) (onTables (walk path)) post := by
  intro s hs
  constructor
  · have answer := walk_eq_itemsOf lasting pinned nodup hs
    rw [onTables, answer]
    exact holds _ hs
  · exact (ensures_walkFrom lasting path _ none s hs).2

end Kernel

end TrafficStats
