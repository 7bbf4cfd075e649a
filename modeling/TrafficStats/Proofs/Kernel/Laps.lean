import TrafficStats.Proofs.Kernel.Holding

/-!
# Walks while rows are removed

If the row at which a walk stands is removed, the kernel sends the walk back to the first row,
and all rows that are still there are fetched once more. A walk through a map from which rows
are removed and to which none is added therefore runs in laps: in each of them every row comes
at most once, with the value that it has, and the walk is on its first lap until it is sent
back for the first time (`laps_trail`). It is sent back at most once for each row that is
removed (`sentBack_le`).
-/

namespace TrafficStats

open Query RowResult

/-! ### Removals -/

/-- Of an event: other processes only remove rows there. -/
def KernelEvent.OnlyRemoves (e : KernelEvent) : Prop :=
  ∀ change ∈ e.changes, ∃ key, change.2 = .remove key

theorem KernelEvent.lasting_onlyRemoves : Lasting OnlyRemoves := fun _ _ removes => removes

namespace Kernel

variable {path : String} {k : Kernel}

theorem rows_alter_sublist (k : Kernel) (altered path : String) {f : KernelRows → KernelRows}
    (fewer : ∀ rows, (f rows).Sublist rows) :
    ((k.alter altered f).rows path).Sublist (k.rows path) := by
  rw [rows, rows, map?_alter_eq]
  cases k.map? path with
  | none => exact .refl _
  | some m =>
      dsimp only [Option.map_some]
      split
      · exact fewer m.rows
      · exact .refl _

/-- While rows are removed and none is added, fewer rows remain. -/
theorem rows_before_sublist (removes : ∀ e ∈ k.events, e.OnlyRemoves) (path path' : String)
    (call : KernelCall) : ((k.before path' call).2.rows path).Sublist (k.rows path) := by
  have altered : ∀ (changes : List (String × MapChange)) (k : Kernel),
      (∀ change ∈ changes, ∃ key, change.2 = .remove key) →
        ((changes.foldl (fun k change => k.alter change.1 change.2.apply) k).rows path).Sublist
          (k.rows path) := by
    intro changes
    induction changes with
    | nil => exact fun k _ => .refl _
    | cons change changes ih =>
        intro k removes
        obtain ⟨key, removal⟩ := removes change List.mem_cons_self
        refine (ih _ fun c hc => removes c (List.mem_cons_of_mem _ hc)).trans ?_
        apply rows_alter_sublist
        intro rows
        rw [removal]
        exact List.filter_sublist
  have happened : ∀ (due : List KernelEvent) (k : Kernel), (∀ e ∈ due, e.OnlyRemoves) →
      ((due.foldl happen k).rows path).Sublist (k.rows path) := by
    intro due
    induction due with
    | nil => exact fun k _ => .refl _
    | cons e due ih =>
        intro k removes
        refine (ih _ fun e' he' => removes e' (List.mem_cons_of_mem _ he')).trans ?_
        exact altered e.changes k (removes e List.mem_cons_self)
  obtain ⟨due, -⟩ := KernelEvent.forall_divide path' call KernelEvent.lasting_onlyRemoves removes
  exact happened _ _ due

theorem onlyRemoves_before (removes : ∀ e ∈ k.events, e.OnlyRemoves) (path : String)
    (call : KernelCall) : ∀ e ∈ (k.before path call).2.events, e.OnlyRemoves := by
  rw [events_before]
  exact (KernelEvent.forall_divide path call KernelEvent.lasting_onlyRemoves removes).2

end Kernel

/-! ### Rows that are found -/

namespace KernelRows

variable {order rows later : KernelRows} {key : Option Bytes} {next value : Bytes}

theorem mem_of_value? {key : Bytes} (found : rows.value? key = some value) :
    (key, value) ∈ rows := by
  induction rows with
  | nil => cases found
  | cons row rows ih =>
      rw [value?] at found
      split at found
      · rename_i here
        cases found
        rw [← here]
        exact List.mem_cons_self
      · exact List.mem_cons_of_mem _ (ih found)

theorem mem_of_firstKey? (first : rows.firstKey? = some next) : ∃ value, (next, value) ∈ rows := by
  cases rows with
  | nil => cases first
  | cons row rows =>
      cases first
      exact ⟨row.2, List.mem_cons_self⟩

theorem holds_of_mem {key : Bytes} (mem : (key, value) ∈ rows) : rows.holds key = true := by
  induction rows with
  | nil => cases mem
  | cons row rows ih =>
      rw [holds, value?]
      split
      · rfl
      · rename_i other
        obtain rfl | mem := List.mem_cons.mp mem
        · exact absurd rfl other
        · exact ih mem

theorem afterKey_suffix (key : Bytes) (rows : KernelRows) : rows.afterKey key <:+ rows := by
  induction rows with
  | nil => exact List.suffix_rfl
  | cons row rows ih =>
      rw [afterKey]
      split
      · exact List.suffix_cons row rows
      · exact ih.trans (List.suffix_cons row rows)

theorem holds_of_nextKey? (found : rows.nextKey? key = some next) : rows.holds next = true := by
  cases key with
  | none =>
      obtain ⟨value, mem⟩ := mem_of_firstKey? found
      exact holds_of_mem mem
  | some key =>
      rw [nextKey?] at found
      split at found
      · obtain ⟨value, mem⟩ := mem_of_firstKey? found
        exact holds_of_mem ((afterKey_suffix key rows).subset mem)
      · obtain ⟨value, mem⟩ := mem_of_firstKey? found
        exact holds_of_mem mem

/-- If a row remains, those that remain before and after it were before and after it. -/
theorem exists_split_of_holds {front later rows : KernelRows} {key value : Bytes}
    (nodup : ((front ++ (key, value) :: later).map Prod.fst).Nodup)
    (remain : rows.Sublist (front ++ (key, value) :: later)) (holds : rows.holds key = true) :
    ∃ front' later', rows = front' ++ (key, value) :: later' ∧ key ∉ front'.map Prod.fst ∧
      later'.Sublist later := by
  obtain ⟨v, found⟩ := Option.isSome_iff_exists.mp holds
  obtain ⟨front', rest, rfl, before, after⟩ := List.sublist_append_iff.mp remain
  have new : key ∉ front'.map Prod.fst := fun mem => notMem_front nodup ((before.map _).subset mem)
  rw [List.map_append, List.map_cons, List.nodup_append] at nodup
  have unique : key ∉ later.map Prod.fst := (List.nodup_cons.mp nodup.2.1).1
  obtain mem | mem := List.mem_append.mp (mem_of_value? found)
  · exact absurd (List.mem_map_of_mem mem) new
  · obtain gone | ⟨later', rfl, after'⟩ := List.sublist_cons_iff.mp after
    · exact absurd (List.mem_map_of_mem (gone.subset mem)) unique
    · exact ⟨front', later', rfl, new, after'⟩

/-- The next row of those that remain is one of those that were ahead, unless the walk is sent
back; then it is any of the rows. -/
theorem Ahead.exists_next (h : order.Ahead key later) (nodup : (order.map Prod.fst).Nodup)
    (remain : rows.Sublist order) (found : rows.nextKey? key = some next) :
    ∃ value, (next, value) ∈ order ∧ (rows.startsAgain key = false → (next, value) ∈ later) := by
  cases h with
  | start =>
      obtain ⟨value, mem⟩ := mem_of_firstKey? found
      exact ⟨value, remain.subset mem, fun _ => remain.subset mem⟩
  | @after front later key value split =>
      subst split
      cases there : rows.holds key with
      | false =>
          have first : rows.firstKey? = some next := by
            simpa [nextKey?, there] using found
          obtain ⟨value', mem⟩ := mem_of_firstKey? first
          refine ⟨value', remain.subset mem, fun onward => ?_⟩
          rw [startsAgain, there] at onward
          cases onward
      | true =>
          obtain ⟨front', later', rfl, new, after⟩ := exists_split_of_holds nodup remain there
          rw [nextKey?_append_cons new] at found
          obtain ⟨value', mem⟩ := mem_of_firstKey? found
          have ahead : (next, value') ∈ later := after.subset mem
          exact ⟨value', List.mem_append_right _ (List.mem_cons_of_mem _ ahead), fun _ => ahead⟩

/-- A walk that has come to a row ahead has those after it ahead. -/
theorem Ahead.onward (h : order.Ahead key later) (mem : (next, value) ∈ later) :
    ∃ later', order.Ahead (some next) later' ∧ ((next, value) :: later').Sublist later := by
  obtain ⟨passed, later', rfl⟩ := List.append_of_mem mem
  refine ⟨later', ?_, List.sublist_append_right _ _⟩
  cases h with
  | start => exact .after rfl
  | @after front _ key' value' split =>
      have split' : order = (front ++ (key', value') :: passed) ++ (next, value) :: later' := by
        rw [split, List.append_assoc]
        rfl
      exact .after split'

end KernelRows

/-! ### Laps -/

/-- Going through a list in laps, where `later` is still ahead on the first one: on each lap
some of the list is passed, in its order, and after so many laps more it is over. -/
inductive Laps {α : Type} (order : List α) : List α → Nat → List α → Prop
  | finish {later passed : List α} (onward : passed.Sublist later) : Laps order later 0 passed
  | again {later passed rest : List α} {n : Nat} (onward : passed.Sublist later)
      (laps : Laps order order n rest) : Laps order later (n + 1) (passed ++ rest)

namespace Laps

variable {α β : Type} {order later rest : List α} {n : Nat}

theorem pass {seen later' : List α} {a : α} (one : seen.Sublist [a])
    (onward : (a :: later').Sublist later) (laps : Laps order later' n rest) :
    Laps order later n (seen ++ rest) := by
  have further {passed : List α} (h : passed.Sublist later') : (seen ++ passed).Sublist later :=
    (one.append h).trans onward
  cases laps with
  | finish h => exact .finish (further h)
  | again h laps =>
      rw [← List.append_assoc]
      exact .again (further h) laps

theorem sublist {passed passed' : List α} (laps : Laps order later n passed)
    (fewer : passed'.Sublist passed) : Laps order later n passed' := by
  induction laps generalizing passed' with
  | finish onward => exact .finish (fewer.trans onward)
  | again onward _ ih =>
      obtain ⟨first, rest, rfl, h, h'⟩ := List.sublist_append_iff.mp fewer
      exact .again (h.trans onward) (ih h')

theorem map (f : α → β) {passed : List α} (laps : Laps order later n passed) :
    Laps (order.map f) (later.map f) n (passed.map f) := by
  induction laps with
  | finish onward => exact .finish (onward.map f)
  | again onward _ ih =>
      rw [List.map_append]
      exact .again (onward.map f) ih

/-- In so many laps everything is passed at most so many times more than once. -/
theorem countP_le {p : α → Bool} {passed : List α} (laps : Laps order later n passed)
    (start : later.Sublist order) (once : order.countP p ≤ 1) : passed.countP p ≤ n + 1 := by
  induction laps with
  | finish onward => exact ((onward.trans start).countP_le).trans once
  | again onward _ ih =>
      rw [List.countP_append]
      have first := ((onward.trans start).countP_le (p := p)).trans once
      have more := ih (.refl _)
      omega

/-- Who is never sent back passes everything at most once, in its order. -/
theorem zero_iff {passed : List α} : Laps order later 0 passed ↔ passed.Sublist later := by
  constructor
  · intro laps
    cases laps with
    | finish onward => exact onward
  · exact .finish

end Laps

/-- The row that a step fetches. -/
def WalkStep.row? : WalkStep → Option (Bytes × Bytes)
  | .found _ key (.ok value) => some (key, value)
  | _ => none

namespace Kernel

variable {path : String} {k : Kernel} {order later : KernelRows} {key : Option Bytes}

/-- What a step fetches while rows are removed. -/
theorem row?_found (nodup : (order.map Prod.fst).Nodup)
    (removes : ∀ e ∈ k.events, e.OnlyRemoves) (remain : (k.rows path).Sublist order)
    {next value : Bytes} (mem : (next, value) ∈ order) (again : Bool) :
    (WalkStep.found again next (k.looked path next)).row?.toList.Sublist [(next, value)] := by
  rw [looked]
  cases k.refusalAt path .lookup 0 with
  | some refusal => exact List.nil_sublist _
  | none =>
      dsimp only
      cases found : ((k.before path .lookup).2.rows path).value? next with
      | none => exact List.nil_sublist _
      | some value' =>
          have mem' : (next, value') ∈ order :=
            remain.subset ((rows_before_sublist removes path path .lookup).subset
              (KernelRows.mem_of_value? found))
          have same := List.inj_on_of_nodup_map nodup mem' mem rfl
          rw [← same]
          exact .refl _

/-- A walk while rows are removed: it goes on with the lap that it is on, and begins another one
whenever it is sent back. -/
theorem laps_trail (nodup : (order.map Prod.fst).Nodup)
    (removes : ∀ e ∈ k.events, e.OnlyRemoves) (remain : (k.rows path).Sublist order)
    (ahead : order.Ahead key later) (steps : Nat) :
    Laps order later ((trail path steps key k).1.countP WalkStep.isAgain)
      ((trail path steps key k).1.filterMap WalkStep.row?) := by
  induction steps generalizing key later k with
  | zero => exact .finish (List.nil_sublist _)
  | succ steps ih =>
      have asked := onlyRemoves_before removes path .nextKey
      have remain' := (rows_before_sublist removes path path .nextKey).trans remain
      have looked := onlyRemoves_before asked path .lookup
      have remain'' := (rows_before_sublist asked path path .lookup).trans remain'
      rw [trail_succ]
      dsimp only
      match k.refusalAt path .nextKey 0,
        found : ((k.before path .nextKey).2.rows path).nextKey? key with
      | some .absent, _ => exact .finish (List.nil_sublist _)
      | some .failed, _ => exact .finish (List.nil_sublist _)
      | none, none => exact .finish (List.nil_sublist _)
      | none, some next =>
          obtain ⟨value, mem, onward⟩ := ahead.exists_next nodup remain' found
          have fetched := row?_found nodup asked remain' mem
          have split (trail : List WalkStep) (step : WalkStep) :
              (step :: trail).filterMap WalkStep.row? =
                step.row?.toList ++ trail.filterMap WalkStep.row? := by
            rw [List.filterMap_cons]
            cases step.row? <;> rfl
          rw [split]
          cases again : ((k.before path .nextKey).2.rows path).startsAgain key with
          | false =>
              obtain ⟨later', ahead', sublist⟩ := ahead.onward (onward again)
              exact (ih looked remain'' ahead').pass (fetched false) sublist
          | true =>
              obtain ⟨later', ahead', sublist⟩ := KernelRows.Ahead.start.onward mem
              have lap := (ih looked remain'' ahead').pass (fetched true) sublist
              rw [List.countP_cons_of_pos rfl, ← List.nil_append (_ ++ _)]
              exact .again (List.nil_sublist later) lap

end Kernel

/-! ### How often a walk is sent back -/

namespace KernelEvent

/-- How many changes other processes are going to make at the events. -/
def changesAt (events : List KernelEvent) : Nat :=
  total (fun e => e.changes.length) events

theorem changesAt_divide (path : String) (call : KernelCall) (events : List KernelEvent) :
    changesAt (divide path call events).1 + changesAt (divide path call events).2 =
      changesAt events := by
  induction events with
  | nil => rfl
  | cons e events ih =>
      rw [divide, changesAt, changesAt, changesAt, total]
      rw [changesAt, changesAt, changesAt] at ih
      dsimp only
      split
      · split
        · simp only [total]
          omega
        · simp only [total]
          omega
      · simp only [total]
        omega

theorem changes_eq_nil {events : List KernelEvent} (none_left : changesAt events = 0) :
    ∀ e ∈ events, e.changes = [] := by
  induction events with
  | nil => simp
  | cons e events ih =>
      rw [changesAt, total, Nat.add_eq_zero_iff] at none_left
      rw [List.forall_mem_cons]
      exact ⟨List.length_eq_zero_iff.mp none_left.1, ih none_left.2⟩

end KernelEvent

namespace Kernel

variable {path : String} {k : Kernel}

/-- Before a call the rows are left as they are, or else fewer changes are left. -/
theorem rows_eq_or_changesAt_lt (k : Kernel) (path path' : String) (call : KernelCall) :
    KernelEvent.changesAt (k.before path' call).2.events ≤ KernelEvent.changesAt k.events ∧
      ((k.before path' call).2.rows path = k.rows path ∨
        KernelEvent.changesAt (k.before path' call).2.events < KernelEvent.changesAt k.events) := by
  have split := KernelEvent.changesAt_divide path' call k.events
  rw [events_before]
  refine ⟨by omega, ?_⟩
  obtain none_due | some_due := Nat.eq_zero_or_pos
    (KernelEvent.changesAt (KernelEvent.divide path' call k.events).1)
  · refine .inl ?_
    have maps : (k.before path' call).2.maps = k.maps :=
      maps_foldl_happen _ (KernelEvent.changes_eq_nil none_due)
    rw [rows, rows, map?, map?, maps]
  · exact .inr (by omega)

/-- How many changes may yet send a walk back: those to come, and the one that has removed the
row at which it stands. -/
def turnsLeft (k : Kernel) (path : String) (key : Option Bytes) : Nat :=
  KernelEvent.changesAt k.events + if (k.rows path).startsAgain key then 1 else 0

theorem turnsLeft_before (k : Kernel) (path path' : String) (call : KernelCall)
    (key : Option Bytes) :
    (k.before path' call).2.turnsLeft path key ≤ k.turnsLeft path key := by
  obtain ⟨fewer, same | less⟩ := rows_eq_or_changesAt_lt k path path' call
  · rw [turnsLeft, turnsLeft, same]
    exact Nat.add_le_add_right fewer _
  · rw [turnsLeft, turnsLeft]
    split <;> omega

/-- Each time that a walk is sent back is due to a change. -/
theorem countP_isAgain_trail_le (k : Kernel) (path : String) (steps : Nat) (key : Option Bytes) :
    (trail path steps key k).1.countP WalkStep.isAgain ≤ k.turnsLeft path key := by
  induction steps generalizing k key with
  | zero => exact Nat.zero_le _
  | succ steps ih =>
      have asked := turnsLeft_before k path path .nextKey key
      rw [trail_succ]
      dsimp only
      match k.refusalAt path .nextKey 0,
        found : ((k.before path .nextKey).2.rows path).nextKey? key with
      | some .absent, _ => exact Nat.zero_le _
      | some .failed, _ => exact Nat.zero_le _
      | none, none => exact Nat.zero_le _
      | none, some next =>
          -- The walk stands at a row that is there: only a change to come can send it back.
          have fresh : (k.before path .nextKey).2.turnsLeft path (some next) =
              KernelEvent.changesAt (k.before path .nextKey).2.events := by
            rw [turnsLeft, KernelRows.startsAgain, KernelRows.holds_of_nextKey? found]
            rfl
          have looked := turnsLeft_before (k.before path .nextKey).2 path path .lookup (some next)
          have rest := ih ((k.before path .nextKey).2.before path .lookup).2 (some next)
          rw [turnsLeft] at asked
          rw [List.countP_cons, WalkStep.isAgain]
          omega

/-- How often an enumeration is sent back to the first row. -/
def sentBack (k : Kernel) (path : String) : Nat :=
  (trail path (k.walkBudget path) none k).1.countP WalkStep.isAgain

/-- Never more often than other processes change a map. -/
theorem sentBack_le (k : Kernel) (path : String) :
    k.sentBack path ≤ KernelEvent.changesAt k.events :=
  countP_isAgain_trail_le k path _ none

end Kernel

/-! ### Enumerations -/

/-- Of the given rows some have been yielded in laps, after so many times of being sent back: on
each lap every row at most once. -/
structure InLaps {K V : Type} [DecidableEq K] (rows : List (K × V)) (again : Nat)
    (yielded : List (K × V)) : Prop where
  laps : ∃ order : List (K × V), order.Perm rows ∧ Laps order order again yielded
  count_le : ∀ key, (yielded.map Prod.fst).count key ≤ again + 1
  subperm : again = 0 → yielded.Subperm rows

namespace InLaps

variable {K V : Type} [DecidableEq K] {rows order yielded : List (K × V)} {again : Nat}

theorem of_laps (nodup : (rows.map Prod.fst).Nodup) (perm : order.Perm rows)
    (laps : Laps order order again yielded) : InLaps rows again yielded where
  laps := ⟨order, perm, laps⟩
  count_le key := by
    have once : (order.map Prod.fst).count key ≤ 1 :=
      List.nodup_iff_count_le_one.mp ((perm.map Prod.fst).nodup_iff.mpr nodup) key
    exact (laps.map Prod.fst).countP_le (.refl _) once
  subperm never := by
    subst never
    exact (Laps.zero_iff.mp laps).subperm.trans perm.subperm

/-- Some of what is yielded has been yielded. -/
theorem sublist (h : InLaps rows again yielded) (nodup : (rows.map Prod.fst).Nodup)
    {counted : List (K × V)} (fewer : counted.Sublist yielded) : InLaps rows again counted := by
  obtain ⟨order, perm, laps⟩ := h.laps
  exact .of_laps nodup perm (laps.sublist fewer)

end InLaps

namespace Pinned

open Kernel

variable {K V : Type} [Layout K] [Layout V] {path : String} {k : Kernel}

/-- What an enumeration that starts hands out are the rows that its steps fetch. -/
theorem readable_of_iterate {c : Cursor K V} (started : (iterate path k).1 = .ok c) :
    ∃ delivered, c = delivered.map .row ∧
      readable delivered = ((trail path (k.walkBudget path) none k).1.filterMap WalkStep.row?).map
        fun r => (Layout.decode r.1, Layout.decode r.2) := by
  rw [iterate_eq, walk_eq_started] at started
  set items := (trail path (k.walkBudget path) none k).1.filterMap WalkStep.item? with hitems
  have fetched : items.filterMap Except.toOption =
      (trail path (k.walkBudget path) none k).1.filterMap WalkStep.row? := by
    rw [hitems, List.filterMap_filterMap]
    apply List.filterMap_congr
    intro step _
    match step with
    | .cut => rfl
    | .found _ _ (.ok _) => rfl
    | .found _ _ (.error .absent) => rfl
    | .found _ _ (.error .failed) => rfl
  obtain ⟨call, later, -, failed⟩ | ⟨-, walked⟩ := started_cases items
  · rw [failed] at started
    cases started
  · rw [walked] at started
    cases started
    exact ⟨items.map row, rfl, by rw [readable_map_row, fetched]⟩

variable [DecidableEq K]

/-- While rows are removed, an enumeration yields the rows of the table in laps. -/
def YieldsInLaps (path : String) (rows : List (K × V)) (k : Kernel) : Prop :=
  ∀ c : Cursor K V, (iterate path k).1 = .ok c →
    ∃ delivered, c = delivered.map .row ∧ InLaps rows (k.sentBack path) (readable delivered)

theorem yieldsInLaps (removes : ∀ e ∈ k.events, e.OnlyRemoves) {rows : List (K × V)}
    (holding : Holding path rows k.maps) (nodup : (rows.map Prod.fst).Nodup) :
    YieldsInLaps path rows k := by
  obtain ⟨map, order, pinned, perm, bytes⟩ := holding
  intro c started
  obtain ⟨delivered, rfl, rows_eq⟩ := readable_of_iterate started
  refine ⟨delivered, rfl, .of_laps nodup perm ?_⟩
  have held : k.rows path = order.map encodeRow := by
    rw [Kernel.rows, map?, pinned, ← bytes]
  have remain : (k.rows path).Sublist (order.map encodeRow) := by rw [held]
  have laps := laps_trail (nodup_encodeRow ((perm.map Prod.fst).nodup_iff.mpr nodup)) removes
    remain .start (k.walkBudget path)
  rw [rows_eq]
  have decoded := laps.map fun r => ((Layout.decode r.1, Layout.decode r.2) : K × V)
  rwa [map_decode_encodeRow] at decoded

end Pinned

end TrafficStats
