import TrafficStats.Proofs.Kernel.Untroubled
import TrafficStats.Proofs.Table.Holding

/-!
# Pinned tables that hold given rows

A pinned map holds rows as bytes, in an order of its own. If it holds the bytes of rows with
distinct keys, and the kernel is untroubled, the pinned table has these rows, delivered in
the order in which the kernel walks them, and keeps its mapping under deletes and writes.
-/

namespace TrafficStats

open Query RowResult

namespace Kernel

variable {k : Kernel} {path : String} {map : KernelMap}

theorem path_of_map? (found : k.map? path = some map) : map.path = path := by
  rw [map?] at found
  simpa using List.find?_some found

/-- Altering one map leaves the others as they are. -/
theorem map?_alter_eq (k : Kernel) (altered path : String) (f : KernelRows → KernelRows) :
    (k.alter altered f).map? path =
      (k.map? path).map fun m => if m.path = altered then { m with rows := f m.rows } else m := by
  have samePath : ((fun m : KernelMap => decide (m.path = path)) ∘
      fun m => if m.path = altered then { m with rows := f m.rows } else m) =
        fun m => decide (m.path = path) := by
    funext m
    by_cases here : m.path = altered <;> simp [here]
  rw [map?, alter, List.find?_map, samePath]
  rfl

theorem map?_alter (found : k.map? path = some map) (f : KernelRows → KernelRows) :
    (k.alter path f).map? path = some { map with rows := f map.rows } := by
  rw [map?_alter_eq, found, Option.map_some, if_pos (path_of_map? found)]

end Kernel

namespace Pinned

open Kernel

variable {K V : Type} [Layout K] [Layout V]

def encodeRow (row : K × V) : Bytes × Bytes :=
  (Layout.encode row.1, Layout.encode row.2)

theorem row_encodeRow (r : K × V) : row (.ok (encodeRow r)) = .ok r := by
  rw [encodeRow, row, Layout.decode_encode, Layout.decode_encode]

/-- What is delivered are the fetched rows, read as rows of the table. -/
theorem readable_map_row (items : List Fetched) :
    readable (items.map (row : Fetched → RowResult K V)) =
      (items.filterMap Except.toOption).map fun r => (Layout.decode r.1, Layout.decode r.2) := by
  rw [readable, List.filterMap_map, List.map_filterMap]
  apply List.filterMap_congr
  intro r _
  cases r <;> rfl

theorem map_decode_encodeRow (order : List (K × V)) :
    ((order.map encodeRow).map fun r => (Layout.decode r.1, Layout.decode r.2)) = order := by
  rw [List.map_map]
  refine (List.map_congr_left fun r _ => ?_).trans order.map_id
  rw [Function.comp_apply, encodeRow, Layout.decode_encode, Layout.decode_encode]
  rfl

theorem nodup_encodeRow {rows : List (K × V)} (nodup : (rows.map Prod.fst).Nodup) :
    ((rows.map encodeRow).map Prod.fst).Nodup := by
  have keys : (rows.map encodeRow).map Prod.fst = (rows.map Prod.fst).map Layout.encode := by
    rw [List.map_map, List.map_map]
    rfl
  rw [keys]
  exact nodup.map fun _ _ => Layout.encode_injective

theorem value?_encodeRow [DecidableEq K] (rows : List (K × V)) (k : K) :
    KernelRows.value? (Layout.encode k) (rows.map encodeRow) =
      (rows.lookup k).map Layout.encode := by
  induction rows with
  | nil => rfl
  | cons row rows ih =>
      obtain ⟨k', v⟩ := row
      rw [List.map_cons, encodeRow, KernelRows.value?, ih, List.lookup_cons]
      by_cases same : k = k'
      · subst same
        simp
      · have differs : (k == k') = false := beq_eq_false_iff_ne.mpr same
        have differs' : ¬ Layout.encode k' = Layout.encode k :=
          fun eq => same (Layout.encode_injective eq.symm)
        rw [if_neg differs', differs]

/-- At a path a map is pinned that holds the given rows, in whatever order. -/
def Holding (path : String) (rows : List (K × V)) (maps : List KernelMap) : Prop :=
  ∃ (map : KernelMap) (order : List (K × V)), maps.find? (fun m => m.path = path) = some map ∧
    order.Perm rows ∧ map.rows = order.map encodeRow

variable {Q : KernelEvent → Prop} {maps : List KernelMap} {path : String} {map : KernelMap}

theorem ensures_read (lasting : KernelEvent.Lasting Q)
    (answered : ∀ e, Q e → e.path = path → e.call = .lookup → e.refusal = none)
    (pinned : maps.find? (fun m => m.path = path) = some map) (k : K) :
    Ensures (Unchanged Q maps) (onTables (read path k))
      (· = (.ok ((map.rows.value? (Layout.encode k)).map Layout.decode) :
        Except StoreError (Option V))) := by
  rw [read, onTables_bind]
  refine (ensures_lookup lasting answered pinned (Layout.encode k)).bind fun answer eq => ?_
  rw [eq]
  cases map.rows.value? (Layout.encode k) with
  | none => exact .pure rfl
  | some value => exact .pure rfl

/-- What an enumeration has to hand out after a walk. -/
def handed (path : String) : Except KernelCall (List Fetched) → Except StoreError (Cursor K V)
  | .error call => .error (.walkFailed path call)
  | .ok fetched => .ok ((fetched.map row).map .row)

theorem iterate_eq (path : String) (k : Kernel) :
    (iterate path k : Except StoreError (Cursor K V) × Kernel) =
      (handed path (walk path k).1, (walk path k).2) := by
  simp only [iterate, rows, bind, StateT.bind]
  generalize walk path k = outcome
  obtain ⟨answer, k'⟩ := outcome
  cases answer <;> rfl

theorem ensures_iterate_of {steady : Kernel → Prop} {post : Except StoreError (Cursor K V) → Prop}
    (walked : Ensures steady (onTables (walk path)) fun answer => post (handed path answer)) :
    Ensures steady (onTables (iterate path)) post := by
  intro s hs
  rw [onTables, iterate_eq]
  exact walked s hs

/-- An enumeration starts with all rows of its map fetched. -/
theorem ensures_iterate (pinned : maps.find? (fun m => m.path = path) = some map)
    (nodup : (map.rows.map Prod.fst).Nodup) :
    Ensures (Untroubled maps) (onTables (iterate path))
      (· = (.ok ((map.rows.map fun r => row (.ok r)).map .row) :
        Except StoreError (Cursor K V))) := by
  refine ensures_iterate_of ((ensures_walk pinned nodup).mono fun answer eq => ?_)
  simp only [eq, handed, List.map_map]
  rfl

/-- What an enumeration fetched it delivers, whatever happens meanwhile. -/
theorem delivers_fetched {steady : Kernel → Prop} (rows : List (RowResult K V)) :
    (access K V path).Delivers steady rows (rows.map .row) := by
  induction rows with
  | nil => exact .pure rfl
  | cons r rows ih => exact .pure ⟨rows.map .row, rfl, ih⟩

theorem ensures_read_of_holding [DecidableEq K] (lasting : KernelEvent.Lasting Q)
    (answered : ∀ e, Q e → e.path = path → e.call = .lookup → e.refusal = none)
    {rows : List (K × V)} (holding : Holding path rows maps)
    (nodup : (rows.map Prod.fst).Nodup) (k : K) :
    Ensures (Unchanged Q maps) (onTables (read path k)) (· = .ok (rows.lookup k)) := by
  obtain ⟨map, order, pinned, perm, bytes⟩ := holding
  have nodup' : (order.map Prod.fst).Nodup := (perm.map Prod.fst).nodup_iff.mpr nodup
  refine (ensures_read lasting answered pinned k).mono fun answer eq => ?_
  rw [eq, bytes, value?_encodeRow, ← lookup_perm perm nodup']
  cases order.lookup k with
  | none => rfl
  | some v => rw [Option.map_some, Option.map_some, Layout.decode_encode]

/-- A pinned table of these rows, in an untroubled kernel, has them. -/
theorem holds_access [DecidableEq K] {rows : List (K × V)} (holding : Holding path rows maps)
    (nodup : (rows.map Prod.fst).Nodup) :
    (access K V path).Holds (Untroubled maps) rows := by
  have reads := ensures_read_of_holding lasting_unrefused (fun _ unrefused _ _ => unrefused)
    holding nodup
  obtain ⟨map, order, pinned, perm, bytes⟩ := holding
  have nodup' : (order.map Prod.fst).Nodup := (perm.map Prod.fst).nodup_iff.mpr nodup
  have distinct : (map.rows.map Prod.fst).Nodup := by
    rw [bytes]
    exact nodup_encodeRow nodup'
  have decoded : (map.rows.map fun r => row (.ok r)) =
      order.map (.ok : K × V → RowResult K V) := by
    rw [bytes, List.map_map]
    exact List.map_congr_left fun r _ => row_encodeRow r
  refine ⟨order, perm, ?_, ?_, ?_⟩
  · rw [untroubled_eq]
    exact reads
  · intro e refused
    cases refused
  · intro delivered shown
    cases shown
    refine (ensures_iterate pinned distinct).mono fun answer eq => ⟨_, eq, ?_⟩
    rw [decoded]
    exact delivers_fetched _

/-- At a path a map is pinned that maps keys to values as given, and nothing stands in the way
of calls about it. -/
structure Mapped (path : String) (f : K → Option V) (k : Kernel) : Prop where
  harmless : ∀ e ∈ k.events, e.Harmless
  pinned : ∃ map, k.map? path = some map ∧
    ∀ key, map.rows.value? (Layout.encode key) = (f key).map Layout.encode

/-- A pinned table of rows maps each key to the value of its row. -/
theorem mapped_of_holding [DecidableEq K] {rows : List (K × V)} {k : Kernel}
    (untroubled : Untroubled maps k) (holding : Holding path rows maps)
    (nodup : (rows.map Prod.fst).Nodup) : Mapped path (fun key => rows.lookup key) k := by
  obtain ⟨map, order, pinned, perm, bytes⟩ := holding
  refine ⟨untroubled.harmless, map, untroubled.unchanged.map?_eq pinned, ?_⟩
  intro key
  rw [bytes, value?_encodeRow,
    lookup_perm perm ((perm.map Prod.fst).nodup_iff.mpr nodup)]

namespace Mapped

variable {f : K → Option V} {k : Kernel}

theorem untroubled (h : Mapped path f k) : Untroubled k.maps k := ⟨rfl, h.harmless⟩

theorem of_untroubled (h : Mapped path f k) {k' : Kernel} (h' : Untroubled k.maps k') :
    Mapped path f k' := by
  obtain ⟨map, found, values⟩ := h.pinned
  exact ⟨h'.harmless, map, h'.unchanged.map?_eq found, values⟩

theorem read_eq (h : Mapped path f k) (key : K) : (read path key k).1 = .ok (f key) := by
  obtain ⟨map, found, values⟩ := h.pinned
  have answered := (ensures_read (V := V) lasting_unrefused (fun _ unrefused _ _ => unrefused)
    found key (.start k) h.untroubled.unchanged).1
  rw [values, Option.map_map] at answered
  refine answered.trans ?_
  cases f key with
  | none => rfl
  | some v => rw [Option.map_some, Function.comp_apply, Layout.decode_encode]

variable [DecidableEq K]

/-- Changing the row of one key changes the mapping there and nowhere else. -/
theorem update (h : Mapped path f k) {key : K} {value : Option V} {change : KernelRows → KernelRows}
    (changed : ∀ key' rows, KernelRows.value? key' (change rows) =
      if Layout.encode key = key' then value.map Layout.encode else KernelRows.value? key' rows) :
    Mapped path (Function.update f key value) (k.alter path change) := by
  obtain ⟨map, found, values⟩ := h.pinned
  refine ⟨h.harmless, _, map?_alter found _, ?_⟩
  intro key'
  rw [changed, values, Function.update_apply]
  by_cases same : key' = key
  · rw [if_pos same, if_pos (congrArg Layout.encode same.symm)]
  · rw [if_neg same, if_neg fun eq => same (Layout.encode_injective eq.symm)]

theorem store (h : Mapped path f k) (key : K) (value : V) :
    Mapped path (Function.update f key (some value))
      (k.alter path (KernelRows.store (Layout.encode key) (Layout.encode value))) :=
  h.update fun key' rows => KernelRows.value?_store _ _ key' rows

theorem remove (h : Mapped path f k) (key : K) :
    Mapped path (Function.update f key none)
      (k.alter path (KernelRows.remove (Layout.encode key))) :=
  h.update fun key' rows => KernelRows.value?_remove _ key' rows

theorem delete_eq (h : Mapped path f k) (key : K) :
    (delete path key k).1 = .ok (if (f key).isSome then .deleted else .alreadyAbsent) ∧
      Mapped path (Function.update f key none) (delete path key k).2 := by
  obtain ⟨k', still, eq⟩ := h.untroubled.call_eq path .delete fun k =>
    if (k.rows path).holds (Layout.encode key) then
      (.ok (), k.alter path (KernelRows.remove (Layout.encode key)))
    else (.error .absent, k)
  have after := h.of_untroubled still
  obtain ⟨map, found, values⟩ := after.pinned
  have holds : (k'.rows path).holds (Layout.encode key) = (f key).isSome := by
    rw [Kernel.rows, found, KernelRows.holds, values, Option.isSome_map]
  rw [holds] at eq
  cases present : f key with
  | none =>
      have unchanged : Function.update f key none = f := by
        rw [← present, Function.update_eq_self]
      have answered : delete path key k = (.ok .alreadyAbsent, k') := by
        simp only [delete, Kernel.delete, bind, StateT.bind, eq, present]
        rfl
      rw [answered, unchanged]
      exact ⟨rfl, after⟩
  | some v =>
      have answered : delete path key k =
          (.ok .deleted, k'.alter path (KernelRows.remove (Layout.encode key))) := by
        simp only [delete, Kernel.delete, bind, StateT.bind, eq, present]
        rfl
      rw [answered]
      exact ⟨rfl, after.remove key⟩

theorem put_eq (h : Mapped path f k) (key : K) (value : V) :
    (put path key value k).1 = .ok () ∧
      Mapped path (Function.update f key (some value)) (put path key value k).2 := by
  obtain ⟨k', still, eq⟩ := h.untroubled.call_eq path .update fun k =>
    (.ok (), k.alter path (KernelRows.store (Layout.encode key) (Layout.encode value)))
  have answered : put path key value k =
      (.ok (), k'.alter path (KernelRows.store (Layout.encode key) (Layout.encode value))) := by
    simp only [put, Kernel.update, bind, StateT.bind, eq]
    rfl
  rw [answered]
  exact ⟨rfl, (h.of_untroubled still).store key value⟩

end Mapped

/-- In a kernel that answers every call, a pinned table keeps its mapping. -/
theorem keeps_access [DecidableEq K] : (access K V path).Keeps (Mapped path) :=
  ⟨fun _ k _ h => h.read_eq k, fun _ k _ h => h.delete_eq k, fun _ k v _ h => h.put_eq k v⟩

/-- The four maps at their paths hold the given rows, each in whatever order. -/
structure HoldingAll (paths : MapPaths) (rows : TableRows) (maps : List KernelMap) : Prop where
  detail : Holding paths.detail rows.detail maps
  device : Holding paths.device rows.device maps
  ifaceNames : Holding paths.ifaceNames rows.ifaceNames maps
  cookieTags : Holding paths.cookieTags rows.cookieTags maps

def hashMap (path : String) (rows : List (K × V)) : KernelMap :=
  ⟨path, 1, Layout.size K, Layout.size V, rows.map encodeRow⟩

/-- A kernel with hash maps of the given rows at their paths. -/
def kernelOf (paths : MapPaths) (rows : TableRows) (events : List KernelEvent) : Kernel where
  maps := [hashMap paths.detail rows.detail, hashMap paths.device rows.device,
    hashMap paths.ifaceNames rows.ifaceNames, hashMap paths.cookieTags rows.cookieTags]
  events := events
  interrupted := false

/-- At the usual paths, which are distinct, it holds these rows. -/
theorem holdingAll_kernelOf (rows : TableRows) (events : List KernelEvent) :
    HoldingAll .default rows (kernelOf .default rows events).maps where
  detail := ⟨_, _, rfl, .refl _, rfl⟩
  device := ⟨_, _, rfl, .refl _, rfl⟩
  ifaceNames := ⟨_, _, rfl, .refl _, rfl⟩
  cookieTags := ⟨_, _, rfl, .refl _, rfl⟩

/-- In an untroubled kernel the four pinned tables have the rows that their maps hold. -/
theorem holds_tableSet {paths : MapPaths} {rows : TableRows}
    (holding : HoldingAll paths rows maps) (distinct : rows.Distinct) :
    (tableSet paths).Holds (Untroubled maps) rows where
  detail := holds_access holding.detail distinct.detail
  device := holds_access holding.device distinct.device
  ifaceNames := holds_access holding.ifaceNames distinct.ifaceNames
  cookieTags := holds_access holding.cookieTags distinct.cookieTags
  keepsNames := ⟨Mapped paths.ifaceNames, keeps_access,
    fun _ h => mapped_of_holding h holding.ifaceNames distinct.ifaceNames⟩
  keepsTags := ⟨Mapped paths.cookieTags, keeps_access,
    fun _ h => mapped_of_holding h holding.cookieTags distinct.cookieTags⟩

end Pinned

end TrafficStats
