import TrafficStats.Proofs.Shared.Schedule
import TrafficStats.Proofs.Table.Holding
import TrafficStats.Proofs.Total.Gathered

/-!
# Tables in memory that hold given rows

A table in memory that is filled with rows of distinct keys maps each key to the value of its
row. As long as no other process edits it, it has these rows, delivered in the order of
their keys, and keeps its mapping under deletes and writes.
-/

namespace TrafficStats

open Query RowResult

variable {K V : Type} [Ranked K]

namespace MemoryStore

/-- A table that maps keys to values as given and refuses nothing. -/
structure Maps (store : MemoryStore K V) (f : K → Option V) : Prop where
  available : store.unavailable = false
  deletable : store.failingDeletes = []
  get? : ∀ k, store.rows.get? k = (f k).map .live

namespace Maps

variable {store : MemoryStore K V} {f : K → Option V} {rows : List (K × V)}

theorem empty : (empty : MemoryStore K V).Maps fun _ => none := ⟨rfl, rfl, fun _ => rfl⟩

theorem read_eq (h : store.Maps f) (k : K) : store.read k = .ok (f k) := by
  rw [read, h.available, h.get?]
  cases f k <;> rfl

theorem allRows_eq (h : store.Maps f) : store.allRows = store.liveRows.map .ok := by
  have live : ∀ entry ∈ store.rows.entries, ∃ v, entry.2 = .live v := by
    intro entry hentry
    have found := (Rows.get?_eq_some_iff _ entry.1 entry.2).mpr hentry
    rw [h.get?, Option.map_eq_some_iff] at found
    obtain ⟨v, -, eq⟩ := found
    exact ⟨v, eq.symm⟩
  rw [allRows, liveRows]
  generalize store.rows.entries = entries at live
  induction entries with
  | nil => rfl
  | cons entry entries ih =>
      obtain ⟨k, slot⟩ := entry
      obtain ⟨v, rfl⟩ := live _ List.mem_cons_self
      have rest := ih fun other h => live other (List.mem_cons_of_mem _ h)
      rw [List.map_cons, rest]
      rfl

variable [DecidableEq K]

/-- Changing the row of one key changes the mapping there and nowhere else. -/
theorem update (h : store.Maps f) {k : K} {value : Option V} {changed : Rows K (Slot V)}
    (get? : ∀ k', changed.get? k' =
      if rank k = rank k' then value.map .live else store.rows.get? k') :
    { store with rows := changed }.Maps (Function.update f k value) := by
  refine ⟨h.available, h.deletable, ?_⟩
  intro k'
  rw [get?, h.get?, Function.update_apply]
  by_cases same : k' = k
  · rw [if_pos same, if_pos (rank_eq_rank_iff.mpr same.symm)]
  · rw [if_neg same, if_neg (mt rank_eq_rank_iff.mp (Ne.symm same))]

theorem insert (h : store.Maps f) (k : K) (v : V) :
    (store.insert k v).Maps (Function.update f k (some v)) :=
  h.update fun k' => store.rows.get?_insert k (.live v) k'

theorem remove (h : store.Maps f) (k : K) :
    (store.remove k).Maps (Function.update f k none) :=
  h.update fun k' => store.rows.get?_erase k k'

theorem foldl_insert (h : store.Maps f) (nodup : (rows.map Prod.fst).Nodup) :
    (rows.foldl (fun store row => store.insert row.1 row.2) store).Maps
      fun k => (rows.lookup k).or (f k) := by
  induction rows generalizing store f with
  | nil => exact h
  | cons row rows ih =>
      obtain ⟨k, v⟩ := row
      obtain ⟨absent, nodup⟩ := List.nodup_cons.mp nodup
      have same : (fun k' => (rows.lookup k').or (Function.update f k (some v) k')) =
          fun k' => (((k, v) :: rows).lookup k').or (f k') := by
        funext k'
        rw [List.lookup_cons, Function.update_apply]
        by_cases own : k' = k
        · subst own
          have unfound : rows.lookup k' = none := by
            rw [List.lookup_eq_none_iff]
            intro other hother
            rw [bne_iff_ne]
            intro same
            exact absent (List.mem_map.mpr ⟨other, hother, same.symm⟩)
          simp [unfound]
        · have differs : (k' == k) = false := beq_eq_false_iff_ne.mpr own
          simp [own, differs]
      rw [List.foldl_cons, ← same]
      exact ih (h.insert k v) nodup

/-- A table filled with rows of distinct keys maps each key to the value of its row. -/
theorem ofList (nodup : (rows.map Prod.fst).Nodup) :
    (MemoryStore.ofList rows).Maps fun k => rows.lookup k := by
  have filled := (empty (V := V)).foldl_insert nodup
  simp only [Option.or_none] at filled
  exact filled

theorem delete_eq (h : store.Maps f) (k : K) :
    (store.delete k).1 = .ok (if (f k).isSome then .deleted else .alreadyAbsent) ∧
      (store.delete k).2.Maps (Function.update f k none) := by
  have refuses : store.refusesDelete k = false := by
    rw [refusesDelete, h.deletable]
    rfl
  obtain ⟨refused, -⟩ | ⟨-, ⟨slot, found, eq⟩ | ⟨absent, eq⟩⟩ := store.delete_cases k
  · simp [h.available, refuses] at refused
  · rw [h.get?] at found
    have present : (f k).isSome := by
      cases unfound : f k with
      | none => simp [unfound] at found
      | some v => rfl
    rw [eq, if_pos present]
    exact ⟨rfl, h.remove k⟩
  · rw [h.get?, Option.map_eq_none_iff] at absent
    have unchanged : Function.update f k none = f := by
      rw [← absent, Function.update_eq_self]
    rw [eq, absent, unchanged]
    exact ⟨rfl, h⟩

theorem put_eq (h : store.Maps f) (k : K) (v : V) :
    (store.put k v).1 = .ok () ∧ (store.put k v).2.Maps (Function.update f k (some v)) := by
  rw [put, h.available]
  exact ⟨rfl, h.insert k v⟩

/-- If it maps each key to the value of its row, these are its rows, in some order. -/
theorem liveRows_perm (h : store.Maps fun k => rows.lookup k)
    (nodup : (rows.map Prod.fst).Nodup) : store.liveRows.Perm rows := by
  refine (List.perm_ext_iff_of_nodup ?_ ?_).mpr ?_
  · exact store.nodup_liveRows.of_map
  · exact nodup.of_map
  · rintro ⟨k, v⟩
    rw [mem_liveRows, h.get?, ← lookup_eq_some_iff_of_nodup nodup, Option.map_eq_some_iff]
    constructor
    · rintro ⟨v', found, eq⟩
      cases eq
      exact found
    · intro found
      exact ⟨v, found, rfl⟩

end Maps

end MemoryStore

namespace SharedTables

variable {field : TableField K V}

/-- Nobody is going to edit the tables, and one of them maps keys to values as given. -/
structure Mapped (field : TableField K V) (f : K → Option V) (s : SharedTables) : Prop where
  pending : s.pending = []
  maps : (field.get s.tables).Maps f

theorem mapped_of_undisturbed {tables : MemoryTables} {f : K → Option V}
    (maps : (field.get tables).Maps f) {s : SharedTables} (h : Undisturbed tables s) :
    Mapped field f s := by
  refine ⟨h.pending, ?_⟩
  rw [h.tables]
  exact maps

variable [DecidableEq K]

/-- A table of these rows that nobody edits has them. -/
theorem holds_access {tables : MemoryTables} {rows : List (K × V)}
    (maps : (field.get tables).Maps fun k => rows.lookup k) (nodup : (rows.map Prod.fst).Nodup) :
    (access field).Holds (Undisturbed tables) rows := by
  refine ⟨(field.get tables).liveRows, maps.liveRows_perm nodup, ?_⟩
  have read : (field.get tables).read = fun k => .ok (rows.lookup k) := funext maps.read_eq
  have dump : (field.get tables).dump = .ok ((field.get tables).liveRows.map .ok) := by
    rw [MemoryStore.dump, maps.available, ← maps.allRows_eq]
    rfl
  rw [← read, ← dump]
  exact shows_access field

/-- As long as nobody edits the tables, each keeps its mapping. -/
theorem keeps_access (lawful : field.Lawful) : (access field).Keeps (Mapped field) := by
  have unmoved : ∀ (s : SharedTables) (kind : CallKind), s.pending = [] →
      s.before field.name kind = s :=
    fun s kind quiet => Undisturbed.before_eq ⟨rfl, quiet⟩ field.name kind
  refine ⟨?_, ?_, ?_⟩
  · intro f k s held
    simp only [access, look, unmoved s .read held.pending]
    exact held.maps.read_eq k
  · intro f k s held
    simp only [access, call, unmoved s .delete held.pending]
    obtain ⟨answer, after⟩ := held.maps.delete_eq k
    refine ⟨answer, held.pending, ?_⟩
    rw [lawful.get_set]
    exact after
  · intro f k v s held
    simp only [access, call, unmoved s .put held.pending]
    obtain ⟨answer, after⟩ := held.maps.put_eq k v
    refine ⟨answer, held.pending, ?_⟩
    rw [lawful.get_set]
    exact after

end SharedTables

/-- The four tables in memory, filled with rows. -/
def MemoryTables.ofRows (rows : TableRows) : MemoryTables :=
  ⟨.ofList rows.detail, .ofList rows.device, .ofList rows.ifaceNames, .ofList rows.cookieTags⟩

namespace SharedTables

variable {rows : TableRows}

/-- Tables filled with rows of distinct keys have them. -/
theorem holds_tableSet (distinct : rows.Distinct) :
    tableSet.Holds (Undisturbed (.ofRows rows)) rows where
  detail := holds_access (.ofList distinct.detail) distinct.detail
  device := holds_access (.ofList distinct.device) distinct.device
  ifaceNames := holds_access (.ofList distinct.ifaceNames) distinct.ifaceNames
  cookieTags := holds_access (.ofList distinct.cookieTags) distinct.cookieTags
  keepsNames := ⟨Mapped .ifaceNames, keeps_access TableField.lawful_ifaceNames,
    fun _ h => mapped_of_undisturbed (.ofList distinct.ifaceNames) h⟩
  keepsTags := ⟨Mapped .cookieTags, keeps_access TableField.lawful_cookieTags,
    fun _ h => mapped_of_undisturbed (.ofList distinct.cookieTags) h⟩

end SharedTables

end TrafficStats
