import TrafficStats.Accounting
import TrafficStats.Proofs.Report.Rows
import TrafficStats.Proofs.Total.Rows

/-!
# Shared tables that nobody edits

As long as nobody is going to edit the shared tables, they show their contents: a read
answers from the rows, and an enumeration delivers all rows in key order
(`shows_access`). Every query of the service that leaves the tables alone then has an
answer that depends on nothing but the contents of the tables: `Gives` says which.
-/

namespace TrafficStats

open Query RowResult

variable {K V : Type}

namespace Slot

/-- The row of a key and its slot, if it can be read. -/
def liveRow? : K × Slot V → Option (K × V)
  | (k, .live v) => some (k, v)
  | (_, .malformed _) => none

theorem toOption_row (entry : K × Slot V) : (entry.2.row entry.1).toOption = liveRow? entry := by
  obtain ⟨k, slot⟩ := entry
  cases slot <;> rfl

end Slot

variable [Ranked K]

namespace MemoryStore

def liveRows (store : MemoryStore K V) : List (K × V) :=
  store.rows.entries.filterMap Slot.liveRow?

def malformedRows (store : MemoryStore K V) : Nat :=
  store.rows.entries.countP fun entry => (Slot.liveRow? entry).isNone

variable (store : MemoryStore K V)

theorem readable_allRows : readable store.allRows = store.liveRows := by
  rw [readable, allRows, List.filterMap_map]
  exact congrArg (List.filterMap · _) (funext Slot.toOption_row)

theorem unreadable_allRows : unreadable store.allRows = store.malformedRows := by
  rw [unreadable, allRows, List.countP_map]
  exact congrArg (List.countP · _) (funext fun entry => congrArg _ (Slot.toOption_row entry))

theorem mem_liveRows (k : K) (v : V) :
    (k, v) ∈ store.liveRows ↔ store.rows.get? k = some (.live v) := by
  rw [Rows.get?_eq_some_iff, liveRows, List.mem_filterMap]
  constructor
  · rintro ⟨⟨k', slot⟩, hmem, live⟩
    cases slot with
    | live v' =>
        cases live
        exact hmem
    | malformed reason => cases live
  · intro hmem
    exact ⟨_, hmem, rfl⟩

theorem sorted_liveRows : store.liveRows.Pairwise fun row later => rank row.1 < rank later.1 := by
  rw [liveRows, List.pairwise_filterMap]
  refine store.rows.sorted.imp ?_
  rintro ⟨k, slot⟩ ⟨k', slot'⟩ less row live row' live'
  cases slot with
  | malformed reason => cases live
  | live v =>
      cases slot' with
      | malformed reason => cases live'
      | live v' =>
          cases live
          cases live'
          exact less

/-- Every row can be read or cannot. -/
theorem length_liveRows_add : store.liveRows.length + store.malformedRows = store.size := by
  have each : store.allRows.length = store.size := List.length_map _
  rw [← readable_allRows, ← unreadable_allRows, ← each, length_readable_add]

theorem read_of_mem_liveRows (available : store.unavailable = false) {row : K × V}
    (mem : row ∈ store.liveRows) : store.read row.1 = .ok (some row.2) := by
  rw [mem_liveRows] at mem
  simp [read, available, mem]

end MemoryStore

namespace SharedTables

/-- The tables are as given, and nobody is going to edit them. -/
structure Undisturbed (tables : MemoryTables) (s : SharedTables) : Prop where
  tables : s.tables = tables
  pending : s.pending = []

variable {tables : MemoryTables}

theorem undisturbed_quiet (tables : MemoryTables) : Undisturbed tables (quiet tables) :=
  ⟨rfl, rfl⟩

theorem Undisturbed.before_eq {s : SharedTables} (h : Undisturbed tables s) (name : TableName)
    (kind : CallKind) : s.before name kind = s := by
  obtain ⟨tables', pending, history⟩ := s
  obtain ⟨-, rfl⟩ := h
  rfl

variable (field : TableField K V)

/-- A call that only looks at a table answers from its contents. -/
theorem ensures_look {α : Type} (kind : CallKind) (answer : MemoryStore K V → α)
    (event : α → StoreCall K V) :
    Ensures (Undisturbed tables) (onTables (look field kind answer event))
      (· = answer (field.get tables)) := by
  intro s hs
  simp only [onTables, look, hs.before_eq]
  rw [hs.tables]
  exact ⟨rfl, ⟨rfl, hs.pending⟩⟩

/-- An enumeration that has the keys of these entries to visit delivers their rows. -/
theorem delivers_entries {entries : List (K × Slot V)}
    (present : ∀ entry ∈ entries, (field.get tables).rows.get? entry.1 = some entry.2) :
    (access field).Delivers (Undisturbed tables)
      (entries.map fun entry => entry.2.row entry.1)
      (entries.map fun entry => .key entry.1) := by
  induction entries with
  | nil => exact ensures_look field .next _ _
  | cons entry entries ih =>
      refine (ensures_look field .next _ _).mono fun answer eq => ?_
      refine ⟨_, ?_, ih fun other h => present other (List.mem_cons_of_mem _ h)⟩
      rw [eq, List.map_cons, MemoryStore.next, Cursor.next, present entry List.mem_cons_self]

/-- Tables that nobody edits show their contents. -/
theorem shows_access :
    (access field).Shows (Undisturbed tables) (field.get tables).read (field.get tables).dump := by
  have started : Ensures (Undisturbed tables) (onTables (access field).iterate)
      (· = (field.get tables).iterate) := ensures_look field .iterate _ _
  cases available : (field.get tables).unavailable with
  | true =>
      refine ⟨fun k => ensures_look field .read _ _, ?_, ?_⟩
      · intro e refused
        simp only [MemoryStore.dump, MemoryStore.iterate, available] at refused started
        cases refused
        exact started
      · intro delivered shown
        simp [MemoryStore.dump, available] at shown
  | false =>
      refine ⟨fun k => ensures_look field .read _ _, ?_, ?_⟩
      · intro e refused
        simp [MemoryStore.dump, available] at refused
      · intro delivered shown
        simp only [MemoryStore.dump, MemoryStore.iterate, available] at shown started
        cases shown
        refine started.mono fun answer eq => ⟨_, eq, ?_⟩
        rw [Rows.keys, List.map_map]
        exact delivers_entries field fun entry h => (Rows.get?_eq_some_iff _ _ _).mpr h

/-- An available table shows all of its rows. -/
theorem shows_of_available (available : (field.get tables).unavailable = false) :
    (access field).Shows (Undisturbed tables) (field.get tables).read
      (.ok (field.get tables).allRows) := by
  have shows : (access field).Shows (Undisturbed tables) (field.get tables).read
      (field.get tables).dump := shows_access field
  rwa [MemoryStore.dump, available] at shows

/-- Asked while nobody edits the tables, a query gives this answer and leaves them alone. -/
def Gives {α : Type} (tables : MemoryTables) (q : Query SharedTables α) (answer : α) : Prop :=
  Ensures (Undisturbed tables) q (· = answer)

/-- A query has one answer. -/
theorem Gives.answer_eq {α : Type} {q : Query SharedTables α} {answer : α}
    (h : Gives tables q answer) : (q (.start (quiet tables))).1 = answer :=
  (h _ (undisturbed_quiet tables)).1

end SharedTables

open SharedTables

/-- What a sum or a report answers if it is computed from all rows of a table. -/
theorem answerFrom_dump {α : Type} (name : TableName) (store : MemoryStore K V)
    (ofRows : List (RowResult K V) → α) :
    answerFrom name store.dump ofRows =
      if store.unavailable then .error (.tableUnavailable name .markedUnavailable)
      else .ok (ofRows store.allRows) := by
  unfold MemoryStore.dump
  split <;> rfl

namespace MemoryTables

variable (tables : MemoryTables)

def interfaceName? (ifaceIndex : UInt32) : Option String :=
  NameField.named? (tables.ifaceNames.read ifaceIndex)

/-- A name is kept whole in a record. -/
theorem bounded_interfaceName? {ifaceIndex : UInt32} {name : String}
    (h : tables.interfaceName? ifaceIndex = some name) :
    Text.bounded maxIfaceBytes name = name := by
  unfold interfaceName? NameField.named? at h
  split at h
  · obtain ⟨field, -, named⟩ := Option.bind_eq_some_iff.mp h
    exact NameField.bounded_of_name? named
  · cases h

/-- The report of the rows of a table as they are. -/
def reportOf (source : CounterTable SharedTables K) (store : MemoryStore K RawCounters) :
    Report :=
  ⟨store.liveRows.filterMap (source.record? tables.interfaceName?), store.malformedRows⟩

end MemoryTables

/-- The total over the rows of a table as they are. -/
def MemoryStore.totalOf (store : MemoryStore K RawCounters) (kept : K → Bool) : Total :=
  ⟨Counters.sum (Total.keptCounters kept store.liveRows), store.malformedRows⟩

namespace SharedTables

variable {tables : MemoryTables}

theorem gives_resolve (ifaceIndex : UInt32) :
    Gives tables ((access .ifaceNames).resolve ifaceIndex) (tables.interfaceName? ifaceIndex) :=
  (shows_access .ifaceNames).resolve ifaceIndex

/-- The report of an available table holds what there is in the tables. -/
theorem gives_read {source : CounterTable SharedTables K} (field : TableField K RawCounters)
    (shared : source.access = access field) (available : (field.get tables).unavailable = false)
    (t : Tracker) :
    Gives tables (Prod.fst <$> Report.read source (access .ifaceNames) t)
      (.ok (tables.reportOf source (field.get tables))) := by
  have shows : source.access.Shows (Undisturbed tables) (field.get tables).read
      (field.get tables).dump := by
    rw [shared]
    exact shows_access field
  refine .map ((Report.ensures_read shows gives_resolve t).mono fun outcome eq => ?_)
  rw [eq, answerFrom_dump, available, CounterTable.report, MemoryStore.readable_allRows,
    MemoryStore.unreadable_allRows]
  rfl

/-- The total over an available table holds what there is in the tables. -/
theorem gives_ofRows {name : TableName} (field : TableField K RawCounters)
    {keep : K → Query SharedTables Bool} {kept : K → Bool}
    (available : (field.get tables).unavailable = false)
    (decides : ∀ k, Gives tables (keep k) (kept k)) :
    Gives tables (Total.ofRows name (access field) keep)
      (.ok ((field.get tables).totalOf kept)) := by
  refine (Total.ensures_ofRows (shows_access field) name decides).mono fun answer eq => ?_
  rw [eq, answerFrom_dump, available, Total.ofKept, MemoryStore.readable_allRows,
    MemoryStore.unreadable_allRows]
  rfl

end SharedTables

end TrafficStats
