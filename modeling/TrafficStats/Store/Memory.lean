import TrafficStats.Store.Cursor

/-!
# Tables in memory

A table in memory behaves like a kernel map that other processes edit. An enumeration
fixes the keys when it starts and looks each row up when its turn comes. Failures are
part of the state: the table can be marked unavailable, single rows can be unreadable and
deleting a given key can be made to fail. The mark is looked at when an operation starts;
an enumeration that is under way does not look again.
-/

namespace TrafficStats

/-- The outcome of a delete that was not refused. A row that is gone already is no
failure. -/
inductive DeleteOutcome where
  | deleted
  | alreadyAbsent
  deriving DecidableEq

/-- A table in memory. It can be made unavailable, and deletes of chosen keys can be made to
fail. -/
structure MemoryStore (K V : Type) [Ranked K] where
  rows : Rows K (Slot V)
  unavailable : Bool
  failingDeletes : List K

namespace MemoryStore

variable {K V : Type} [Ranked K]

def empty : MemoryStore K V := ⟨.empty, false, []⟩

def insert (store : MemoryStore K V) (k : K) (v : V) : MemoryStore K V :=
  { store with rows := store.rows.insert k (.live v) }

def insertMalformed (store : MemoryStore K V) (k : K) (reason : String) : MemoryStore K V :=
  { store with rows := store.rows.insert k (.malformed reason) }

def remove (store : MemoryStore K V) (k : K) : MemoryStore K V :=
  { store with rows := store.rows.erase k }

def setUnavailable (store : MemoryStore K V) (on : Bool) : MemoryStore K V :=
  { store with unavailable := on }

/-- Makes deletes of a key fail from now on. -/
def failDeletesOf (store : MemoryStore K V) (k : K) : MemoryStore K V :=
  { store with failingDeletes := k :: store.failingDeletes }

def ofList (pairs : List (K × V)) : MemoryStore K V :=
  pairs.foldl (fun store pair => store.insert pair.1 pair.2) empty

def contains (store : MemoryStore K V) (k : K) : Bool :=
  store.rows.contains k

def size (store : MemoryStore K V) : Nat :=
  store.rows.size

def refusesDelete (store : MemoryStore K V) (k : K) : Bool :=
  store.failingDeletes.any fun k' => rank k' = rank k

/-- Reads one row. That there is none is an answer, not a failure. -/
def read (store : MemoryStore K V) (k : K) : Except StoreError (Option V) :=
  if store.unavailable then .error .markedUnavailable
  else
    match store.rows.get? k with
    | none => .ok none
    | some (.live v) => .ok (some v)
    | some (.malformed reason) => .error (.unreadable ⟨reason⟩)

/-- Starts an enumeration of the keys that are there now. -/
def iterate (store : MemoryStore K V) : Except StoreError (Cursor K V) :=
  if store.unavailable then .error .markedUnavailable
  else .ok (store.rows.keys.map .key)

theorem eq_keys_of_iterate {store : MemoryStore K V} {c : Cursor K V}
    (h : store.iterate = .ok c) : c = store.rows.keys.map .key := by
  unfold iterate at h
  cases hu : store.unavailable with
  | true => simp [hu] at h
  | false =>
      rw [hu] at h
      cases h
      rfl

def next (store : MemoryStore K V) (c : Cursor K V) :
    Option (RowResult K V × Cursor K V) :=
  c.next store.rows.get?

def allRows (store : MemoryStore K V) : List (RowResult K V) :=
  store.rows.entries.map fun e => e.2.row e.1

def dump (store : MemoryStore K V) : Except StoreError (List (RowResult K V)) :=
  if store.unavailable then .error .markedUnavailable else .ok store.allRows

/-- Deletes a row. A key whose deletes fail is refused even if it has no row. -/
def delete (store : MemoryStore K V) (k : K) :
    Except StoreError DeleteOutcome × MemoryStore K V :=
  if store.unavailable then (.error .markedUnavailable, store)
  else if store.refusesDelete k then (.error .deleteRefused, store)
  else if store.contains k then (.ok .deleted, store.remove k)
  else (.ok .alreadyAbsent, store)

/-- What a delete does: it is refused, or it removes the row, or there is no row. -/
theorem delete_cases (store : MemoryStore K V) (k : K) :
    ((store.unavailable = true ∨ store.refusesDelete k = true) ∧
      ∃ e, store.delete k = (.error e, store)) ∨
    ((store.unavailable = false ∧ store.refusesDelete k = false) ∧
      ((∃ slot, store.rows.get? k = some slot ∧ store.delete k = (.ok .deleted, store.remove k)) ∨
        store.rows.get? k = none ∧ store.delete k = (.ok .alreadyAbsent, store))) := by
  unfold delete
  cases hu : store.unavailable with
  | true => exact .inl ⟨.inl rfl, _, rfl⟩
  | false =>
      cases hr : store.refusesDelete k with
      | true => exact .inl ⟨.inr rfl, _, rfl⟩
      | false =>
          refine .inr ⟨⟨rfl, rfl⟩, ?_⟩
          cases hk : store.rows.get? k with
          | none => exact .inr ⟨rfl, by simp [contains, Rows.contains, hk]⟩
          | some slot => exact .inl ⟨slot, rfl, by simp [contains, Rows.contains, hk]⟩

@[simp] theorem get?_remove_self (store : MemoryStore K V) (k : K) :
    (store.remove k).rows.get? k = none := by
  rw [remove, Rows.get?_erase, if_pos rfl]

def put (store : MemoryStore K V) (k : K) (v : V) : Except StoreError Unit × MemoryStore K V :=
  if store.unavailable then (.error .markedUnavailable, store)
  else (.ok (), store.insert k v)

end MemoryStore

/-- A change that another process makes to a table. -/
inductive StoreEdit (K V : Type) where
  | insert (k : K) (v : V)
  | malformed (k : K) (reason : String)
  | remove (k : K)
  | unavailable (on : Bool)
  | failDeletes (k : K)

def StoreEdit.apply {K V : Type} [Ranked K] (store : MemoryStore K V) :
    StoreEdit K V → MemoryStore K V
  | .insert k v => store.insert k v
  | .malformed k reason => store.insertMalformed k reason
  | .remove k => store.remove k
  | .unavailable on => store.setUnavailable on
  | .failDeletes k => store.failDeletesOf k

end TrafficStats
