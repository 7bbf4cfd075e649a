import TrafficStats.Store.Memory

/-!
# Interleaved use of one table

A `Script` is a table in memory together with enumerations of it that are under way, each
kept under a name. Its steps are the operations of the table, the changes that other
processes make and single steps of the enumerations, in any order: this is where
enumerations and changes interleave freely.
-/

namespace TrafficStats

/-- A table and the enumerations of it that are under way. -/
structure Script (K V : Type) [Ranked K] where
  store : MemoryStore K V
  cursors : List (String × Cursor K V)

namespace Script

/-- One step on a table or on a named enumeration of it. -/
inductive Step (K V : Type) where
  | edit (e : StoreEdit K V)
  | contains (k : K)
  | isEmpty
  | size
  | read (k : K)
  | delete (k : K)
  | put (k : K) (v : V)
  | dump
  | start (name : String)
  | next (name : String)

inductive Answer (K V : Type) where
  | done
  | flag (b : Bool)
  | count (n : Nat)
  | value (r : Except StoreError (Option V))
  | deletion (r : Except StoreError DeleteOutcome)
  | accepted (r : Except StoreError Unit)
  | rows (r : Except StoreError (List (RowResult K V)))
  | row (r : Option (RowResult K V))

variable {K V : Type} [Ranked K]

/-- What the named enumeration still has to visit; an unknown one is at its end. -/
def cursor (s : Script K V) (name : String) : Cursor K V :=
  (s.cursors.lookup name).getD []

def setCursor (s : Script K V) (name : String) (c : Cursor K V) : Script K V :=
  { s with cursors := (name, c) :: s.cursors.filter fun entry => entry.1 ≠ name }

def step (s : Script K V) : Step K V → Answer K V × Script K V
  | .edit e => (.done, { s with store := e.apply s.store })
  | .contains k => (.flag (s.store.contains k), s)
  | .isEmpty => (.flag (s.store.size = 0), s)
  | .size => (.count s.store.size, s)
  | .read k => (.value (s.store.read k), s)
  | .delete k =>
    let (result, store) := s.store.delete k
    (.deletion result, { s with store })
  | .put k v =>
    let (result, store) := s.store.put k v
    (.accepted result, { s with store })
  | .dump => (.rows s.store.dump, s)
  | .start name =>
    match s.store.iterate with
    | .error e => (.accepted (.error e), s)
    | .ok c => (.accepted (.ok ()), s.setCursor name c)
  | .next name =>
    match s.store.next (s.cursor name) with
    | none => (.row none, s.setCursor name [])
    | some (r, rest) => (.row (some r), s.setCursor name rest)

end Script

end TrafficStats
