import TrafficStats.Store.Error

/-!
# Kernel maps

A kernel map holds rows of bytes. Its rows keep the order in which their keys came in:
storing under a key that is there replaces the value in its place. A walk asks for the
key after a given one. If that key is gone, the walk is sent back to the first key, so
only a map whose keys stay is walked in order.
-/

namespace TrafficStats

/-- A key or a value as the kernel holds it. -/
abbrev Bytes := List UInt8

/-- The rows of a kernel map, in the order in which their keys came in. -/
abbrev KernelRows := List (Bytes × Bytes)

namespace KernelRows

/-- Stores a value, in the place of the key or, for a new key, after all others. -/
def store (key value : Bytes) : KernelRows → KernelRows
  | [] => [(key, value)]
  | row :: rest =>
    if row.1 = key then (key, value) :: rest else row :: store key value rest

def remove (key : Bytes) (rows : KernelRows) : KernelRows :=
  rows.filter fun row => row.1 ≠ key

def value? (key : Bytes) : KernelRows → Option Bytes
  | [] => none
  | row :: rest => if row.1 = key then some row.2 else value? key rest

def holds (key : Bytes) (rows : KernelRows) : Bool :=
  (rows.value? key).isSome

def firstKey? : KernelRows → Option Bytes
  | [] => none
  | row :: _ => some row.1

/-- The keys from the one after a given key on, for a key that has a row. -/
def afterKey (key : Bytes) : KernelRows → KernelRows
  | [] => []
  | row :: rest => if row.1 = key then rest else afterKey key rest

/-- The key after a given one. After no key comes the first, and so it does after a key
that has no row. -/
def nextKey? (key : Option Bytes) (rows : KernelRows) : Option Bytes :=
  match key with
  | none => rows.firstKey?
  | some key => if rows.holds key then (rows.afterKey key).firstKey? else rows.firstKey?

def ofList (rows : List (Bytes × Bytes)) : KernelRows :=
  rows.foldl (fun kept row => kept.store row.1 row.2) []

end KernelRows

/-- A map of the kernel, pinned at a path. -/
structure KernelMap where
  path : String
  mapType : Nat
  keySize : Nat
  valueSize : Nat
  rows : KernelRows

/-- Whether a map of this type is a hash map: a plain one, or one that evicts the row used
longest ago. -/
def isHashType (mapType : Nat) : Bool :=
  mapType = 1 ∨ mapType = 9

def KernelMap.shapeFault? (map : KernelMap) (keySize valueSize : Nat) : Option ShapeFault :=
  if !isHashType map.mapType then some (.mapType map.mapType)
  else if map.keySize ≠ keySize then some (.keySize keySize map.keySize)
  else if map.valueSize ≠ valueSize then some (.valueSize valueSize map.valueSize)
  else none

end TrafficStats
