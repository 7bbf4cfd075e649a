import TrafficStats.NameField
import TrafficStats.Counters
import TrafficStats.Store.Memory

/-!
# The four tables in memory

Another process changes the tables by edits, each of which concerns one table. An edit
never fails and is never delayed: it is made whatever state the table is in.
-/

namespace TrafficStats

/-- The four tables of the service, in memory. -/
structure MemoryTables where
  detail : MemoryStore DetailKey RawCounters
  device : MemoryStore UInt32 RawCounters
  ifaceNames : MemoryStore UInt32 NameField
  cookieTags : MemoryStore UInt64 SocketTag

def MemoryTables.empty : MemoryTables := ⟨.empty, .empty, .empty, .empty⟩

inductive TableEdit where
  | detail (e : StoreEdit DetailKey RawCounters)
  | device (e : StoreEdit UInt32 RawCounters)
  | ifaceNames (e : StoreEdit UInt32 NameField)
  | cookieTags (e : StoreEdit UInt64 SocketTag)

def TableEdit.apply (tables : MemoryTables) : TableEdit → MemoryTables
  | .detail e => { tables with detail := e.apply tables.detail }
  | .device e => { tables with device := e.apply tables.device }
  | .ifaceNames e => { tables with ifaceNames := e.apply tables.ifaceNames }
  | .cookieTags e => { tables with cookieTags := e.apply tables.cookieTags }

def MemoryTables.edit (tables : MemoryTables) (edits : List TableEdit) : MemoryTables :=
  edits.foldl TableEdit.apply tables

end TrafficStats
