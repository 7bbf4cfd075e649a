import TrafficStats.Config
import TrafficStats.Kernel.Calls
import TrafficStats.Kernel.Layout
import TrafficStats.Table.Access

/-!
# Tables in pinned kernel maps

A pinned table is a kernel map whose rows are laid out as keys and values. An enumeration
walks the whole map at once, by asking for one key after the other and looking each up;
what it fetched is then handed out row by row. A row that vanished between the two calls
is skipped, and a row that cannot be looked up is unreadable. A walk whose first item is a
failure is no walk at all, whichever of the two calls failed; later failures leave a row
behind that cannot be read, and a failure to find the next key ends the walk.
-/

namespace TrafficStats

/-- A row of a walk: its bytes, or the call that failed. -/
abbrev Fetched := Except KernelCall (Bytes × Bytes)

namespace Kernel

/-- Walks on after the first item, in at most so many steps. -/
def walkRest (path : String) : Nat → Bytes → StateM Kernel (List Fetched)
  | 0, _ => pure []
  | steps + 1, key => do
    match ← nextKey path (some key) with
    | .error .absent => pure []
    | .error .failed => pure [.error .nextKey]
    | .ok key =>
      match ← lookup path key with
      | .error .absent => walkRest path steps key
      | .error .failed => return .error .lookup :: (← walkRest path steps key)
      | .ok value => return .ok (key, value) :: (← walkRest path steps key)

/-- Walks through a map after a key, in at most so many steps. A failure before there is any
item ends the walk. -/
def walkFrom (path : String) :
    Nat → Option Bytes → StateM Kernel (Except KernelCall (List Fetched))
  | 0, _ => pure (.ok [])
  | steps + 1, key => do
    match ← nextKey path key with
    | .error .absent => pure (.ok [])
    | .error .failed => pure (.error .nextKey)
    | .ok key =>
      match ← lookup path key with
      | .error .absent => walkFrom path steps (some key)
      | .error .failed => pure (.error .lookup)
      | .ok value => return .ok (.ok (key, value) :: (← walkRest path steps key))

/-- At least as many steps as a walk over a map with distinct keys can take, also while the map
changes. Between two events a walk comes to no row twice, and there are never more rows than the
map has now and all changes can add. -/
def walkBudget (k : Kernel) (path : String) : Nat :=
  let changes := KernelEvent.total (fun e => e.changes.length) k.events
  (k.events.length + 1) * ((k.rows path).length + changes + 2)

def walk (path : String) : StateM Kernel (Except KernelCall (List Fetched)) := fun k =>
  walkFrom path (k.walkBudget path) none k

end Kernel

namespace Pinned

variable {K V : Type} [Layout K] [Layout V]

def row : Fetched → RowResult K V
  | .ok (key, value) => .ok (Layout.decode key, Layout.decode value)
  | .error call => .error ⟨call.failure⟩

/-- Why a map cannot serve as a table with the given keys and values, if it cannot. -/
def refusal? (K V : Type) [Layout K] [Layout V] (path : String) (map : KernelMap) :
    Option StoreError :=
  if mapTypeCount ≤ map.mapType then some .typeUnlisted
  else (map.shapeFault? (Layout.size K) (Layout.size V)).map (.wrongShape path)

/-- Opens the map at a path as a table with the given keys and values. The kernel is not
asked about a path that holds the character NUL. -/
def openTable (K V : Type) [Layout K] [Layout V] (path : String) :
    StateM Kernel (Except StoreError Unit) := do
  if path.toList.contains '\x00' then
    pure (.error (.nulInPath path))
  else
    match ← Kernel.openPath path with
    | .error _ => pure (.error (.openFailed path .openPath))
    | .ok () =>
      match ← Kernel.info path with
      | .error _ => pure (.error (.openFailed path .info))
      | .ok _ =>
        match ← Kernel.info path with
        | .error _ => pure (.error .typeUnknown)
        | .ok map =>
          match refusal? K V path map with
          | some e => pure (.error e)
          | none => pure (.ok ())

def read (path : String) (k : K) : StateM Kernel (Except StoreError (Option V)) := do
  match ← Kernel.lookup path (Layout.encode k) with
  | .ok value => pure (.ok (some (Layout.decode value)))
  | .error .absent => pure (.ok none)
  | .error .failed => pure (.error (.callFailed .lookup))

def rows (path : String) : StateM Kernel (Except StoreError (List (RowResult K V))) := do
  match ← Kernel.walk path with
  | .error call => pure (.error (.walkFailed path call))
  | .ok fetched => pure (.ok (fetched.map row))

/-- Starts an enumeration, which fetches all its rows at once. -/
def iterate (path : String) : StateM Kernel (Except StoreError (Cursor K V)) := do
  match ← rows path with
  | .error e => pure (.error e)
  | .ok fetched => pure (.ok (fetched.map .row))

def delete (path : String) (k : K) : StateM Kernel (Except StoreError DeleteOutcome) := do
  match ← Kernel.delete path (Layout.encode k) with
  | .ok () => pure (.ok .deleted)
  | .error .absent => pure (.ok .alreadyAbsent)
  | .error .failed => pure (.error (.callFailed .delete))

def put (path : String) (k : K) (v : V) : StateM Kernel (Except StoreError Unit) := do
  match ← Kernel.update path (Layout.encode k) (Layout.encode v) with
  | .ok () => pure (.ok ())
  | .error _ => pure (.error (.callFailed .update))

/-- Access to the map at a path. Its rows are fetched when an enumeration starts, so the
steps of the enumeration make no calls. -/
def access (K V : Type) [Layout K] [Layout V] (path : String) : TableAccess Kernel K V where
  read := read path
  iterate := iterate path
  next c := pure (c.next fun _ => none)
  delete := delete path
  put := put path
  next_shorter _ _ _ _ h := Cursor.length_lt_of_next h

def tableSet (paths : MapPaths) : TableSet Kernel :=
  ⟨access DetailKey RawCounters paths.detail, access UInt32 RawCounters paths.device,
    access UInt32 NameField paths.ifaceNames, access UInt64 SocketTag paths.cookieTags⟩

def openNamed (K V : Type) [Layout K] [Layout V] (table : TableName) (path : String) :
    ExceptT QueryError (StateM Kernel) Unit := do
  match ← openTable K V path with
  | .error e => throw (.tableUnavailable table e)
  | .ok () => pure ()

/-- Opens the four maps in their order, up to the first one that cannot be opened. -/
def openTables (paths : MapPaths) : ExceptT QueryError (StateM Kernel) (TableSet Kernel) := do
  openNamed DetailKey RawCounters .detail paths.detail
  openNamed UInt32 RawCounters .device paths.device
  openNamed UInt32 NameField .ifaceNames paths.ifaceNames
  openNamed UInt64 SocketTag .cookieTags paths.cookieTags
  pure (tableSet paths)

end Pinned

end TrafficStats
