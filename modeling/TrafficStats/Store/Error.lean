import TrafficStats.Text.Decimal

/-!
# What can go wrong with a table

A table can refuse an operation as a whole, `StoreError`, or deliver a single row that
cannot be read, `RowError`. A query reports one `QueryError`: the table that failed and
why, or an interface that the host does not have. Each error is a cause; its wording is
given by `message`, and `chain` lists the messages of an error and of what caused it.
-/

namespace TrafficStats

inductive TableName where
  | detail
  | device
  | ifaceNames
  | cookieTags
  deriving DecidableEq

/-- What messages call a table. -/
def TableName.label : TableName → String
  | .detail => "detail"
  | .device => "device"
  | .ifaceNames => "iface names"
  | .cookieTags => "cookie tag"

inductive KernelCall where
  | openPath
  | info
  | nextKey
  | lookup
  | update
  | delete
  deriving DecidableEq

def KernelCall.name : KernelCall → String
  | .openPath => "BPF_OBJ_GET"
  | .info => "bpf_obj_get_info_by_fd"
  | .nextKey => "bpf_map_get_next_key"
  | .lookup => "bpf_map_lookup_elem"
  | .update => "bpf_map_update_elem"
  | .delete => "bpf_map_delete_elem"

def KernelCall.failure (call : KernelCall) : String :=
  "`" ++ call.name ++ "` failed"

/-- How a pinned map differs from the hash map that was expected. -/
inductive ShapeFault where
  | mapType (found : Nat)
  | keySize (wanted found : Nat)
  | valueSize (wanted found : Nat)
  deriving DecidableEq

def ShapeFault.message : ShapeFault → String
  | .mapType found => "invalid map type " ++ Text.natural found
  | .keySize wanted found =>
    "invalid key size " ++ Text.natural wanted ++ ", expected " ++ Text.natural found
  | .valueSize wanted found =>
    "invalid value size " ++ Text.natural wanted ++ ", expected " ++ Text.natural found

/-- The number of types that a map can have. Types are numbered from zero, and this number
stands for every type beyond the last. -/
def mapTypeCount : Nat := 34

structure RowError where
  reason : String
  deriving DecidableEq

def RowError.message (e : RowError) : String :=
  "malformed row: " ++ e.reason

/-- Why a table refused an operation. The type of a pinned map is unknown if the kernel does not
tell it, and unlisted if it is one that no map can have. -/
inductive StoreError where
  | markedUnavailable
  | nulInPath (path : String)
  | openFailed (path : String) (call : KernelCall)
  | typeUnknown
  | typeUnlisted
  | wrongShape (path : String) (fault : ShapeFault)
  | walkFailed (path : String) (call : KernelCall)
  | unreadable (row : RowError)
  | deleteRefused
  | callFailed (call : KernelCall)
  deriving DecidableEq

/-- Whether an error concerns the table as a whole rather than one operation. -/
def StoreError.isUnavailable : StoreError → Bool
  | .markedUnavailable | .nulInPath _ | .openFailed .. | .typeUnknown | .typeUnlisted
  | .wrongShape .. | .walkFailed .. => true
  | .unreadable _ | .deleteRefused | .callFailed _ => false

def StoreError.message : StoreError → String
  | .markedUnavailable => "store unavailable: memory store marked unavailable"
  | .nulInPath path =>
    "store unavailable: failed to open pinned map " ++ path ++
      ": map `None` requested pinning. pinning failed"
  | .openFailed path call =>
    "store unavailable: failed to open pinned map " ++ path ++ ": " ++ call.failure
  | .typeUnknown => "store unavailable: invalid map type: " ++ KernelCall.info.failure
  | .typeUnlisted =>
    "store unavailable: invalid map type: " ++ (ShapeFault.mapType mapTypeCount).message
  | .wrongShape path fault =>
    "store unavailable: " ++ path ++ " is not a hash map of the expected shape: " ++
      fault.message
  | .walkFailed path call =>
    "store unavailable: failed to enumerate " ++ path ++ ": " ++ call.failure
  | .unreadable row => "read failed: " ++ row.message
  | .deleteRefused => "delete failed: injected failure"
  | .callFailed call => call.name ++ " failed: " ++ call.failure

inductive QueryError where
  | tableUnavailable (table : TableName) (cause : StoreError)
  | unknownInterface (name : String)
  deriving DecidableEq

/-- The failure of a query in words, without its cause. -/
def QueryError.message : QueryError → String
  | .tableUnavailable table _ => table.label ++ " table unavailable"
  | .unknownInterface name => "no kernel interface named " ++ name

def QueryError.chain : QueryError → List String
  | e@(.tableUnavailable _ cause) => [e.message, cause.message]
  | e@(.unknownInterface _) => [e.message]

end TrafficStats
