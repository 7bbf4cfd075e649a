import TrafficStats.Kernel.Map

/-!
# Calls on the kernel

The service sees the kernel through six calls. Each may be refused, and between any two
calls other processes may change the maps or interrupt the service. What will happen,
and at which call, is part of the kernel's state: an event waits for a call of a kind on a
path and happens there, once. A statement about all lists of events is a statement about
every kernel and every schedule.
-/

namespace TrafficStats

/-- How the kernel refuses a call. That something is not there is the one refusal that
callers tell apart. -/
inductive Refusal where
  | absent
  | failed
  deriving DecidableEq

/-- The refusal with an error number, of which 2 is `ENOENT`. -/
def Refusal.ofErrno (n : Nat) : Refusal :=
  if n = 2 then .absent else .failed

/-- A change that another process makes to a map. -/
inductive MapChange where
  | store (key value : Bytes)
  | remove (key : Bytes)

def MapChange.apply : MapChange → KernelRows → KernelRows
  | .store key value, rows => rows.store key value
  | .remove key, rows => rows.remove key

/-- Something that happens at a call: when so many calls of the kind were made on the path, this
one included, other processes change maps before it, and it may be refused. -/
structure KernelEvent where
  path : String
  call : KernelCall
  countdown : Nat
  refusal : Option Refusal
  changes : List (String × MapChange)
  interrupts : Bool

/-- The kernel: its maps, what is going to happen, and whether the service was interrupted. -/
structure Kernel where
  maps : List KernelMap
  events : List KernelEvent
  interrupted : Bool

/-- The events that wait for this call, and the others: those that wait for a later call of
the kind wait one call less. -/
def KernelEvent.divide (path : String) (call : KernelCall) :
    List KernelEvent → List KernelEvent × List KernelEvent
  | [] => ([], [])
  | e :: rest =>
    let (due, waiting) := divide path call rest
    if e.path = path ∧ e.call = call then
      if e.countdown = 1 then (e :: due, waiting)
      else (due, { e with countdown := e.countdown - 1 } :: waiting)
    else (due, e :: waiting)

def KernelEvent.total (number : KernelEvent → Nat) : List KernelEvent → Nat
  | [] => 0
  | e :: rest => number e + total number rest

namespace Kernel

def map? (k : Kernel) (path : String) : Option KernelMap :=
  k.maps.find? fun m => m.path = path

/-- The rows of the map at a path, of which there are none without a map. -/
def rows (k : Kernel) (path : String) : KernelRows :=
  match k.map? path with
  | none => []
  | some m => m.rows

def alter (k : Kernel) (path : String) (f : KernelRows → KernelRows) : Kernel :=
  { k with maps := k.maps.map fun m => if m.path = path then { m with rows := f m.rows } else m }

/-- What happens at an event, apart from a refusal. -/
def happen (k : Kernel) (e : KernelEvent) : Kernel :=
  let k := e.changes.foldl (fun k change => k.alter change.1 change.2.apply) k
  { k with interrupted := k.interrupted || e.interrupts }

/-- What happens before a call, and how the call is refused, if it is. Of several refusals
the last one counts. -/
def before (k : Kernel) (path : String) (call : KernelCall) : Option Refusal × Kernel :=
  let (due, waiting) := KernelEvent.divide path call k.events
  ((due.filterMap KernelEvent.refusal).getLast?,
    due.foldl happen { k with events := waiting })

/-- Makes a call, which is answered by a function of the kernel at that moment. -/
def call {α : Type} (path : String) (kind : KernelCall)
    (answer : Kernel → Except Refusal α × Kernel) : StateM Kernel (Except Refusal α) :=
  fun k =>
    match k.before path kind with
    | (some refusal, k) => (.error refusal, k)
    | (none, k) => answer k

def orAbsent {α : Type} : Option α → Except Refusal α
  | none => .error .absent
  | some a => .ok a

def openPath (path : String) : StateM Kernel (Except Refusal Unit) :=
  call path .openPath fun k => (orAbsent ((k.map? path).map fun _ => ()), k)

/-- Asks for the type and the sizes of a map. -/
def info (path : String) : StateM Kernel (Except Refusal KernelMap) :=
  call path .info fun k => (orAbsent (k.map? path), k)

def nextKey (path : String) (key : Option Bytes) : StateM Kernel (Except Refusal Bytes) :=
  call path .nextKey fun k => (orAbsent ((k.rows path).nextKey? key), k)

def lookup (path : String) (key : Bytes) : StateM Kernel (Except Refusal Bytes) :=
  call path .lookup fun k => (orAbsent ((k.rows path).value? key), k)

def update (path : String) (key value : Bytes) : StateM Kernel (Except Refusal Unit) :=
  call path .update fun k => (.ok (), k.alter path (KernelRows.store key value))

def delete (path : String) (key : Bytes) : StateM Kernel (Except Refusal Unit) :=
  call path .delete fun k =>
    if (k.rows path).holds key then (.ok (), k.alter path (KernelRows.remove key))
    else (.error .absent, k)

end Kernel

end TrafficStats
