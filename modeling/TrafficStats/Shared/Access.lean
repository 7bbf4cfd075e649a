import TrafficStats.Shared.Tables
import TrafficStats.Table.Access

/-!
# Tables that other processes edit

Between any two calls of the service other processes may edit the tables. Which edits
they make, and before which call, is part of the state: an `Intervention` waits for a
call of a given kind on a given table and is carried out just before it, once. A
statement about all lists of interventions is a statement about all schedules. The state
also keeps the history of the calls, each with the tables as it found them and with its
answer, so that what a query did and saw can be spoken about afterwards.
-/

namespace TrafficStats

/-- The kinds of calls on a table. Every step of an enumeration is a call, the one that
finds the end included. -/
inductive CallKind where
  | iterate
  | next
  | read
  | delete
  | put
  deriving DecidableEq

/-- What other processes are going to do before a certain call: when so many calls of the kind
were made on the table, this one included. -/
structure Intervention where
  table : TableName
  call : CallKind
  countdown : Nat
  edits : List TableEdit

inductive StoreCall (K V : Type) where
  | iterate (answer : Except StoreError Unit)
  | next (answer : Option (RowResult K V))
  | read (k : K) (answer : Except StoreError (Option V))
  | delete (k : K) (answer : Except StoreError DeleteOutcome)
  | put (k : K) (v : V) (answer : Except StoreError Unit)

inductive TableCall where
  | detail (call : StoreCall DetailKey RawCounters)
  | device (call : StoreCall UInt32 RawCounters)
  | ifaceNames (call : StoreCall UInt32 NameField)
  | cookieTags (call : StoreCall UInt64 SocketTag)

/-- A moment in which a call was carried out, on the tables as they were. -/
structure Moment where
  tables : MemoryTables
  call : TableCall

/-- Tables that other processes edit between the calls. -/
structure SharedTables where
  tables : MemoryTables
  pending : List Intervention
  history : Array Moment

def SharedTables.quiet (tables : MemoryTables) : SharedTables := ⟨tables, [], #[]⟩

/-- Lets the other processes act that wait for this call; the others wait one call less. -/
def Intervention.letAct (table : TableName) (call : CallKind) :
    List Intervention → MemoryTables → List Intervention × MemoryTables
  | [], tables => ([], tables)
  | i :: rest, tables =>
    if i.table = table ∧ i.call = call then
      if i.countdown = 1 then letAct table call rest (tables.edit i.edits)
      else
        let (rest, tables) := letAct table call rest tables
        ({ i with countdown := i.countdown - 1 } :: rest, tables)
    else
      let (rest, tables) := letAct table call rest tables
      (i :: rest, tables)

/-- One of the four tables, as a part of them all. -/
structure TableField (K V : Type) [Ranked K] where
  name : TableName
  get : MemoryTables → MemoryStore K V
  set : MemoryTables → MemoryStore K V → MemoryTables
  event : StoreCall K V → TableCall

namespace TableField

def detail : TableField DetailKey RawCounters :=
  ⟨.detail, MemoryTables.detail, fun t s => { t with detail := s }, .detail⟩

def device : TableField UInt32 RawCounters :=
  ⟨.device, MemoryTables.device, fun t s => { t with device := s }, .device⟩

def ifaceNames : TableField UInt32 NameField :=
  ⟨.ifaceNames, MemoryTables.ifaceNames, fun t s => { t with ifaceNames := s }, .ifaceNames⟩

def cookieTags : TableField UInt64 SocketTag :=
  ⟨.cookieTags, MemoryTables.cookieTags, fun t s => { t with cookieTags := s }, .cookieTags⟩

end TableField

namespace SharedTables

def before (s : SharedTables) (table : TableName) (call : CallKind) : SharedTables :=
  let (pending, tables) := Intervention.letAct table call s.pending s.tables
  { s with pending, tables }

/-- Carries out a call: other processes act before it, then it is answered, and it goes
into the history. -/
def call {K V α : Type} [Ranked K] (field : TableField K V) (kind : CallKind)
    (answer : MemoryStore K V → α × MemoryStore K V) (event : α → StoreCall K V) :
    StateM SharedTables α := fun s =>
  let s := s.before field.name kind
  let outcome := answer (field.get s.tables)
  (outcome.1,
    { s with
      tables := field.set s.tables outcome.2
      history := s.history.push ⟨s.tables, field.event (event outcome.1)⟩ })

def look {K V α : Type} [Ranked K] (field : TableField K V) (kind : CallKind)
    (answer : MemoryStore K V → α) (event : α → StoreCall K V) : StateM SharedTables α :=
  fun s =>
    let s := s.before field.name kind
    let outcome := answer (field.get s.tables)
    (outcome, { s with history := s.history.push ⟨s.tables, field.event (event outcome)⟩ })

def access {K V : Type} [Ranked K] (field : TableField K V) :
    TableAccess SharedTables K V where
  read k := look field .read (·.read k) (.read k)
  iterate := look field .iterate (·.iterate) fun answer => .iterate (answer.map fun _ => ())
  next c := look field .next (·.next c) fun answer => .next (answer.map Prod.fst)
  delete k := call field .delete (·.delete k) (.delete k)
  put k v := call field .put (·.put k v) (.put k v)
  next_shorter _ _ _ _ h := Cursor.length_lt_of_next h

def tableSet : TableSet SharedTables :=
  ⟨access .detail, access .device, access .ifaceNames, access .cookieTags⟩

end SharedTables

end TrafficStats
