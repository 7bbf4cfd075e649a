import TrafficStats.NameField
import TrafficStats.Session
import TrafficStats.Store.Memory

/-!
# Access to a table

`TableAccess σ K V` is what a query can do with one table of a state `σ`: point reads,
deletes and writes, and enumerations that proceed step by step. Between the steps the
table may change; the only promise is that every step of an enumeration leaves less to
visit, so that `foldRows` reaches the end (`foldRows_eq`).
-/

namespace TrafficStats

/-- The operations on one table. That there is no row is an answer, and every step of an
enumeration leaves less to visit. -/
structure TableAccess (σ K V : Type) where
  read : K → StateM σ (Except StoreError (Option V))
  iterate : StateM σ (Except StoreError (Cursor K V))
  next : Cursor K V → StateM σ (Option (RowResult K V × Cursor K V))
  delete : K → StateM σ (Except StoreError DeleteOutcome)
  put : K → V → StateM σ (Except StoreError Unit)
  next_shorter : ∀ (c rest : Cursor K V) (s : σ) (r : RowResult K V),
    (next c s).1 = some (r, rest) → rest.length < c.length

/-- The four tables of the service, as they are found in one state. -/
structure TableSet (σ : Type) where
  detail : TableAccess σ DetailKey RawCounters
  device : TableAccess σ UInt32 RawCounters
  ifaceNames : TableAccess σ UInt32 NameField
  cookieTags : TableAccess σ UInt64 SocketTag

namespace TableAccess

variable {σ K V β : Type}

/-- Works through what an enumeration still has to visit, in at most `steps` steps. -/
def foldSteps (table : TableAccess σ K V) (f : β → RowResult K V → Query σ β) :
    Nat → Cursor K V → β → Query σ β
  | 0, _, b => pure b
  | steps + 1, c, b => do
    match ← Query.onTables (table.next c) with
    | none => pure b
    | some (r, rest) => foldSteps table f steps rest (← f b r)

def foldRows (table : TableAccess σ K V) (f : β → RowResult K V → Query σ β)
    (c : Cursor K V) (b : β) : Query σ β :=
  foldSteps table f (c.length + 1) c b

/-- More steps than needed make no difference. -/
theorem foldSteps_eq (table : TableAccess σ K V) (f : β → RowResult K V → Query σ β)
    {m n : Nat} {c : Cursor K V} (hm : c.length < m) (hn : c.length < n) (b : β) :
    foldSteps table f m c b = foldSteps table f n c b := by
  induction m generalizing n c b with
  | zero => omega
  | succ m ih =>
    cases n with
    | zero => omega
    | succ n =>
      funext s
      simp only [foldSteps, bind, StateT.bind]
      have shorter := fun rest r => table.next_shorter c rest s.tables r
      simp only [Query.onTables]
      generalize table.next c s.tables = outcome at shorter
      obtain ⟨answer, tables⟩ := outcome
      match answer with
      | none => rfl
      | some (r, rest) =>
        have := shorter rest r rfl
        have rest_eq := fun b' => ih (n := n) (c := rest) (by omega) (by omega) b'
        simp only [StateT.bind, rest_eq]

/-- An enumeration is worked through by taking its next row, handling it and working
through the rest; it ends when there is no next row. -/
theorem foldRows_eq (table : TableAccess σ K V) (f : β → RowResult K V → Query σ β)
    (c : Cursor K V) (b : β) :
    foldRows table f c b = (do
      match ← Query.onTables (table.next c) with
      | none => pure b
      | some (r, rest) => foldRows table f rest (← f b r)) := by
  funext s
  change foldSteps table f (c.length + 1) c b s = _
  simp only [foldSteps, bind, StateT.bind]
  have shorter := fun rest r => table.next_shorter c rest s.tables r
  simp only [Query.onTables]
  generalize table.next c s.tables = outcome at shorter
  obtain ⟨answer, tables⟩ := outcome
  match answer with
  | none => rfl
  | some (r, rest) =>
    have := shorter rest r rfl
    have rest_eq := fun b' => foldSteps_eq (m := c.length) (n := rest.length + 1) table f
      (by omega) (by omega) b'
    simp only [StateT.bind, rest_eq, foldRows]

end TableAccess

end TrafficStats
