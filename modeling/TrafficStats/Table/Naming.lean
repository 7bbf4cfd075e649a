import TrafficStats.Table.Access

/-!
# Names of interfaces

A name is looked up in the table of interface names. That there is none is an everyday
answer: the interface may be gone, and a table that cannot be read gives no name either.
A memo answers for the indices that were looked up before, also for those without a name,
so that an index has the same name wherever it occurs.
-/

namespace TrafficStats

variable {σ : Type}

/-- The present name of an interface. A lookup that fails is noted and gives no name. -/
def TableAccess.resolve (names : TableAccess σ UInt32 NameField) (ifaceIndex : UInt32) :
    Query σ (Option String) := do
  match ← Query.onTables (names.read ifaceIndex) with
  | .ok field => pure (field.bind NameField.name?)
  | .error e =>
    Query.note (.lookupFailed ifaceIndex e)
    pure none

/-- Names that were looked up, the latest first; `none` is an answer like any other. -/
abbrev NameMemo := List (UInt32 × Option String)

def NameMemo.resolve (memo : NameMemo) (names : TableAccess σ UInt32 NameField)
    (ifaceIndex : UInt32) : Query σ (Option String × NameMemo) :=
  match memo.lookup ifaceIndex with
  | some name => pure (name, memo)
  | none => do
    let name ← names.resolve ifaceIndex
    pure (name, (ifaceIndex, name) :: memo)

end TrafficStats
