import TrafficStats.Store.Error
import TrafficStats.Store.Rows

/-!
# Enumerations in progress

An enumeration is no snapshot of a table. What it holds is the list of what is still to
be visited: keys whose rows are looked up only when their turn comes, or rows that were
already fetched. A key that has no row any more is skipped without notice. Every step
shortens the list (`length_lt_of_next`), so an enumeration ends whatever happens to the
table meanwhile.
-/

namespace TrafficStats

/-- A row as a store holds it: a value, or something that cannot be read as one. -/
inductive Slot (V : Type) where
  | live (value : V)
  | malformed (reason : String)
  deriving DecidableEq

/-- A row as an enumeration delivers it. -/
abbrev RowResult (K V : Type) := Except RowError (K × V)

def Slot.row {K V : Type} (k : K) : Slot V → RowResult K V
  | .live value => .ok (k, value)
  | .malformed reason => .error ⟨reason⟩

/-- One thing that an enumeration still has to visit: a key whose row is looked up when its turn
comes, or a row that was fetched before. -/
inductive Pending (K V : Type) where
  | key (k : K)
  | row (r : RowResult K V)

/-- What an enumeration still has to visit, in order. -/
abbrev Cursor (K V : Type) := List (Pending K V)

namespace Cursor

variable {K V : Type}

/-- The next row of an enumeration and what remains after it, where `slot?` tells the rows
of this moment; nothing at the end. -/
def next (slot? : K → Option (Slot V)) : Cursor K V → Option (RowResult K V × Cursor K V)
  | [] => none
  | .row r :: rest => some (r, rest)
  | .key k :: rest =>
    match slot? k with
    | none => next slot? rest
    | some slot => some (slot.row k, rest)

theorem length_lt_of_next {slot? : K → Option (Slot V)} {c rest : Cursor K V}
    {r : RowResult K V} (h : c.next slot? = some (r, rest)) : rest.length < c.length := by
  induction c with
  | nil => cases h
  | cons pending tail ih =>
    cases pending with
    | row r' =>
      cases h
      simp
    | key k =>
      rw [next] at h
      split at h
      · have := ih h
        simp only [List.length_cons]
        omega
      · cases h
        simp

end Cursor

end TrafficStats
