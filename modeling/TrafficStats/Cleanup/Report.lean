/-!
# What a cleanup pass did
-/

namespace TrafficStats

/-- The account of one cleanup pass over the socket tags. Tags whose reading or deletion failed
are left for a later pass; and if any detail row is unreadable, nothing is deleted, because the
tags in use are not all known. -/
structure CleanupReport where
  scanned : Nat
  deleted : Nat
  alreadyAbsent : Nat
  failed : Nat
  unreadableRows : Nat
  deriving DecidableEq

def CleanupReport.zero : CleanupReport := ⟨0, 0, 0, 0, 0⟩

end TrafficStats
