import TrafficStats.Report.Record
import TrafficStats.Text.Decimal

/-!
# Values on the command line

An owner is given by number, or by the word "all" in letters of either case. Numbers may
carry a plus sign and leading zeros; a number that does not fit is refused and never
reduced to one that does.
-/

namespace TrafficStats

structure OwnerFault where
  raw : String
  fault : Text.NumberFault
  deriving DecidableEq

def OwnerFault.message (e : OwnerFault) : String :=
  "invalid uid '" ++ e.raw ++ "': " ++ e.fault.message

def readOwner (raw : String) : Except OwnerFault UInt32 :=
  if raw.toList.map Char.toLower = ['a', 'l', 'l'] then .ok uidAll
  else
    match Text.readNatural 0xFFFFFFFF raw.toList with
    | .ok n => .ok (.ofNat n)
    | .error fault => .error ⟨raw, fault⟩

/-- Reads an interface index. Its sign may be a minus, but then only zero is in range. -/
def readIndex? (raw : String) : Option UInt32 :=
  match Text.readInteger? 0xFFFFFFFF raw.toList with
  | some i => if 0 ≤ i then some (.ofNat i.toNat) else none
  | none => none

def readSeconds? (raw : String) : Option UInt64 :=
  (Text.readNatural 0xFFFFFFFFFFFFFFFF raw.toList).toOption.map .ofNat

end TrafficStats
