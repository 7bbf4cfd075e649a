import TrafficStats.Counters
import TrafficStats.Json.Line
import TrafficStats.Key
import TrafficStats.Text.Fit
import TrafficStats.Text.Utf8

/-!
# Report records

A report is a list of records: the traffic that one owner caused over one interface, in
one traffic set and under one tag. Those four are the *identity* of a record; its
counters are payload and take no part in equality or order. Records stand in the order of
their identities, with interface names compared by their bytes.
-/

namespace TrafficStats

/-- The owner number that stands for all owners. -/
def uidAll : UInt32 := 4294967295

def tagNone : UInt32 := 0

def maxIfaceBytes : Nat := 32

/-- A coarse class of traffic, independent of its tag. -/
inductive TrafficSet where
  | all
  | default
  | foreground
  deriving DecidableEq

namespace TrafficSet

def rank : TrafficSet → Nat
  | .all => 0
  | .default => 1
  | .foreground => 2

def name : TrafficSet → String
  | .all => "all"
  | .default => "default"
  | .foreground => "foreground"

/-- The title of a set in the readable form of a record. -/
def title : TrafficSet → String
  | .all => "All"
  | .default => "Default"
  | .foreground => "Foreground"

theorem rank_injective {a b : TrafficSet} (h : a.rank = b.rank) : a = b := by
  cases a <;> cases b <;> simp_all [rank]

end TrafficSet

/-- What makes a record the same as another. -/
structure Identity where
  iface : String
  uid : UInt32
  set : TrafficSet
  tag : UInt32
  deriving DecidableEq

/-- Identities are compared part by part; interface names by their bytes. -/
def Identity.compare (a b : Identity) : Ordering :=
  (Ord.compare (Text.utf8 a.iface) (Text.utf8 b.iface)).then <|
  (Ord.compare a.uid.toNat b.uid.toNat).then <|
  (Ord.compare a.set.rank b.set.rank).then <|
  Ord.compare a.tag.toNat b.tag.toNat

/-- One line of a report. -/
structure ReportRecord where
  iface : String
  uid : UInt32
  set : TrafficSet
  tag : UInt32
  counters : Counters
  deriving DecidableEq

namespace ReportRecord

/-- A record whose interface name is cut to the longest name allowed. -/
def make (iface : String) (uid : UInt32) (set : TrafficSet) (tag : UInt32)
    (counters : Counters) : ReportRecord :=
  ⟨Text.bounded maxIfaceBytes iface, uid, set, tag, counters⟩

def identity (r : ReportRecord) : Identity :=
  ⟨r.iface, r.uid, r.set, r.tag⟩

def compare (a b : ReportRecord) : Ordering :=
  a.identity.compare b.identity

def text (r : ReportRecord) : String :=
  r.iface ++ " uid:" ++ (if r.uid = uidAll then "all" else Text.natural r.uid.toNat) ++
  " set:" ++ r.set.title ++ " tag:" ++ Text.hexadecimal r.tag.toNat ++ " - " ++
  r.counters.text

end ReportRecord

end TrafficStats
