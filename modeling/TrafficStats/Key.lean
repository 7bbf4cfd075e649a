/-!
# Keys of the tables

Three kinds of keys occur: a detail row is found by owner, tag and interface index, a
device row and an interface name by the interface index alone, a socket tag by the
socket's cookie. Tables keep their rows in the order of the keys. `Ranked` states that
order by a number for each key, different keys having different numbers. The number of a
detail key has its three parts as digits, so these keys stand in lexicographic order.
-/

namespace TrafficStats

/-- Types whose values stand in a strict order, given by a number for each value. -/
class Ranked (K : Type) where
  rank : K → Nat
  rank_injective : ∀ {a b : K}, rank a = rank b → a = b

export Ranked (rank)

theorem rank_eq_rank_iff {K : Type} [Ranked K] {a b : K} : rank a = rank b ↔ a = b :=
  ⟨Ranked.rank_injective, fun h => h ▸ rfl⟩

instance : Ranked UInt32 where
  rank := UInt32.toNat
  rank_injective := UInt32.toNat_inj.mp

instance : Ranked UInt64 where
  rank := UInt64.toNat
  rank_injective := UInt64.toNat_inj.mp

/-- The key of a detail row: who sent, under which tag, over which interface. -/
structure DetailKey where
  uid : UInt32
  tag : UInt32
  ifaceIndex : UInt32
  deriving DecidableEq, Inhabited

namespace DetailKey

def toNat (k : DetailKey) : Nat :=
  (k.uid.toNat * 0x100000000 + k.tag.toNat) * 0x100000000 + k.ifaceIndex.toNat

theorem toNat_injective {a b : DetailKey} (h : a.toNat = b.toNat) : a = b := by
  obtain ⟨u, t, i⟩ := a
  obtain ⟨u', t', i'⟩ := b
  have := t.toNat_lt
  have := i.toNat_lt
  have := t'.toNat_lt
  have := i'.toNat_lt
  simp only [toNat] at h
  rw [mk.injEq, ← UInt32.toNat_inj, ← UInt32.toNat_inj, ← UInt32.toNat_inj]
  omega

instance : Ranked DetailKey where
  rank := toNat
  rank_injective := toNat_injective

end DetailKey

structure SocketTag where
  uid : UInt32
  tag : UInt32
  deriving DecidableEq, Inhabited

def DetailKey.socketTag (k : DetailKey) : SocketTag :=
  ⟨k.uid, k.tag⟩

/-- One counter row of either table; a detail row and a device row are never the same. -/
inductive RowId where
  | detail (key : DetailKey)
  | device (index : UInt32)
  deriving DecidableEq

end TrafficStats
