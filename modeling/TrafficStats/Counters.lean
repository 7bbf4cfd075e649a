import TrafficStats.Text.Decimal

/-!
# Traffic counters

The kernel keeps four unsigned counters per row, `RawCounters`; reports use the signed
`Counters`. A raw counter beyond the signed range is clamped to its end, so that it never
turns negative. Sums of counters wrap, which keeps them independent of the order of
their terms, while the byte total that decides about alerts saturates.
-/

namespace TrafficStats

/-- The counters of one table row, as the kernel keeps them. -/
structure RawCounters where
  rxBytes : UInt64
  rxPackets : UInt64
  txBytes : UInt64
  txPackets : UInt64
  deriving DecidableEq, Inhabited

/-- The counters of one report line. -/
structure Counters where
  rxBytes : Int64
  rxPackets : Int64
  txBytes : Int64
  txPackets : Int64
  deriving DecidableEq, Inhabited

/-- A raw counter as a signed number; what exceeds the signed range becomes its end. -/
def clamp (raw : UInt64) : Int64 :=
  if raw.toNat < 0x8000000000000000 then Int64.ofNat raw.toNat else Int64.maxValue

def saturatingAdd (a b : Int64) : Int64 :=
  Int64.ofInt (max (-0x8000000000000000) (min 0x7FFFFFFFFFFFFFFF (a.toInt + b.toInt)))

theorem toInt_clamp (raw : UInt64) :
    (clamp raw).toInt = min raw.toNat 0x7FFFFFFFFFFFFFFF := by
  unfold clamp
  split
  · rw [← Int64.ofInt_eq_ofNat, Int64.toInt_ofInt_of_le (by omega) (by omega)]
    omega
  · rw [Int64.toInt_maxValue]
    omega

theorem toInt_saturatingAdd (a b : Int64) :
    (saturatingAdd a b).toInt =
      max (-0x8000000000000000) (min 0x7FFFFFFFFFFFFFFF (a.toInt + b.toInt)) := by
  unfold saturatingAdd
  rw [Int64.toInt_ofInt_of_le (by omega) (by omega)]

namespace RawCounters

def zero : RawCounters := ⟨0, 0, 0, 0⟩

def clamped (raw : RawCounters) : Counters :=
  ⟨clamp raw.rxBytes, clamp raw.rxPackets, clamp raw.txBytes, clamp raw.txPackets⟩

end RawCounters

namespace Counters

def zero : Counters := ⟨0, 0, 0, 0⟩

/-- Counter by counter, wrapping at the ends of the signed range. -/
def add (a b : Counters) : Counters :=
  ⟨a.rxBytes + b.rxBytes, a.rxPackets + b.rxPackets, a.txBytes + b.txBytes,
    a.txPackets + b.txPackets⟩

instance : Zero Counters := ⟨zero⟩

instance : Add Counters := ⟨add⟩

theorem zero_def : (0 : Counters) = ⟨0, 0, 0, 0⟩ := rfl

theorem add_def (a b : Counters) :
    a + b = ⟨a.rxBytes + b.rxBytes, a.rxPackets + b.rxPackets, a.txBytes + b.txBytes,
      a.txPackets + b.txPackets⟩ := rfl

@[simp] theorem zero_add (a : Counters) : 0 + a = a := by
  simp [add_def, zero_def]

@[simp] theorem add_zero (a : Counters) : a + 0 = a := by
  simp [add_def, zero_def]

theorem add_comm (a b : Counters) : a + b = b + a := by
  simp only [add_def, mk.injEq]
  exact ⟨Int64.add_comm _ _, Int64.add_comm _ _, Int64.add_comm _ _, Int64.add_comm _ _⟩

theorem add_assoc (a b c : Counters) : a + b + c = a + (b + c) := by
  simp only [add_def, mk.injEq]
  exact ⟨Int64.add_assoc _ _ _, Int64.add_assoc _ _ _, Int64.add_assoc _ _ _,
    Int64.add_assoc _ _ _⟩

def sum (items : List Counters) : Counters :=
  items.foldl (· + ·) 0

/-- Received and sent bytes together, cut off at the ends of the signed range. -/
def totalBytes (c : Counters) : Int64 :=
  saturatingAdd c.rxBytes c.txBytes

def isZero (c : Counters) : Bool :=
  c = 0

def text (c : Counters) : String :=
  "rx_bytes: " ++ Text.integer c.rxBytes.toInt ++
  " rx_packets: " ++ Text.integer c.rxPackets.toInt ++
  " tx_bytes: " ++ Text.integer c.txBytes.toInt ++
  " tx_packets: " ++ Text.integer c.txPackets.toInt

end Counters

end TrafficStats
