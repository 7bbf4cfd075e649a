import TrafficStats.Counters
import TrafficStats.Key
import TrafficStats.NameField

/-!
# Keys and values as the kernel stores them

To the kernel a key or a value is a run of bytes whose length the map fixes. A `Layout`
says how a type is laid out: words with their lowest byte first, and the parts of a larger
value one after the other. Every value is laid out in the same number of bytes, and
reading them back gives the value (`decode_encode`), so different keys never share their
bytes (`encode_injective`).
-/

namespace TrafficStats

/-- The lowest bytes of a number, the lowest first. -/
def bytesOfNat : Nat → Nat → List UInt8
  | 0, _ => []
  | width + 1, n => UInt8.ofNat n :: bytesOfNat width (n / 256)

def natOfBytes : List UInt8 → Nat
  | [] => 0
  | b :: rest => b.toNat + 256 * natOfBytes rest

@[simp] theorem length_bytesOfNat (width n : Nat) : (bytesOfNat width n).length = width := by
  induction width generalizing n with
  | zero => rfl
  | succ width ih => simp [bytesOfNat, ih]

/-- Only the part of a number that fits is laid out. -/
theorem natOfBytes_bytesOfNat (width n : Nat) :
    natOfBytes (bytesOfNat width n) = n % Nat.pow 256 width := by
  induction width generalizing n with
  | zero => simp [bytesOfNat, natOfBytes, Nat.mod_one]
  | succ width ih =>
    have split : n % Nat.pow 256 (width + 1) =
        n % 256 + 256 * (n / 256 % Nat.pow 256 width) := by
      change n % (Nat.pow 256 width * 256) = _
      rw [Nat.mul_comm (Nat.pow 256 width), Nat.mod_mul]
    rw [bytesOfNat, natOfBytes, ih, UInt8.toNat_ofNat', split]

/-- How a type is laid out in bytes. -/
class Layout (α : Type) where
  size : Nat
  encode : α → List UInt8
  decode : List UInt8 → α
  length_encode : ∀ a, (encode a).length = size
  decode_encode : ∀ a, decode (encode a) = a

namespace Layout

theorem encode_injective {α : Type} [Layout α] {a b : α} (h : encode a = encode b) :
    a = b := by
  rw [← decode_encode a, h, decode_encode]

instance : Layout UInt32 where
  size := 4
  encode n := bytesOfNat 4 n.toNat
  decode bytes := .ofNat (natOfBytes bytes)
  length_encode _ := length_bytesOfNat ..
  decode_encode n := by
    have fits : n.toNat < Nat.pow 256 4 := n.toNat_lt
    rw [natOfBytes_bytesOfNat, Nat.mod_eq_of_lt fits, UInt32.ofNat_toNat]

instance : Layout UInt64 where
  size := 8
  encode n := bytesOfNat 8 n.toNat
  decode bytes := .ofNat (natOfBytes bytes)
  length_encode _ := length_bytesOfNat ..
  decode_encode n := by
    have fits : n.toNat < Nat.pow 256 8 := n.toNat_lt
    rw [natOfBytes_bytesOfNat, Nat.mod_eq_of_lt fits, UInt64.ofNat_toNat]

instance {α β : Type} [Layout α] [Layout β] : Layout (α × β) where
  size := size α + size β
  encode p := encode p.1 ++ encode p.2
  decode bytes := (decode (bytes.take (size α)), decode (bytes.drop (size α)))
  length_encode p := by
    rw [List.length_append, length_encode, length_encode]
  decode_encode p := by
    rw [List.take_left' (length_encode p.1), List.drop_left' (length_encode p.1),
      decode_encode, decode_encode]

/-- A structure is laid out like the parts that it is made of. -/
@[reducible] def ofParts {α β : Type} [Layout β] (parts : α → β) (join : β → α)
    (join_parts : ∀ a, join (parts a) = a) : Layout α where
  size := size β
  encode a := encode (parts a)
  decode bytes := join (decode bytes)
  length_encode a := length_encode (parts a)
  decode_encode a := by rw [decode_encode, join_parts]

instance : Layout DetailKey :=
  ofParts (β := UInt32 × UInt32 × UInt32) (fun k => (k.uid, k.tag, k.ifaceIndex))
    (fun (uid, tag, ifaceIndex) => ⟨uid, tag, ifaceIndex⟩) fun _ => rfl

instance : Layout SocketTag :=
  ofParts (β := UInt32 × UInt32) (fun t => (t.uid, t.tag)) (fun (uid, tag) => ⟨uid, tag⟩)
    fun _ => rfl

instance : Layout RawCounters :=
  ofParts (β := UInt64 × UInt64 × UInt64 × UInt64)
    (fun c => (c.rxBytes, c.rxPackets, c.txBytes, c.txPackets))
    (fun (rxBytes, rxPackets, txBytes, txPackets) =>
      ⟨rxBytes, rxPackets, txBytes, txPackets⟩) fun _ => rfl

instance : Layout NameField where
  size := 16
  encode := NameField.bytes
  decode := NameField.ofBytes
  length_encode := NameField.length_eq
  decode_encode := NameField.ofBytes_bytes

end Layout

end TrafficStats
