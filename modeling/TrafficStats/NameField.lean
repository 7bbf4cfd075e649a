import TrafficStats.Text.Utf8

/-!
# Interface names in sixteen bytes

The kernel stores an interface name in a field of sixteen bytes, padded with zeros and
with at least one zero at the end. Writing a name keeps its first fifteen bytes, even
where that cuts through a character; reading takes the bytes before the first zero and
gives no name when there are none or when they are not valid UTF-8. A field that came
from elsewhere may use all sixteen bytes or hold anything after its first zero.
-/

namespace TrafficStats

structure NameField where
  bytes : List UInt8
  length_eq : bytes.length = 16

namespace NameField

theorem ext {a b : NameField} (h : a.bytes = b.bytes) : a = b := by
  cases a
  cases b
  cases h
  rfl

instance : DecidableEq NameField := fun a b =>
  decidable_of_iff (a.bytes = b.bytes) ⟨ext, fun h => h ▸ rfl⟩

/-- The field that starts with the given bytes: what exceeds sixteen is dropped, what is
missing is zero. -/
def ofBytes (bytes : List UInt8) : NameField where
  bytes := bytes.take 16 ++ List.replicate (16 - bytes.length) 0
  length_eq := by
    rw [List.length_append, List.length_take, List.length_replicate]
    omega

/-- The field for a name: its first fifteen bytes, then zeros. -/
def ofName (name : String) : NameField :=
  ofBytes ((Text.utf8 name).take 15)

def blank : NameField := ofBytes []

def nameBytes (field : NameField) : List UInt8 :=
  field.bytes.takeWhile (· ≠ 0)

/-- The name in a field, unless it is empty or not valid UTF-8. -/
def name? (field : NameField) : Option String :=
  if field.nameBytes = [] then none else Text.ofUtf8? field.nameBytes

theorem ofBytes_bytes (field : NameField) : ofBytes field.bytes = field := by
  apply ext
  simp [ofBytes, field.length_eq, List.take_of_length_le]

end NameField

end TrafficStats
