/-!
# Text as UTF-8 bytes

Interface names travel as bytes and are compared, bounded and stored as bytes, while
everything else handles them as strings. `utf8` gives the bytes of a string and
`ofUtf8?` reads bytes back. The reader accepts exactly what the writer produces, so
bytes that are no valid UTF-8 have no string at all rather than a repaired one.
-/

namespace TrafficStats.Text

def byteLength : List Char → Nat
  | [] => 0
  | c :: rest => c.utf8Size + byteLength rest

@[simp] theorem byteLength_nil : byteLength [] = 0 := rfl

@[simp] theorem byteLength_cons (c : Char) (cs : List Char) :
    byteLength (c :: cs) = c.utf8Size + byteLength cs := rfl

/-- The UTF-8 bytes of a string, scalar value by scalar value. -/
def utf8 (s : String) : List UInt8 :=
  s.toList.flatMap String.utf8EncodeChar

/-- The string with the given UTF-8 bytes, if they are valid UTF-8. -/
def ofUtf8? (bytes : List UInt8) : Option String :=
  String.fromUTF8? bytes.toByteArray

theorem utf8_append (s t : String) : utf8 (s ++ t) = utf8 s ++ utf8 t := by
  simp [utf8]

theorem length_utf8 (s : String) : (utf8 s).length = byteLength s.toList := by
  rw [utf8]
  induction s.toList with
  | nil => rfl
  | cons c rest ih => simp [ih]

theorem toByteArray_utf8 (s : String) : (utf8 s).toByteArray = s.toByteArray := by
  have h : (String.ofList s.toList).toByteArray = s.toList.utf8Encode :=
    String.toByteArray_ofList
  rw [String.ofList_toList] at h
  rw [h, List.utf8Encode, utf8]

private theorem toByteArray_inj {a b : List UInt8} (h : a.toByteArray = b.toByteArray) :
    a = b := by
  have data := congrArg ByteArray.data h
  rw [List.data_toByteArray, List.data_toByteArray] at data
  simpa using congrArg Array.toList data

theorem utf8_injective {s t : String} (h : utf8 s = utf8 t) : s = t := by
  rw [← String.toByteArray_inj, ← toByteArray_utf8, ← toByteArray_utf8, h]

/-- Reading accepts exactly what writing produces. -/
theorem ofUtf8?_eq_some_iff {bytes : List UInt8} {s : String} :
    ofUtf8? bytes = some s ↔ utf8 s = bytes := by
  unfold ofUtf8? String.fromUTF8?
  constructor
  · intro h
    split at h
    · cases h
      apply toByteArray_inj
      rw [toByteArray_utf8]
      rfl
    · cases h
  · rintro rfl
    have valid : (utf8 s).toByteArray.IsValidUTF8 := by
      rw [toByteArray_utf8]
      exact s.isValidUTF8
    rw [dif_pos valid, Option.some.injEq, ← String.toByteArray_inj]
    exact toByteArray_utf8 s

@[simp] theorem ofUtf8?_utf8 (s : String) : ofUtf8? (utf8 s) = some s :=
  ofUtf8?_eq_some_iff.mpr rfl

end TrafficStats.Text
