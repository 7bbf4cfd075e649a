import TrafficStats.Proofs.Text.Cut

/-!
# Names that survive a name field

A name is read back from the field that it was written to if it has between one and fifteen bytes
and no zero among its characters. The other way round, a field is written again as it was if it
has nothing but zeros after its name, and at least one. Both follow from where a field has its
first zero (`CutAtZero`): the bytes before it are the name, if they are any and are valid UTF-8.
-/

namespace TrafficStats

namespace Text

theorem ofUtf8?_eq_none_iff {bytes : List UInt8} :
    ofUtf8? bytes = none ↔ ¬ bytes.toByteArray.IsValidUTF8 := by
  unfold ofUtf8? String.fromUTF8?
  split <;> simp [*]

/-- A zero among the bytes of a text is the character of that number. -/
theorem zero_notMem_utf8_iff {s : String} : 0 ∉ utf8 s ↔ '\x00' ∉ s.toList := by
  refine ⟨fun nonzero nul => nonzero ?_, zero_notMem_utf8⟩
  exact List.mem_flatMap.mpr ⟨'\x00', nul, by decide⟩

end Text

namespace NameField

open Text

variable {field : NameField} {front back : List UInt8} {s : String}

/-- The bytes of a field before its first zero, and those from there on. -/
structure CutAtZero (field : NameField) (front back : List UInt8) : Prop where
  bytes : field.bytes = front ++ back
  nonzero : 0 ∉ front
  zero : ∀ b ∈ back.head?, b = 0

/-- Every field has a first zero, or has none and is cut at its end. -/
theorem exists_cutAtZero (field : NameField) : ∃ back, field.CutAtZero field.nameBytes back := by
  refine ⟨field.bytes.dropWhile (· ≠ 0), List.takeWhile_append_dropWhile.symm, fun mem => ?_, ?_⟩
  · have holds := List.all_takeWhile (l := field.bytes) (p := (· ≠ 0))
    simpa using List.all_eq_true.mp holds 0 mem
  · intro b first
    have fails := List.head?_dropWhile_not (· ≠ 0) field.bytes
    rw [Option.mem_def.mp first] at fails
    simpa using fails

namespace CutAtZero

/-- The name of a field stands before its first zero. -/
theorem nameBytes_eq (cut : field.CutAtZero front back) : field.nameBytes = front := by
  have inside : ∀ b ∈ front, decide (b ≠ 0) = true := by
    intro b mem
    rw [decide_eq_true_iff]
    rintro rfl
    exact cut.nonzero mem
  rw [nameBytes, cut.bytes, List.takeWhile_append_of_pos inside]
  cases back with
  | nil => simp
  | cons b back =>
      obtain rfl := cut.zero b rfl
      simp

theorem name?_eq_some_iff (cut : field.CutAtZero front back) :
    field.name? = some s ↔ front ≠ [] ∧ utf8 s = front := by
  rw [name?, cut.nameBytes_eq]
  split
  · rename_i empty
    simp [empty]
  · rename_i nonempty
    rw [ofUtf8?_eq_some_iff]
    exact (and_iff_right nonempty).symm

theorem front_eq_nil_iff (cut : field.CutAtZero front back) :
    front = [] ↔ field.bytes.head? = some 0 := by
  rw [cut.bytes]
  constructor
  · rintro rfl
    cases back with
    | nil =>
        have length := field.length_eq
        rw [cut.bytes] at length
        cases length
    | cons b back => exact congrArg some (cut.zero b rfl)
  · intro first
    cases front with
    | nil => rfl
    | cons b front =>
        cases first
        exact absurd List.mem_cons_self cut.nonzero

theorem name?_eq_none_iff (cut : field.CutAtZero front back) :
    field.name? = none ↔ field.bytes.head? = some 0 ∨ ¬ front.toByteArray.IsValidUTF8 := by
  rw [name?, cut.nameBytes_eq, ← cut.front_eq_nil_iff]
  split
  · rename_i empty
    exact iff_of_true rfl (.inl empty)
  · rename_i nonempty
    rw [ofUtf8?_eq_none_iff]
    exact (or_iff_right nonempty).symm

theorem length_le_of_getLast? (cut : field.CutAtZero front back)
    (last : field.bytes.getLast? = some 0) : front.length ≤ 15 := by
  have length := field.length_eq
  rw [cut.bytes, List.length_append] at length
  cases back with
  | nil =>
      rw [cut.bytes, List.append_nil] at last
      exact absurd (List.mem_of_getLast? last) cut.nonzero
  | cons b back =>
      rw [List.length_cons] at length
      omega

end CutAtZero

/-! ### Fields that are written -/

theorem bytes_ofName (name : String) :
    (ofName name).bytes =
      (utf8 name).take 15 ++ List.replicate (16 - min 15 (utf8 name).length) 0 := by
  simp only [ofName, ofBytes, List.length_take, List.take_take]
  rfl

theorem getLast?_ofName (name : String) : (ofName name).bytes.getLast? = some 0 := by
  obtain ⟨n, zeros⟩ : ∃ n, 16 - min 15 (utf8 name).length = n + 1 :=
    ⟨15 - min 15 (utf8 name).length, by omega⟩
  rw [bytes_ofName, zeros, List.replicate_succ', ← List.append_assoc, List.getLast?_concat]

/-- The names that a field can hold. -/
theorem name?_ofName_eq_self_iff :
    (ofName s).name? = some s ↔
      (1 ≤ (utf8 s).length ∧ (utf8 s).length ≤ 15) ∧ '\x00' ∉ s.toList := by
  constructor
  · intro kept
    obtain ⟨back, cut⟩ := exists_cutAtZero (ofName s)
    obtain ⟨nonempty, bytes⟩ := cut.name?_eq_some_iff.mp kept
    rw [← bytes] at cut nonempty
    refine ⟨⟨List.length_pos_iff.mpr nonempty, ?_⟩, zero_notMem_utf8_iff.mp cut.nonzero⟩
    exact cut.length_le_of_getLast? (getLast?_ofName s)
  · rintro ⟨⟨nonempty, short⟩, noNul⟩
    have named : s ≠ "" := by
      rintro rfl
      cases nonempty
    rw [name?_ofName named noNul, if_pos (cutsBetween_of_length_le short),
      bounded_of_length_le short]

/-- Writing the bytes before the first zero gives the field again if it has only zeros after
them. -/
theorem CutAtZero.ofName_eq_iff (cut : field.CutAtZero (utf8 s) back) :
    ofName s = field ↔ field.bytes.getLast? = some 0 ∧ ∀ b ∈ back.tail, b = 0 := by
  have length := field.length_eq
  rw [cut.bytes, List.length_append] at length
  constructor
  · rintro rfl
    have last := getLast?_ofName s
    refine ⟨last, fun b mem => ?_⟩
    have bytes := cut.bytes
    rw [bytes_ofName, List.take_of_length_le (cut.length_le_of_getLast? last),
      List.append_cancel_left_eq] at bytes
    rw [← bytes] at mem
    exact List.eq_of_mem_replicate (List.mem_of_mem_tail mem)
  · rintro ⟨last, zeros⟩
    have short := cut.length_le_of_getLast? last
    have all : ∀ b ∈ back, b = 0 := by
      cases back with
      | nil => nofun
      | cons b back => exact List.forall_mem_cons.mpr ⟨cut.zero b rfl, zeros⟩
    apply ext
    rw [bytes_ofName, List.take_of_length_le short, cut.bytes, List.append_cancel_left_eq, eq_comm,
      List.eq_replicate_iff]
    exact ⟨by omega, all⟩

/-! ### Names and fields -/

/-- What the bytes of a field say about its name. -/
structure Reads (field : NameField) (front back : List UInt8) : Prop where
  cut : field.CutAtZero front back
  -- There is no name if the field begins with a zero, or if what comes before is no text.
  unnamed : field.name? = none ↔
    field.bytes.head? = some 0 ∨ ¬ front.toByteArray.IsValidUTF8
  -- Otherwise the name has exactly these bytes.
  named : ∀ s, field.name? = some s → utf8 s = front
  -- The field of the name is the same field if zeros alone follow the name, up to the end.
  rewritten : ∀ s, field.name? = some s →
    (ofName s = field ↔ field.bytes.getLast? = some 0 ∧ ∀ b ∈ back.tail, b = 0)

/-- Writing a name and reading a field undo each other exactly on the names that a field can hold
and on the fields that hold nothing but a name. -/
theorem name?_ofName_undo :
    (∀ s, (ofName s).name? = some s ↔
      (1 ≤ (utf8 s).length ∧ (utf8 s).length ≤ 15) ∧ '\x00' ∉ s.toList) ∧
    ∀ field : NameField, ∃ front back, field.Reads front back := by
  refine ⟨fun s => name?_ofName_eq_self_iff, fun field => ?_⟩
  obtain ⟨back, cut⟩ := exists_cutAtZero field
  refine ⟨field.nameBytes, back, cut, cut.name?_eq_none_iff, fun s read => ?_, fun s read => ?_⟩
  · exact (cut.name?_eq_some_iff.mp read).2
  · have bytes := (cut.name?_eq_some_iff.mp read).2
    rw [← bytes] at cut
    exact cut.ofName_eq_iff

end NameField

end TrafficStats
