import TrafficStats.NameField
import TrafficStats.Report.Record

/-!
# What is left of a text that is cut back

A text that is cut back to a budget keeps the longest part in front of a character boundary that
fits (`bounded_eq_iff`). No character has more than four bytes, so that a cut drops at most three
of the bytes that would have fitted. The names in records are cut in this way; those that a name
field holds are too short to be cut.
-/

namespace TrafficStats

namespace Text

variable {budget : Nat} {s p q : String}

/-- The text begins with `p`, and with nothing longer that fits the budget. -/
structure IsLongestPart (budget : Nat) (s p : String) : Prop where
  initial : ∃ dropped, s = p ++ dropped
  fits : (utf8 p).length ≤ budget
  longest : ∀ q, (∃ dropped, s = q ++ dropped) → (utf8 q).length ≤ budget →
    (utf8 q).length ≤ (utf8 p).length

namespace IsLongestPart

theorem of_length_le (short : (utf8 s).length ≤ budget) : IsLongestPart budget s s := by
  refine ⟨⟨"", String.append_empty.symm⟩, short, ?_⟩
  rintro q ⟨dropped, rfl⟩ -
  rw [utf8_append, List.length_append]
  omega

theorem bytes_eq (h : IsLongestPart budget s p) : utf8 p = (utf8 s).take (utf8 p).length := by
  obtain ⟨dropped, rfl⟩ := h.initial
  rw [utf8_append, List.take_left]

theorem unique (h : IsLongestPart budget s p) (h' : IsLongestPart budget s q) : p = q := by
  have same : (utf8 p).length = (utf8 q).length :=
    Nat.le_antisymm (h'.longest p h.initial h.fits) (h.longest q h'.initial h'.fits)
  apply utf8_injective
  rw [h.bytes_eq, same, ← h'.bytes_eq]

/-- With the first character that was dropped, the part would not have fitted. -/
theorem budget_lt (h : IsLongestPart budget s p) (long : budget < (utf8 s).length) :
    budget < (utf8 p).length + 4 := by
  obtain ⟨dropped, rfl⟩ := h.initial
  cases chars : dropped.toList with
  | nil =>
      rw [String.toList_eq_nil_iff.mp chars, String.append_empty] at long
      exact absurd long (Nat.not_lt.mpr h.fits)
  | cons c rest =>
      have next : p ++ dropped = p ++ String.ofList [c] ++ String.ofList rest := by
        rw [String.append_assoc, ← String.ofList_append, List.singleton_append, ← chars,
          String.ofList_toList]
      have length : (utf8 (p ++ String.ofList [c])).length = (utf8 p).length + c.utf8Size := by
        rw [utf8_append, List.length_append, length_utf8 (String.ofList [c]),
          String.toList_ofList, byteLength_cons, byteLength_nil, Nat.add_zero]
      have wide := c.utf8Size_pos
      have narrow := c.utf8Size_le_four
      have longer : ¬ (utf8 p).length + c.utf8Size ≤ budget := by
        intro fits
        have le := h.longest _ ⟨_, next⟩ (length ▸ fits)
        omega
      omega

end IsLongestPart

/-! ### Cutting back -/

/-- The search for the cut of a text that is too long ends within the text, and the text in front
of where it ends is the result. -/
theorem exists_lastBoundary?_of_lt (long : budget < (utf8 s).length) :
    ∃ last, lastBoundary? (utf8 s) budget = some last ∧
      ofUtf8? ((utf8 s).take last) = some (bounded budget s) ∧
      (utf8 (bounded budget s)).length = last ∧ IsLongestPart budget s (bounded budget s) := by
  obtain ⟨last, found, le, boundary, greatest⟩ := exists_lastBoundary? s budget
  obtain ⟨p, dropped, rfl, rfl⟩ := isBoundary_utf8_iff.mp boundary
  have read := ofUtf8?_take_append p dropped
  have cut : bounded budget (p ++ dropped) = p := by
    apply bounded_eq_of_cutBack?
    rw [cutBack?, if_neg (Nat.not_le.mpr long), found, Option.bind_some, read]
  rw [cut]
  refine ⟨_, found, read, rfl, ⟨dropped, rfl⟩, le, ?_⟩
  rintro q ⟨dropped', split⟩ fits
  exact greatest _ (isBoundary_utf8_iff.mpr ⟨q, dropped', split, rfl⟩) fits

theorem bounded_of_length_le (short : (utf8 s).length ≤ budget) : bounded budget s = s := by
  apply bounded_eq_of_cutBack?
  rw [cutBack?, if_pos short]

/-- What is kept of a text is the longest part that fits. -/
theorem isLongestPart_bounded (budget : Nat) (s : String) :
    IsLongestPart budget s (bounded budget s) := by
  by_cases short : (utf8 s).length ≤ budget
  · rw [bounded_of_length_le short]
    exact .of_length_le short
  · obtain ⟨-, -, -, -, longest⟩ := exists_lastBoundary?_of_lt (Nat.not_le.mp short)
    exact longest

theorem bounded_eq_iff : bounded budget s = p ↔ IsLongestPart budget s p := by
  constructor
  · rintro rfl
    exact isLongestPart_bounded budget s
  · exact (isLongestPart_bounded budget s).unique

/-- Where there is room for any character, something is kept of a text that is not empty. -/
theorem bounded_ne_empty (room : 4 ≤ budget) (nonempty : s ≠ "") : bounded budget s ≠ "" := by
  intro nothing
  by_cases short : (utf8 s).length ≤ budget
  · exact nonempty ((bounded_of_length_le short).symm.trans nothing)
  · have kept := (isLongestPart_bounded budget s).budget_lt (Nat.not_le.mp short)
    have length : (utf8 (bounded budget s)).length = 0 := by
      rw [nothing]
      rfl
    omega

/-- What a text is cut back to. -/
structure CutsBack (budget : Nat) (s : String) : Prop where
  -- The search in a text that is too long ends at a boundary within it, and the bytes in front
  -- of that are the result.
  stops : budget < (utf8 s).length → ∃ last, lastBoundary? (utf8 s) budget = some last ∧
    last < (utf8 s).length ∧ isBoundary (utf8 s) last = true ∧
    ofUtf8? ((utf8 s).take last) = some (bounded budget s)
  longest : IsLongestPart budget s (bounded budget s)
  -- Nothing is cut off a text that fits, and from no other text.
  eq_self_iff : bounded budget s = s ↔ (utf8 s).length ≤ budget
  -- At most three more bytes are dropped than have to be.
  length_cut : budget < (utf8 s).length →
    budget ≤ (utf8 (bounded budget s)).length + 3 ∧ (utf8 (bounded budget s)).length ≤ budget
  idempotent : bounded budget (bounded budget s) = bounded budget s

theorem cutsBack (budget : Nat) (s : String) : CutsBack budget s := by
  have longest := isLongestPart_bounded budget s
  refine ⟨fun long => ?_, longest, ⟨fun whole => ?_, bounded_of_length_le⟩, fun long => ?_, ?_⟩
  · obtain ⟨last, found, read, rfl, -⟩ := exists_lastBoundary?_of_lt long
    obtain ⟨dropped, split⟩ := longest.initial
    refine ⟨_, found, Nat.lt_of_le_of_lt longest.fits long, ?_, read⟩
    exact isBoundary_utf8_iff.mpr ⟨_, dropped, split, rfl⟩
  · have fits := longest.fits
    rwa [whole] at fits
  · have kept := longest.budget_lt long
    exact ⟨by omega, longest.fits⟩
  · exact bounded_of_length_le longest.fits

end Text

open Text

/-- The names that a field holds have at most sixteen bytes. -/
theorem NameField.length_le_of_name? {field : NameField} {name : String}
    (h : field.name? = some name) : (utf8 name).length ≤ 16 := by
  have bytes : utf8 name = field.nameBytes := by
    unfold name? at h
    split at h
    · cases h
    · exact ofUtf8?_eq_some_iff.mp h
  have shorter := (List.takeWhile_sublist (l := field.bytes) fun b => b ≠ 0).length_le
  rw [field.length_eq] at shorter
  rwa [bytes]

/-- A name that a field holds is short enough to be kept whole in a record. -/
theorem NameField.bounded_of_name? {field : NameField} {name : String}
    (h : field.name? = some name) : bounded maxIfaceBytes name = name :=
  bounded_of_length_le (Nat.le_trans (length_le_of_name? h) (by decide))

/-- A record keeps the longest part of a name that has at most 32 bytes, which is all of a name
from a name field. -/
theorem ifaceNames_keepLongestPart :
    (∀ name, CutsBack maxIfaceBytes name) ∧
      (∀ name, maxIfaceBytes < (utf8 name).length →
        29 ≤ (utf8 (bounded maxIfaceBytes name)).length ∧
          (utf8 (bounded maxIfaceBytes name)).length ≤ 32) ∧
      ∀ (field : NameField) (name : String), field.name? = some name →
        bounded maxIfaceBytes name = name := by
  refine ⟨cutsBack maxIfaceBytes, fun name long => ?_, fun _ _ => NameField.bounded_of_name?⟩
  obtain ⟨lower, upper⟩ := (cutsBack maxIfaceBytes name).length_cut long
  rw [maxIfaceBytes] at lower upper ⊢
  exact ⟨by omega, upper⟩

/-- A name with 30 bytes in front of a character that has four. -/
def wideName : String := "aaaaaaaaaaaaaaaaaaaaaaaaaaaaaa😀"

/-- That name is cut in front of its last character, and a short one from a name field not at
all. -/
theorem ifaceNames_keepLongestPart_wideName :
    maxIfaceBytes < (utf8 wideName).length ∧ lastBoundary? (utf8 wideName) maxIfaceBytes = some 30 ∧
      CutsBack maxIfaceBytes wideName ∧ 29 ≤ (utf8 (bounded maxIfaceBytes wideName)).length ∧
      (NameField.ofName "wlan0").name? = some "wlan0" ∧ bounded maxIfaceBytes "wlan0" = "wlan0" := by
  obtain ⟨cuts, length, whole⟩ := ifaceNames_keepLongestPart
  have long : maxIfaceBytes < (utf8 wideName).length := by decide +kernel
  have read : (NameField.ofName "wlan0").name? = some "wlan0" := by decide +kernel
  exact ⟨long, by decide +kernel, cuts wideName, (length wideName long).1, read, whole _ _ read⟩

end TrafficStats
