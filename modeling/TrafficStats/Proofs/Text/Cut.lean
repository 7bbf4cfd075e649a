import TrafficStats.Proofs.Text.Bounded

/-!
# Cutting a text between two bytes

The first bytes of a text are a text again exactly if the cut falls between two characters, and
then they are the longest part of the text that has no more bytes (`ofUtf8?_take`). A name field
keeps the first fifteen bytes of a name wherever that cuts, so the name can be read back from it
in this case only (`name?_ofName`).
-/

namespace TrafficStats

namespace Text

variable {budget : Nat} {s : String}

/-! ### The first bytes -/

/-- The first bytes of a text are whole characters. -/
def CutsBetween (budget : Nat) (s : String) : Prop :=
  utf8 (bounded budget s) = (utf8 s).take budget

instance (budget : Nat) (s : String) : Decidable (CutsBetween budget s) :=
  inferInstanceAs (Decidable (_ = _))

/-- A text whose bytes come first in another one comes first in it. -/
theorem exists_append_of_utf8 {p : String} (h : (utf8 p).IsPrefix (utf8 s)) :
    ∃ dropped, s = p ++ dropped := by
  obtain ⟨rest, split⟩ := h
  have chars : p.toList.IsPrefix s.toList := by
    apply List.isPrefix_of_utf8Encode_append_eq_utf8Encode rest.toByteArray
    rw [List.utf8Encode, List.utf8Encode, ← List.toByteArray_append]
    exact congrArg List.toByteArray split
  obtain ⟨back, split⟩ := chars
  refine ⟨String.ofList back, ?_⟩
  rw [← String.toList_inj, String.toList_append, String.toList_ofList, split]

/-- That is, the text has a part of just as many bytes. -/
theorem cutsBetween_iff : CutsBetween budget s ↔ ∃ p, utf8 p = (utf8 s).take budget := by
  constructor
  · exact fun cuts => ⟨_, cuts⟩
  · rintro ⟨p, bytes⟩
    have longest : IsLongestPart budget s p := by
      refine ⟨exists_append_of_utf8 (bytes ▸ List.take_prefix budget (utf8 s)), ?_, ?_⟩
      · rw [bytes]
        exact List.length_take_le _ _
      · rintro q ⟨dropped, rfl⟩ fits
        rw [bytes, List.length_take, utf8_append, List.length_append]
        omega
    rw [CutsBetween, bounded_eq_iff.mpr longest, bytes]

/-- The first bytes can be read if they are whole characters, and are then the longest part of
the text that fits. -/
theorem ofUtf8?_take (budget : Nat) (s : String) :
    ofUtf8? ((utf8 s).take budget) =
      if CutsBetween budget s then some (bounded budget s) else none := by
  split
  · rename_i cuts
    rw [← cuts, ofUtf8?_utf8]
  · rename_i cuts
    rw [Option.eq_none_iff_forall_ne_some]
    intro p read
    exact cuts (cutsBetween_iff.mpr ⟨p, ofUtf8?_eq_some_iff.mp read⟩)

/-- A text that is short enough is not cut at all. -/
theorem cutsBetween_of_length_le (short : (utf8 s).length ≤ budget) : CutsBetween budget s := by
  rw [CutsBetween, bounded_of_length_le short, List.take_of_length_le short]

/-! ### Zeros -/

theorem zero_notMem_utf8EncodeChar {c : Char} (nonzero : c ≠ '\x00') :
    0 ∉ String.utf8EncodeChar c := by
  have positive : c.val.toNat ≠ 0 := by
    intro zero
    exact nonzero (Char.ext (UInt32.toNat_inj.mp zero))
  -- The first byte is the character itself or has its highest bit set, as all further ones have.
  have differs (n : Nat) (h : n % 256 ≠ 0) : (0 : UInt8) ≠ UInt8.ofNat n := by
    intro same
    have eq := congrArg UInt8.toNat same
    rw [UInt8.toNat_ofNat'] at eq
    exact h eq.symm
  rw [String.utf8EncodeChar]
  split
  · simp only [List.mem_singleton]
    exact differs _ (by omega)
  · split
    · simp only [List.mem_cons, List.not_mem_nil, or_false, not_or]
      exact ⟨differs _ (by omega), differs _ (by omega)⟩
    · split
      · simp only [List.mem_cons, List.not_mem_nil, or_false, not_or]
        exact ⟨differs _ (by omega), differs _ (by omega), differs _ (by omega)⟩
      · simp only [List.mem_cons, List.not_mem_nil, or_false, not_or]
        exact ⟨differs _ (by omega), differs _ (by omega), differs _ (by omega),
          differs _ (by omega)⟩

theorem zero_notMem_utf8 (noNul : '\x00' ∉ s.toList) : 0 ∉ utf8 s := by
  intro mem
  obtain ⟨c, hc, zero⟩ := List.mem_flatMap.mp mem
  exact zero_notMem_utf8EncodeChar (fun same => noNul (same ▸ hc)) zero

end Text

namespace NameField

open Text

/-- The field of a name holds its first fifteen bytes. -/
theorem nameBytes_ofName {name : String} (noNul : '\x00' ∉ name.toList) :
    (ofName name).nameBytes = (utf8 name).take 15 := by
  have short : ((utf8 name).take 15).length ≤ 15 := List.length_take_le _ _
  have nonzero : ∀ b ∈ (utf8 name).take 15, decide (b ≠ 0) = true := by
    intro b hb
    rw [decide_eq_true_iff]
    rintro rfl
    exact zero_notMem_utf8 noNul (List.mem_of_mem_take hb)
  rw [nameBytes, ofName, ofBytes]
  dsimp only
  rw [List.take_of_length_le (by omega), List.takeWhile_append_of_pos nonzero]
  simp

/-- The name that is read back from the field of a name. -/
theorem name?_ofName {name : String} (nonempty : name ≠ "") (noNul : '\x00' ∉ name.toList) :
    (ofName name).name? = if CutsBetween 15 name then some (bounded 15 name) else none := by
  have some_bytes : (ofName name).nameBytes ≠ [] := by
    rw [nameBytes_ofName noNul]
    intro nothing
    have unread : utf8 name = [] := by
      rw [List.take_eq_nil_iff] at nothing
      exact nothing.resolve_left (by decide)
    exact nonempty (utf8_injective unread)
  rw [name?, if_neg some_bytes, nameBytes_ofName noNul, ofUtf8?_take]

end NameField

end TrafficStats
