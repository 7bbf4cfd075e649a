import TrafficStats.Text.Utf8

/-!
# Text within a byte budget

A text that is too long is cut at the end, never inside a character: the cut starts where the
budget ends and moves back, byte by byte, until a character begins behind it. The search could
leave the text at its front, and what stands before the cut could be no text, so that `cutBack?`
may fail. It never does (`exists_cutBack?`), since a character begins at a byte exactly if the
text can be divided there (`isBoundary_utf8_iff`); `bounded` is what it yields.
-/

namespace TrafficStats.Text

/-- Whether a character begins at a byte of a text, or the text ends there. -/
def isBoundary (bytes : List UInt8) (i : Nat) : Bool :=
  match bytes[i]? with
  | some b => b.IsUTF8FirstByte
  | none => i = bytes.length

/-- The last boundary up to a byte. The search moves back while there is none, and fails if there
is none at the first byte either. -/
def lastBoundary? (bytes : List UInt8) : Nat → Option Nat
  | 0 => if isBoundary bytes 0 then some 0 else none
  | i + 1 => if isBoundary bytes (i + 1) then some (i + 1) else lastBoundary? bytes i

def cutBack? (budget : Nat) (s : String) : Option String :=
  if (utf8 s).length ≤ budget then some s
  else (lastBoundary? (utf8 s) budget).bind fun last => ofUtf8? ((utf8 s).take last)

/-! ### Where characters begin -/

/-- Of the bytes of a character, it begins at the first one only. -/
theorem isBoundary_utf8EncodeChar {c : Char} {back : List UInt8} {i : Nat} (h : i < c.utf8Size) :
    isBoundary (String.utf8EncodeChar c ++ back) i = true ↔ i = 0 := by
  have inside : i < (String.utf8EncodeChar c).length := by
    rwa [String.length_utf8EncodeChar]
  rw [isBoundary, List.getElem?_append_left inside, List.getElem?_eq_getElem inside]
  simp only [decide_eq_true_eq]
  exact UInt8.isUTF8FirstByte_getElem_utf8EncodeChar

theorem isBoundary_append {front back : List UInt8} {i : Nat} (h : front.length ≤ i) :
    isBoundary (front ++ back) i = isBoundary back (i - front.length) := by
  have ends : (i = (front ++ back).length) = (i - front.length = back.length) := by
    rw [List.length_append, eq_iff_iff]
    omega
  unfold isBoundary
  rw [List.getElem?_append_right h]
  simp only [ends]

theorem isBoundary_flatMap_iff {cs : List Char} {i : Nat} :
    isBoundary (cs.flatMap String.utf8EncodeChar) i = true ↔
      ∃ front back, cs = front ++ back ∧ byteLength front = i := by
  induction cs generalizing i with
  | nil => simp [isBoundary, eq_comm]
  | cons c rest ih =>
    rw [List.flatMap_cons]
    by_cases inside : i < c.utf8Size
    · rw [isBoundary_utf8EncodeChar inside]
      constructor
      · rintro rfl
        exact ⟨[], c :: rest, rfl, rfl⟩
      · rintro ⟨front, back, split, length⟩
        cases front with
        | nil => exact length.symm
        | cons d front =>
          cases split
          rw [byteLength_cons] at length
          omega
    · have beyond : (String.utf8EncodeChar c).length ≤ i := by
        rw [String.length_utf8EncodeChar]
        omega
      rw [isBoundary_append beyond, String.length_utf8EncodeChar, ih]
      constructor
      · rintro ⟨front, back, rfl, length⟩
        refine ⟨c :: front, back, rfl, ?_⟩
        rw [byteLength_cons]
        omega
      · rintro ⟨front, back, split, length⟩
        cases front with
        | nil =>
          have wide := c.utf8Size_pos
          rw [byteLength_nil] at length
          omega
        | cons d front =>
          cases split
          rw [byteLength_cons] at length
          exact ⟨front, back, rfl, by omega⟩

/-- The boundaries of a text are where it can be divided into two. -/
theorem isBoundary_utf8_iff {s : String} {i : Nat} :
    isBoundary (utf8 s) i = true ↔ ∃ p dropped, s = p ++ dropped ∧ (utf8 p).length = i := by
  rw [utf8, isBoundary_flatMap_iff]
  constructor
  · rintro ⟨front, back, split, length⟩
    refine ⟨String.ofList front, String.ofList back, ?_, ?_⟩
    · rw [← String.ofList_append, ← split, String.ofList_toList]
    · rw [length_utf8, String.toList_ofList, length]
  · rintro ⟨p, dropped, rfl, length⟩
    exact ⟨p.toList, dropped.toList, String.toList_append, (length_utf8 p).symm.trans length⟩

/-! ### The cut -/

/-- The search succeeds within a text, and passes over no boundary. -/
theorem exists_lastBoundary? (s : String) (n : Nat) :
    ∃ last, lastBoundary? (utf8 s) n = some last ∧ last ≤ n ∧
      isBoundary (utf8 s) last = true ∧ ∀ i, isBoundary (utf8 s) i = true → i ≤ n → i ≤ last := by
  induction n with
  | zero =>
    have start : isBoundary (utf8 s) 0 = true :=
      isBoundary_utf8_iff.mpr ⟨"", s, String.empty_append.symm, rfl⟩
    exact ⟨0, if_pos start, Nat.le_refl 0, start, fun _ _ le => le⟩
  | succ n ih =>
    rw [lastBoundary?]
    by_cases here : isBoundary (utf8 s) (n + 1) = true
    · exact ⟨n + 1, if_pos here, Nat.le_refl _, here, fun _ _ le => le⟩
    · obtain ⟨last, found, le, boundary, greatest⟩ := ih
      refine ⟨last, (if_neg here).trans found, Nat.le_succ_of_le le, boundary, ?_⟩
      intro i hi bound
      have differs : i ≠ n + 1 := fun same => here (same ▸ hi)
      exact greatest i hi (by omega)

theorem ofUtf8?_take_append (p dropped : String) :
    ofUtf8? ((utf8 (p ++ dropped)).take (utf8 p).length) = some p := by
  rw [utf8_append, List.take_left, ofUtf8?_utf8]

theorem exists_cutBack? (budget : Nat) (s : String) : ∃ p, cutBack? budget s = some p := by
  rw [cutBack?]
  split
  · exact ⟨s, rfl⟩
  · obtain ⟨last, found, -, boundary, -⟩ := exists_lastBoundary? s budget
    obtain ⟨p, dropped, rfl, rfl⟩ := isBoundary_utf8_iff.mp boundary
    refine ⟨p, ?_⟩
    rw [found, Option.bind_some, ofUtf8?_take_append]

def bounded (budget : Nat) (s : String) : String :=
  (cutBack? budget s).get (Option.isSome_iff_exists.mpr (exists_cutBack? budget s))

theorem bounded_eq_of_cutBack? {budget : Nat} {s p : String} (h : cutBack? budget s = some p) :
    bounded budget s = p := by
  rw [bounded]
  exact Option.get_of_eq_some _ h

end TrafficStats.Text
