import TrafficStats.Text.Utf8

/-!
# Texts in the order of their bytes

Comparing texts byte by byte comes to comparing them character by character (`compare_utf8`). The
bytes of a character are its number in base 64, with marks on them (`spell`). How many there are
depends on the range of the number, and there is one mark for the first byte of each range
(`forms`), so that the first bytes of characters from different ranges are ordered as the ranges
are; within a range the digits decide.
-/

namespace TrafficStats.Text

def scalars (s : String) : List Nat :=
  s.toList.map Char.toNat

/-! ### Digits -/

/-- A number in base 64, with `more` digits after the first. The first byte carries a mark of its
own, which leaves room for what the other digits cannot hold. -/
def spell (mark : Nat) : Nat → Nat → List Nat
  | 0, n => [mark + n]
  | more + 1, n => spell mark more (n / 64) ++ [0x80 + n % 64]

/-- The first digit of a number that is followed by `more` others. -/
def topDigit : Nat → Nat → Nat
  | 0, n => n
  | more + 1, n => topDigit more (n / 64)

theorem topDigit_mono (more : Nat) {a b : Nat} (h : a ≤ b) : topDigit more a ≤ topDigit more b := by
  induction more generalizing a b with
  | zero => exact h
  | succ more ih => exact ih (Nat.div_le_div_right h)

theorem exists_spell_eq_cons (mark more n : Nat) :
    ∃ rest, spell mark more n = (mark + topDigit more n) :: rest := by
  induction more generalizing n with
  | zero => exact ⟨[], rfl⟩
  | succ more ih =>
      obtain ⟨rest, first⟩ := ih (n / 64)
      refine ⟨rest ++ [0x80 + n % 64], ?_⟩
      rw [spell, first, topDigit, List.cons_append]

theorem compare_add_left (mark a b : Nat) : compare (mark + a) (mark + b) = compare a b := by
  rcases Nat.lt_trichotomy a b with less | rfl | more
  · rw [Nat.compare_eq_lt.mpr less, Nat.compare_eq_lt.mpr (by omega)]
  · rw [Nat.compare_eq_eq.mpr rfl, Nat.compare_eq_eq.mpr rfl]
  · rw [Nat.compare_eq_gt.mpr more, Nat.compare_eq_gt.mpr (by omega)]

/-- The last digit decides between numbers that agree in all others. -/
theorem compare_eq_then (a b : Nat) :
    compare a b = (compare (a / 64) (b / 64)).then (compare (a % 64) (b % 64)) := by
  rcases Nat.lt_trichotomy (a / 64) (b / 64) with less | same | more
  · rw [Nat.compare_eq_lt.mpr less, Nat.compare_eq_lt.mpr (by omega)]
    rfl
  · have left : a = 64 * (b / 64) + a % 64 := by omega
    have right : b = 64 * (b / 64) + b % 64 := by omega
    have digits := compare_add_left (64 * (b / 64)) (a % 64) (b % 64)
    rw [← left, ← right] at digits
    rw [digits, Nat.compare_eq_eq.mpr same]
    rfl
  · rw [Nat.compare_eq_gt.mpr more, Nat.compare_eq_gt.mpr (by omega)]
    rfl

/-- Digit by digit, numbers are compared as such. -/
theorem compare_spell_append (mark more a b : Nat) (u v : List Nat) :
    compare (spell mark more a ++ u) (spell mark more b ++ v) =
      (compare a b).then (compare u v) := by
  induction more generalizing a b u v with
  | zero =>
      change compare ((mark + a) :: u) ((mark + b) :: v) = _
      rw [List.compare_cons_cons, compare_add_left]
  | succ more ih =>
      rw [spell, spell, List.append_assoc, List.append_assoc, ih, List.singleton_append,
        List.singleton_append, List.compare_cons_cons, compare_add_left, ← Ordering.then_assoc,
        ← compare_eq_then]

/-! ### Characters -/

/-- How the characters with the numbers from `first` to below `next` are spelled. -/
structure Form where
  first : Nat
  next : Nat
  mark : Nat
  more : Nat
  deriving DecidableEq

/-- The forms of characters with one to four bytes. -/
def forms : List Form :=
  [⟨0, 0x80, 0, 0⟩, ⟨0x80, 0x800, 0xC0, 1⟩, ⟨0x800, 0x10000, 0xE0, 2⟩,
    ⟨0x10000, 0x110000, 0xF0, 3⟩]

/-- The character is spelled in this form. -/
structure Form.Spells (f : Form) (c : Char) : Prop where
  first_le : f.first ≤ c.toNat
  lt_next : c.toNat < f.next
  bytes : (String.utf8EncodeChar c).map UInt8.toNat = spell f.mark f.more c.toNat

theorem exists_form (c : Char) : ∃ f ∈ forms, f.Spells c := by
  have bound : c.val.toNat < 0x110000 := by
    have valid := c.valid
    simp only [UInt32.isValidChar, Nat.isValidChar] at valid
    omega
  by_cases one : c.val.toNat ≤ 0x7F
  · refine ⟨⟨0, 0x80, 0, 0⟩, by decide, Nat.zero_le _, Nat.lt_succ_of_le one, ?_⟩
    simp only [String.utf8EncodeChar, if_pos one, List.map_cons, List.map_nil,
      UInt8.toNat_ofNat', spell, List.cons.injEq, and_true, Char.toNat]
    omega
  by_cases two : c.val.toNat ≤ 0x7FF
  · refine ⟨⟨0x80, 0x800, 0xC0, 1⟩, by decide, Nat.lt_of_not_le one, Nat.lt_succ_of_le two, ?_⟩
    simp only [String.utf8EncodeChar, if_neg one, if_pos two, List.map_cons, List.map_nil,
      UInt8.toNat_ofNat', spell, List.cons_append, List.nil_append, List.cons.injEq, and_true,
      Char.toNat]
    omega
  by_cases three : c.val.toNat ≤ 0xFFFF
  · refine ⟨⟨0x800, 0x10000, 0xE0, 2⟩, by decide, Nat.lt_of_not_le two, Nat.lt_succ_of_le three, ?_⟩
    simp only [String.utf8EncodeChar, if_neg one, if_neg two, if_pos three, List.map_cons,
      List.map_nil, UInt8.toNat_ofNat', spell, List.cons_append, List.nil_append,
      List.cons.injEq, and_true, Char.toNat]
    omega
  · refine ⟨⟨0x10000, 0x110000, 0xF0, 3⟩, by decide, Nat.lt_of_not_le three, bound, ?_⟩
    simp only [String.utf8EncodeChar, if_neg one, if_neg two, if_neg three, List.map_cons,
      List.map_nil, UInt8.toNat_ofNat', spell, List.cons_append, List.nil_append,
      List.cons.injEq, and_true, Char.toNat]
    omega

/-- All characters of the one form come before those of the other, and so do their first bytes. -/
def Form.Below (f g : Form) : Prop :=
  f.next ≤ g.first ∧ f.mark + topDigit f.more (f.next - 1) < g.mark

instance (f g : Form) : Decidable (f.Below g) :=
  inferInstanceAs (Decidable (_ ∧ _))

theorem forms_apart : ∀ f ∈ forms, ∀ g ∈ forms, f = g ∨ f.Below g ∨ g.Below f := by
  decide

/-- Between characters of different forms, the first byte decides. -/
theorem Form.Below.compare_eq_lt {f g : Form} (below : f.Below g) {c d : Char} (hc : f.Spells c)
    (hd : g.Spells d) (u v : List Nat) :
    compare c.toNat d.toNat = .lt ∧
      compare (spell f.mark f.more c.toNat ++ u) (spell g.mark g.more d.toNat ++ v) = .lt := by
  have lower := hd.first_le
  have upper := hc.lt_next
  have top := topDigit_mono f.more (Nat.le_sub_one_of_lt upper)
  obtain ⟨apart, marks⟩ := below
  obtain ⟨rest, first⟩ := exists_spell_eq_cons f.mark f.more c.toNat
  obtain ⟨rest', first'⟩ := exists_spell_eq_cons g.mark g.more d.toNat
  refine ⟨Nat.compare_eq_lt.mpr (by omega), ?_⟩
  rw [first, first', List.cons_append, List.cons_append, List.compare_cons_cons,
    Nat.compare_eq_lt.mpr (by omega)]
  rfl

theorem compare_utf8EncodeChar_append (c d : Char) (u v : List Nat) :
    compare ((String.utf8EncodeChar c).map UInt8.toNat ++ u)
        ((String.utf8EncodeChar d).map UInt8.toNat ++ v) =
      (compare c.toNat d.toNat).then (compare u v) := by
  obtain ⟨f, hf, hc⟩ := exists_form c
  obtain ⟨g, hg, hd⟩ := exists_form d
  rw [hc.bytes, hd.bytes]
  obtain rfl | below | below := forms_apart f hf g hg
  · exact compare_spell_append f.mark f.more c.toNat d.toNat u v
  · obtain ⟨numbers, bytes⟩ := below.compare_eq_lt hc hd u v
    rw [numbers, bytes]
    rfl
  · obtain ⟨numbers, bytes⟩ := below.compare_eq_lt hd hc v u
    rw [Std.OrientedCmp.gt_of_lt numbers, Std.OrientedCmp.gt_of_lt bytes]
    rfl

/-! ### Texts -/

theorem compare_toNat (a b : UInt8) : compare a.toNat b.toNat = compare a b := by
  change compareOfLessAndEq a.toNat b.toNat = compareOfLessAndEq a b
  simp only [compareOfLessAndEq, UInt8.lt_iff_toNat_lt, UInt8.toNat_inj]

theorem compare_map_toNat (u v : List UInt8) :
    compare (u.map UInt8.toNat) (v.map UInt8.toNat) = compare u v := by
  induction u generalizing v with
  | nil => cases v <;> rfl
  | cons a u ih =>
      cases v with
      | nil => rfl
      | cons b v =>
          rw [List.map_cons, List.map_cons, List.compare_cons_cons, List.compare_cons_cons, ih,
            compare_toNat]

theorem exists_bytes_eq_cons (c : Char) :
    ∃ b rest, (String.utf8EncodeChar c).map UInt8.toNat = b :: rest := by
  obtain ⟨f, -, hc⟩ := exists_form c
  obtain ⟨rest, first⟩ := exists_spell_eq_cons f.mark f.more c.toNat
  exact ⟨_, rest, hc.bytes.trans first⟩

theorem compare_flatMap (cs ds : List Char) :
    compare ((cs.flatMap String.utf8EncodeChar).map UInt8.toNat)
        ((ds.flatMap String.utf8EncodeChar).map UInt8.toNat) =
      compare (cs.map Char.toNat) (ds.map Char.toNat) := by
  induction cs generalizing ds with
  | nil =>
      cases ds with
      | nil => rfl
      | cons d ds =>
          obtain ⟨b, rest, first⟩ := exists_bytes_eq_cons d
          rw [List.flatMap_cons, List.map_append, first]
          rfl
  | cons c cs ih =>
      cases ds with
      | nil =>
          obtain ⟨b, rest, first⟩ := exists_bytes_eq_cons c
          rw [List.flatMap_cons, List.map_append, first]
          rfl
      | cons d ds =>
          rw [List.flatMap_cons, List.flatMap_cons, List.map_append, List.map_append,
            compare_utf8EncodeChar_append, ih, List.map_cons, List.map_cons,
            List.compare_cons_cons]

/-- Texts are in the same order by their bytes as by the numbers of their characters. -/
theorem compare_utf8 (s t : String) :
    compare (utf8 s) (utf8 t) = compare (scalars s) (scalars t) := by
  rw [← compare_map_toNat, utf8, utf8, compare_flatMap]
  rfl

end TrafficStats.Text
