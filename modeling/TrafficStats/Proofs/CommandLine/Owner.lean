import TrafficStats.CommandLine.Value
import TrafficStats.Proofs.Json.Numbers

/-!
# Numbers and owners on the command line

A number is accepted exactly if it is made of ASCII digits, with a plus sign in front or without
one, and is no larger than the limit; it is read as the value of its digits, however many zeros
they begin with (`readNatural_eq_ok_iff`). An owner is such a number of 32 bits, or the word "all"
in letters of either case.
-/

namespace TrafficStats

namespace Text

open Json

variable {limit n v : Nat} {t digits : List Char}

/-! ### Digits -/

theorem digit?_eq_none_iff (c : Char) : digit? c = none ↔ c.isDigit = false := by
  rw [← isDigit_eq, isDigit, Option.isSome_eq_false_iff, Option.isNone_iff_eq_none]

/-- Digits are read to their end if no part of the number exceeds the limit. It is enough to look
at the whole number, since every further digit makes it larger. -/
theorem readDigits_eq_ok_iff (within : n ≤ limit) :
    readDigits limit n t = .ok v ↔
      (∀ c ∈ t, c.isDigit = true) ∧ Nat.ofDigitChars 10 t n = v ∧ v ≤ limit := by
  induction t generalizing n with
  | nil =>
      rw [readDigits, Except.ok.injEq, Nat.ofDigitChars_nil]
      exact ⟨fun eq => ⟨nofun, eq, eq ▸ within⟩, fun h => h.2.1⟩
  | cons c t ih =>
      rw [readDigits, List.forall_mem_cons]
      cases digit : c.isDigit with
      | false =>
          rw [(digit?_eq_none_iff c).mpr digit]
          simp
      | true =>
          rw [digit?_of_isDigit digit, Nat.ofDigitChars_cons, Nat.mul_comm 10 n]
          simp only [true_and]
          split
          · rename_i exceeds
            refine iff_of_false nofun ?_
            rintro ⟨-, rfl, fits⟩
            exact absurd (Nat.le_trans (le_ofDigitChars _ t) fits) (Nat.not_le.mpr exceeds)
          · rename_i fits
            exact ih (Nat.not_lt.mp fits)

/-! ### Numbers -/

/-- The texts of a number: digits, with a plus sign in front of them or without one. -/
inductive Decimal : Nat → List Char → Prop
  | plain {digits : List Char} (h : Digits digits) :
      Decimal (Nat.ofDigitChars 10 digits 0) digits
  | plus {digits : List Char} (h : Digits digits) :
      Decimal (Nat.ofDigitChars 10 digits 0) ('+' :: digits)

theorem readDigits_zero_eq_ok_iff (nonempty : digits ≠ []) :
    readDigits limit 0 digits = .ok v ↔
      Digits digits ∧ Nat.ofDigitChars 10 digits 0 = v ∧ v ≤ limit := by
  rw [readDigits_eq_ok_iff (Nat.zero_le limit), Digits, and_iff_right nonempty]

/-- A text is read as a number exactly if it is the text of one that fits. -/
theorem readNatural_eq_ok_iff :
    readNatural limit t = .ok v ↔ Decimal v t ∧ v ≤ limit := by
  constructor
  · intro read
    unfold readNatural at read
    split at read
    · cases read
    · cases read
    · obtain ⟨digits, rfl, fits⟩ := (readDigits_zero_eq_ok_iff (by simp)).mp read
      exact ⟨.plus digits, fits⟩
    · obtain ⟨digits, rfl, fits⟩ := (readDigits_zero_eq_ok_iff (by simp)).mp read
      exact ⟨.plain digits, fits⟩
  · rintro ⟨written, fits⟩
    cases written with
    | plain h =>
        have read := (readDigits_zero_eq_ok_iff h.1).mpr ⟨h, rfl, fits⟩
        obtain ⟨d, u, rfl, digit⟩ := h.exists_cons
        have unsigned : d ≠ '+' := by
          rintro rfl
          cases digit
        rw [readNatural, read]
        · exact fun same => absurd same unsigned
        · exact fun _ _ same => absurd same unsigned
    | plus h =>
        have read := (readDigits_zero_eq_ok_iff h.1).mpr ⟨h, rfl, fits⟩
        obtain ⟨d, u, rfl, -⟩ := h.exists_cons
        rw [readNatural, read]

/-- A number that is printed is the text of itself. -/
theorem decimal_natural (n : Nat) : Decimal n (natural n).toList := by
  rw [natural, String.toList_ofList]
  have value : Nat.ofDigitChars 10 (Nat.toDigits 10 n) 0 = n := Nat.ofDigitChars_ten_toDigits
  have plain := Decimal.plain (digits_toDigits n)
  rwa [value] at plain

end Text

/-! ### Owners -/

/-- The word for all owners, in letters of either case. -/
inductive WordAll : List Char → Prop
  | letters {a l l' : Char} (ha : a ∈ ['a', 'A']) (hl : l ∈ ['l', 'L']) (hl' : l' ∈ ['l', 'L']) :
      WordAll [a, l, l']

inductive OwnerText : UInt32 → List Char → Prop
  | all {t : List Char} (h : WordAll t) : OwnerText uidAll t
  | number {uid : UInt32} {t : List Char} (h : Text.Decimal uid.toNat t) : OwnerText uid t

theorem toNat_toLower (c : Char) :
    c.toLower.toNat = if 65 ≤ c.toNat ∧ c.toNat ≤ 90 then c.toNat + 32 else c.toNat := by
  by_cases upper : 65 ≤ c.toNat ∧ c.toNat ≤ 90
  · have lowered : c.toLower.val = c.val + 32 := congrArg Char.val (dif_pos upper)
    rw [if_pos upper]
    change c.toLower.val.toNat = c.toNat + 32
    rw [lowered, UInt32.toNat_add]
    change (c.toNat + 32) % 4294967296 = c.toNat + 32
    omega
  · have same : c.toLower = c := dif_neg upper
    rw [if_neg upper, same]

/-- No other character than a letter and its capital is that letter in lower case. -/
theorem toLower_eq_iff {c lower upper : Char} (letter : 97 ≤ lower.toNat ∧ lower.toNat ≤ 122)
    (pair : lower.toNat = upper.toNat + 32) : c.toLower = lower ↔ c ∈ [lower, upper] := by
  rw [List.mem_cons, List.mem_singleton, ← Char.toNat_inj, ← Char.toNat_inj, ← Char.toNat_inj,
    toNat_toLower]
  split <;> omega

theorem wordAll_iff {t : List Char} : t.map Char.toLower = ['a', 'l', 'l'] ↔ WordAll t := by
  have a (c : Char) : c.toLower = 'a' ↔ c ∈ ['a', 'A'] := toLower_eq_iff (by decide) rfl
  have l (c : Char) : c.toLower = 'l' ↔ c ∈ ['l', 'L'] := toLower_eq_iff (by decide) rfl
  constructor
  · intro lowered
    obtain ⟨c, t, rfl, hc, lowered⟩ := List.map_eq_cons_iff.mp lowered
    obtain ⟨c', t, rfl, hc', lowered⟩ := List.map_eq_cons_iff.mp lowered
    obtain ⟨c'', t, rfl, hc'', lowered⟩ := List.map_eq_cons_iff.mp lowered
    obtain rfl := List.map_eq_nil_iff.mp lowered
    exact .letters ((a c).mp hc) ((l c').mp hc') ((l c'').mp hc'')
  · rintro ⟨ha, hl, hl'⟩
    rw [List.map_cons, List.map_cons, List.map_singleton, (a _).mpr ha, (l _).mpr hl, (l _).mpr hl']

theorem Text.Decimal.not_wordAll {v : Nat} {t : List Char} (h : Text.Decimal v t) :
    ¬ WordAll t := by
  rintro ⟨ha, -, -⟩
  simp only [List.mem_cons, List.not_mem_nil, or_false] at ha
  obtain rfl | rfl := ha
  all_goals
    cases h with
    | plain digits => exact absurd (digits.2 _ List.mem_cons_self) (by decide)

theorem toNat_ofNat_of_le {n : Nat} (fits : n ≤ 4294967295) : (UInt32.ofNat n).toNat = n := by
  have small : n < UInt32.size := Nat.lt_succ_of_le fits
  exact UInt32.toNat_ofNat_of_lt' small

theorem readOwner_eq_ok_iff {raw : String} {uid : UInt32} :
    readOwner raw = .ok uid ↔ OwnerText uid raw.toList := by
  unfold readOwner
  split
  · rename_i lowered
    have word := wordAll_iff.mp lowered
    rw [Except.ok.injEq]
    constructor
    · rintro rfl
      exact .all word
    · intro written
      cases written with
      | all => rfl
      | number h => exact absurd word h.not_wordAll
  · rename_i other
    have noWord := mt wordAll_iff.mpr other
    constructor
    · intro read
      split at read
      · rename_i n readNumber
        obtain ⟨written, fits⟩ := Text.readNatural_eq_ok_iff.mp readNumber
        cases read
        exact .number ((toNat_ofNat_of_le fits).symm ▸ written)
      · cases read
    · intro written
      cases written with
      | all word => exact absurd word noWord
      | number h =>
          have upper := uid.toNat_lt
          rw [Text.readNatural_eq_ok_iff.mpr ⟨h, by omega⟩]
          exact congrArg _ UInt32.ofNat_toNat

theorem raw_of_readOwner_eq_error {raw : String} {e : OwnerFault}
    (h : readOwner raw = .error e) : e.raw = raw := by
  unfold readOwner at h
  split at h
  · cases h
  · split at h
    · cases h
    · cases h
      rfl

/-- The texts that name an owner are the word and the numbers of 32 bits. -/
theorem exists_ownerText_iff {t : List Char} :
    (∃ uid, OwnerText uid t) ↔ WordAll t ∨ ∃ v ≤ 4294967295, Text.Decimal v t := by
  constructor
  · rintro ⟨uid, word | number⟩
    · exact .inl word
    · have upper := uid.toNat_lt
      exact .inr ⟨uid.toNat, by omega, number⟩
  · rintro (word | ⟨v, fits, number⟩)
    · exact ⟨uidAll, .all word⟩
    · exact ⟨.ofNat v, .number ((toNat_ofNat_of_le fits).symm ▸ number)⟩

/-- An owner is read from its texts and from nothing else: a text that names none is refused with
a message about it, and every owner is read from its number. -/
theorem readOwner_acceptsGrammar :
    (∀ raw uid, readOwner raw = .ok uid ↔ OwnerText uid raw.toList) ∧
    (∀ raw, (∃ uid, readOwner raw = .ok uid) ↔
      WordAll raw.toList ∨ ∃ v ≤ 4294967295, Text.Decimal v raw.toList) ∧
    (∀ raw, (∀ uid, ¬ OwnerText uid raw.toList) → ∃ fault, readOwner raw = .error ⟨raw, fault⟩) ∧
    ∀ uid : UInt32, readOwner (Text.natural uid.toNat) = .ok uid := by
  refine ⟨fun raw uid => readOwner_eq_ok_iff, fun raw => ?_, fun raw none => ?_, fun uid => ?_⟩
  · simp only [readOwner_eq_ok_iff, exists_ownerText_iff]
  · cases read : readOwner raw with
    | ok uid => exact absurd (readOwner_eq_ok_iff.mp read) (none uid)
    | error e =>
        obtain rfl := raw_of_readOwner_eq_error read
        exact ⟨e.fault, rfl⟩
  · exact readOwner_eq_ok_iff.mpr (.number (Text.decimal_natural uid.toNat))

end TrafficStats
