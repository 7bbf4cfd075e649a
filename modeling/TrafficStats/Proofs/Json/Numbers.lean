import TrafficStats.Json.Decode
import TrafficStats.Proofs.Json.Scan

/-!
# Reading numbers

A number is read to its last digit, wherever it ends. What a decoder makes of a whole number in
plain decimal is that number, as long as it fits into 64 bits with its sign.
-/

namespace TrafficStats.Json

open Text

variable {t rest whole fraction exponent : List Char} {c : Char}

/-! ### Runs of digits -/

theorem isDigit_iff (c : Char) : c.isDigit = true ↔ '0' ≤ c ∧ c ≤ '9' := by
  rw [Char.isDigit, Bool.and_eq_true, decide_eq_true_eq, decide_eq_true_eq]
  rfl

theorem digit?_of_isDigit (h : c.isDigit = true) : digit? c = some (c.toNat - '0'.toNat) :=
  if_pos ((isDigit_iff c).mp h)

theorem isDigit_eq (c : Char) : isDigit c = c.isDigit := by
  rw [Bool.eq_iff_iff, isDigit_iff, isDigit, digit?]
  split <;> simp_all

theorem Digits.exists_cons (h : Digits t) : ∃ d u, t = d :: u ∧ d.isDigit = true := by
  obtain ⟨nonempty, digits⟩ := h
  cases t with
  | nil => exact absurd rfl nonempty
  | cons d u => exact ⟨d, u, rfl, digits d List.mem_cons_self⟩

/-- A text that does not go on with a digit. -/
def EndsRun (rest : List Char) : Prop := ∀ c ∈ rest.head?, c.isDigit = false

/-- What holds of all characters that may follow a value. -/
theorem Stops.forall_head {p : Char → Prop} (h : Stops rest)
    (table : ∀ c ∈ blanks ++ [',', ']', '\x7d'], p c) : ∀ c ∈ rest.head?, p c :=
  fun c mem => table c (List.mem_append.mpr (h c mem))

theorem Stops.endsRun (h : Stops rest) : EndsRun rest :=
  h.forall_head (by simp [blanks])

theorem readRun_append (atEnd : Fault) (h : Digits t) (ends : EndsRun rest) :
    readRun atEnd (t ++ rest) = .ok (t, rest) := by
  obtain ⟨nonempty, digits⟩ := h
  have inside : ∀ c ∈ t, isDigit c = true := fun c mem => (isDigit_eq c).trans (digits c mem)
  have boundary : rest.takeWhile isDigit = [] ∧ rest.dropWhile isDigit = rest := by
    cases rest with
    | nil => exact ⟨rfl, rfl⟩
    | cons c u =>
        have stops := (isDigit_eq c).trans (ends c rfl)
        simp [stops]
  unfold readRun
  rw [List.takeWhile_append_of_pos inside, List.dropWhile_append_of_pos inside, boundary.1,
    boundary.2, List.append_nil]
  split
  · exact absurd rfl nonempty
  · exact absurd rfl nonempty
  · rfl

/-! ### Numerals -/

theorem readWhole_append (atEnd : Fault) (h : Whole t) (ends : EndsRun rest) :
    readWhole atEnd (t ++ rest) = .ok (t, rest) := by
  unfold readWhole
  cases h with
  | zero =>
      have run : Digits ['0'] := ⟨nofun, by simp⟩
      rw [readRun_append atEnd run ends]
      rfl
  | positive run leading =>
      rw [readRun_append atEnd run ends]
      split
      · rename_i eq
        cases eq
        exact absurd rfl leading
      · rfl

theorem readFraction_absent (atEnd : Fault) (absent : ∀ c ∈ rest.head?, c ≠ '.') :
    readFraction atEnd rest = .ok ([], rest) := by
  unfold readFraction
  split
  · exact absurd rfl (absent _ rfl)
  · rfl

theorem readFraction_append (atEnd : Fault) (h : Fraction t) (absent : ∀ c ∈ rest.head?, c ≠ '.')
    (ends : EndsRun rest) : ∃ digits, readFraction atEnd (t ++ rest) = .ok (digits, rest) := by
  cases h with
  | absent => exact ⟨[], readFraction_absent atEnd absent⟩
  | point run => exact ⟨_, readRun_append atEnd run ends⟩

theorem readExponent?_absent (atEnd : Fault) (absent : ∀ c ∈ rest.head?, c ∉ ['e', 'E']) :
    readExponent? atEnd rest = .ok (none, rest) := by
  unfold readExponent?
  split
  · exact absurd (by decide) (absent _ rfl)
  · exact absurd (by decide) (absent _ rfl)
  · rfl

theorem readExponent_append (atEnd : Fault) {sign : List Char} (signed : sign ∈ [[], ['+'], ['-']])
    (run : Digits t) (ends : EndsRun rest) :
    ∃ power, readExponent atEnd (sign ++ t ++ rest) = .ok (power, rest) := by
  have read := readRun_append atEnd run ends
  simp only [List.mem_cons, List.not_mem_nil, or_false] at signed
  obtain rfl | rfl | rfl := signed
  · obtain ⟨d, u, rfl, digit⟩ := run.exists_cons
    have minus : d ≠ '-' := by
      rintro rfl
      cases digit
    have plus : d ≠ '+' := by
      rintro rfl
      cases digit
    rw [List.nil_append, List.cons_append, readExponent, ← List.cons_append, read]
    · exact ⟨_, rfl⟩
    · simpa using minus
    · simpa using plus
  · simp only [List.cons_append, List.nil_append, readExponent, read]
    exact ⟨_, rfl⟩
  · simp only [List.cons_append, List.nil_append, readExponent, read]
    exact ⟨_, rfl⟩

theorem readExponent?_append (atEnd : Fault) (h : Exponent t) (stops : Stops rest) :
    ∃ power, readExponent? atEnd (t ++ rest) = .ok (power, rest) := by
  cases h with
  | absent => exact ⟨none, readExponent?_absent atEnd (stops.forall_head (by simp [blanks]))⟩
  | @power letter sign t h signed run =>
      obtain ⟨power, read⟩ := readExponent_append atEnd signed run stops.endsRun
      simp only [List.mem_cons, List.not_mem_nil, or_false] at h
      obtain rfl | rfl := h
      · simp only [List.cons_append, readExponent?, read]
        exact ⟨_, rfl⟩
      · simp only [List.cons_append, readExponent?, read]
        exact ⟨_, rfl⟩

theorem endsRun_exponent (h : Exponent t) (stops : Stops rest) :
    EndsRun (t ++ rest) ∧ ∀ c ∈ (t ++ rest).head?, c ≠ '.' := by
  cases h with
  | absent => exact ⟨stops.endsRun, stops.forall_head (by simp [blanks])⟩
  | power h signed run =>
      have table : ∀ c ∈ ['e', 'E'], c.isDigit = false ∧ c ≠ '.' := by simp
      constructor
      all_goals
        intro c mem
        cases mem
      · exact (table _ h).1
      · exact (table _ h).2

theorem endsRun_fraction (h : Fraction t) (ends : EndsRun rest) : EndsRun (t ++ rest) := by
  cases h with
  | absent => exact ends
  | point run =>
      intro c mem
      cases mem
      rfl

/-- A number without its sign is read up to what may follow a value. -/
theorem readNumeral_append (atEnd : Fault) (negative : Bool) (h : Unsigned t)
    (stops : Stops rest) :
    ∃ numeral, readNumeral atEnd negative (t ++ rest) = .ok (numeral, rest) := by
  cases h with
  | @parts whole fraction exponent hw hf he =>
      obtain ⟨ends, point⟩ := endsRun_exponent he stops
      obtain ⟨digits, readFraction⟩ := readFraction_append atEnd hf point ends
      obtain ⟨power, readExponent⟩ := readExponent?_append atEnd he stops
      have readWhole := readWhole_append atEnd hw (endsRun_fraction hf ends)
      refine ⟨⟨negative, whole, digits, power⟩, ?_⟩
      rw [readNumeral, List.append_assoc, List.append_assoc, readWhole]
      simp only [bind, Except.bind, readFraction, readExponent]
      rfl

/-! ### Plain decimal -/

theorem head?_toDigits {n : Nat} (positive : 0 < n) : (Nat.toDigits 10 n).head? ≠ some '0' := by
  induction n using Nat.strongRecOn with
  | ind n ih =>
      by_cases small : n < 10
      · rw [Nat.toDigits_of_lt_base small, List.head?_cons]
        intro zero
        have isZero := Nat.digitChar_eq_zero.mp (Option.some.inj zero)
        omega
      · have head := ih (n / 10) (by omega) (by omega)
        obtain ⟨d, u, split⟩ :=
          List.exists_cons_of_ne_nil (Nat.toDigits_ne_nil (b := 10) (n := n / 10))
        rw [split] at head
        rw [Nat.toDigits_of_base_le (by decide) (by omega), split]
        exact head

theorem digits_toDigits (n : Nat) : Digits (Nat.toDigits 10 n) :=
  ⟨Nat.toDigits_ne_nil, fun _ h => Nat.isDigit_of_mem_toDigits (by decide) (by decide) h⟩

theorem whole_toDigits (n : Nat) : Whole (Nat.toDigits 10 n) := by
  cases n with
  | zero => exact .zero
  | succ n => exact .positive (digits_toDigits _) (head?_toDigits n.succ_pos)

theorem le_ofDigitChars (n : Nat) (t : List Char) : n ≤ Nat.ofDigitChars 10 t n := by
  induction t generalizing n with
  | nil => exact Nat.le_refl n
  | cons c t ih =>
      rw [Nat.ofDigitChars_cons]
      have larger := ih (10 * n + (c.toNat - '0'.toNat))
      omega

/-- As long as the number fits, no digit of it is dropped. -/
theorem appendDigits_eq {n : Nat} (digits : ∀ c ∈ t, c.isDigit = true)
    (fits : Nat.ofDigitChars 10 t n ≤ maxSignificand) :
    appendDigits n t = (Nat.ofDigitChars 10 t n, t.length) := by
  induction t generalizing n with
  | nil => rfl
  | cons c t ih =>
      rw [Nat.ofDigitChars_cons, Nat.mul_comm] at fits ⊢
      have value := digit?_of_isDigit (digits c List.mem_cons_self)
      have next := Nat.le_trans (le_ofDigitChars _ t) fits
      have rest := ih (fun d h => digits d (List.mem_cons_of_mem c h)) fits
      rw [appendDigits]
      simp only [value, Option.getD_some, if_pos next, rest, List.length_cons]

/-- A number in plain decimal that fits into 64 bits is read exactly. -/
theorem readNumber_toDigits (negative : Bool) {n : Nat} (fits : n ≤ maxSignificand)
    (stops : Stops rest) :
    readNumber negative (Nat.toDigits 10 n ++ rest) = .ok (signedWhole negative n, rest) := by
  have numeral : readNumeral .truncated negative (Nat.toDigits 10 n ++ rest) =
      .ok (⟨negative, Nat.toDigits 10 n, [], none⟩, rest) := by
    rw [readNumeral, readWhole_append .truncated (whole_toDigits n) stops.endsRun]
    simp only [bind, Except.bind]
    rw [readFraction_absent .truncated (stops.forall_head (by simp [blanks]))]
    simp only
    rw [readExponent?_absent .truncated (stops.forall_head (by simp [blanks]))]
    rfl
  have exact : appendDigits 0 (Nat.toDigits 10 n) = (n, (Nat.toDigits 10 n).length) := by
    have value : Nat.ofDigitChars 10 (Nat.toDigits 10 n) 0 = n := Nat.ofDigitChars_ten_toDigits
    have whole := appendDigits_eq (n := 0) (digits_toDigits n).2 (by rwa [value])
    rwa [value] at whole
  have value : (⟨negative, Nat.toDigits 10 n, [], none⟩ : Numeral).value? =
      some (signedWhole negative n) := by
    simp [Numeral.value?, exact]
  rw [readNumber, numeral]
  simp only [bind, Except.bind, value]
  rfl

/-- A number whose value nobody wants is passed over. -/
theorem skipNumber_append (h : Unsigned t) (stops : Stops rest) :
    skipNumber (t ++ rest) = .ok rest := by
  obtain ⟨numeral, read⟩ := readNumeral_append .malformed false h stops
  rw [skipNumber, read]
  rfl

end TrafficStats.Json
