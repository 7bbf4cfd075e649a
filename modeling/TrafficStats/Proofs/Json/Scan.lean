import TrafficStats.Proofs.Json.Grammar

/-!
# Reading blanks and strings

Blanks are skipped up to the next part of a text, and a string is read to its closing quote,
however its characters are spelled. What comes afterwards is left as it is, so these facts can be
chained along a text.
-/

namespace TrafficStats.Json

variable {b t ts rest : List Char} {c letter : Char} {n : Nat}

/-! ### Blanks -/

theorem isBlank_iff (c : Char) : isBlank c = true ↔ c ∈ blanks := by
  simp [isBlank, blanks]

theorem blanks_nil : Blanks [] := nofun

theorem skipBlanks_append (hb : Blanks b) (t : List Char) : skipBlanks (b ++ t) = skipBlanks t :=
  List.dropWhile_append_of_pos fun c h => (isBlank_iff c).mpr (hb c h)

@[simp] theorem skipBlanks_cons (h : c ∉ blanks) : skipBlanks (c :: t) = c :: t := by
  rw [skipBlanks, List.dropWhile_cons_of_neg]
  rwa [isBlank_iff]

theorem skipBlanks_eq_nil (hb : Blanks b) : skipBlanks b = [] := by
  rw [← List.append_nil b, skipBlanks_append hb]
  rfl

/-- A text that begins with neither a blank nor a character that separates values. -/
def Starts (t : List Char) : Prop :=
  ∃ c u, t = c :: u ∧ c ∉ blanks ∧ c ∉ [',', ']', '\x7d']

theorem Starts.skipBlanks (h : Starts t) (hb : Blanks b) (rest : List Char) :
    skipBlanks (b ++ (t ++ rest)) = t ++ rest := by
  obtain ⟨c, u, rfl, solid, -⟩ := h
  rw [skipBlanks_append hb, List.cons_append, skipBlanks_cons solid]

theorem Starts.append (h : Starts t) (x : List Char) : Starts (t ++ x) := by
  obtain ⟨c, u, rfl, solid, begins⟩ := h
  exact ⟨c, u ++ x, rfl, solid, begins⟩

theorem Starts.length_pos (h : Starts t) : 0 < t.length := by
  obtain ⟨c, u, rfl, -⟩ := h
  exact Nat.succ_pos _

theorem Starts.length_lt (h : Starts t) (rest : List Char) : rest.length < (t ++ rest).length := by
  obtain ⟨c, u, rfl, -⟩ := h
  simp only [List.cons_append, List.length_cons, List.length_append]
  omega

theorem length_lt_append_cons (r : List Char) (c : Char) (rest : List Char) :
    rest.length < (r ++ c :: rest).length := by
  simp only [List.length_append, List.length_cons]
  omega

/-- A text that goes on with what may follow a value, if it goes on. -/
def Stops (rest : List Char) : Prop :=
  ∀ c ∈ rest.head?, c ∈ blanks ∨ c ∈ [',', ']', '\x7d']

theorem stops_append (hb : Blanks b) (h : Stops rest) : Stops (b ++ rest) := by
  cases b with
  | nil => exact h
  | cons c b =>
      intro c' mem
      cases mem
      exact .inl (hb c List.mem_cons_self)

theorem stops_blanks (hb : Blanks b) : Stops b := by
  rw [← List.append_nil b]
  exact stops_append hb nofun

theorem stops_cons (h : c ∈ [',', ']', '\x7d']) : Stops (c :: rest) := by
  intro c' mem
  cases mem
  exact .inr h

/-! ### Escapes -/

theorem hexValue?_eq (h : HexDigit c n) : hexValue? c = some n := by
  have table : ∀ n : Fin 16, hexValue? n.val.digitChar = some n.val ∧
      hexValue? n.val.digitChar.toUpper = some n.val := by decide
  obtain ⟨less, rfl | rfl⟩ := h
  · exact (table ⟨n, less⟩).1
  · exact (table ⟨n, less⟩).2

theorem readHex_append (h : CodeUnit t n) (rest : List Char) :
    readHex (t ++ rest) = .ok (n, rest) := by
  cases h with
  | digits ha hb hc hd =>
      simp [readHex, hexValue?_eq ha, hexValue?_eq hb, hexValue?_eq hc, hexValue?_eq hd]

theorem shortEscape?_eq (h : (letter, c) ∈ escapes) :
    shortEscape? letter = some c ∧ letter ≠ 'u' := by
  have table : ∀ e ∈ escapes, shortEscape? e.1 = some e.2 ∧ e.1 ≠ 'u' := by decide
  exact table _ h

/-- Half of a surrogate pair is no character. -/
theorem isSurrogate_toNat (c : Char) :
    isLowSurrogate c.toNat = false ∧ isHighSurrogate c.toNat = false := by
  have valid : c.toNat < 0xD800 ∨ 0xDFFF < c.toNat ∧ c.toNat < 0x110000 := c.valid
  simp only [isLowSurrogate, isHighSurrogate, decide_eq_false_iff_not]
  omega

theorem readCodeUnits_unit (h : CodeUnit t c.toNat) (rest : List Char) :
    readCodeUnits (t ++ rest) = .ok (c, rest) := by
  obtain ⟨low, high⟩ := isSurrogate_toNat c
  simp [readCodeUnits, readHex_append h, low, high, bind, Except.bind, pure, Except.pure]

theorem readCodeUnits_pair {t' : List Char} {high low : Nat} (h : CodeUnit t high)
    (h' : CodeUnit t' low) (first : 0xD800 ≤ high ∧ high ≤ 0xDBFF)
    (second : 0xDC00 ≤ low ∧ low ≤ 0xDFFF)
    (value : c.toNat = 0x10000 + (high - 0xD800) * 0x400 + (low - 0xDC00)) (rest : List Char) :
    readCodeUnits (t ++ ('\\' :: 'u' :: (t' ++ rest))) = .ok (c, rest) := by
  have isHigh : isHighSurrogate high = true := decide_eq_true first
  have notLow : isLowSurrogate high = false := by
    rw [isLowSurrogate, decide_eq_false_iff_not]
    omega
  have isLow : isLowSurrogate low = true := decide_eq_true second
  have char : pairedChar high low = c := by
    rw [pairedChar, ← value, Char.ofNat_toNat]
  simp [readCodeUnits, readHex_append h, readHex_append h', readPairMark, isHigh, notLow, isLow,
    char, bind, Except.bind, pure, Except.pure]

theorem readEscape_short (h : (letter, c) ∈ escapes) (rest : List Char) :
    readEscape (letter :: rest) = .ok (c, rest) := by
  obtain ⟨short, ne⟩ := shortEscape?_eq h
  unfold readEscape
  split <;> simp_all

theorem skipEscape_short (h : (letter, c) ∈ escapes) (rest : List Char) :
    skipEscape (letter :: rest) = .ok rest := by
  obtain ⟨short, ne⟩ := shortEscape?_eq h
  unfold skipEscape
  split <;> simp_all

theorem skipEscape_unit (h : CodeUnit t n) (rest : List Char) :
    skipEscape ('u' :: (t ++ rest)) = .ok rest := by
  rw [skipEscape, readHex_append h]
  rfl

/-! ### Strings -/

theorem readString_plain (h : Plain c) (rest : List Char) :
    readString (c :: rest) = (readString rest).map fun (s, rest) => (c :: s, rest) := by
  obtain ⟨printable, quote, backslash⟩ := h
  have control : isControl c = false := decide_eq_false (Nat.not_lt.mpr printable)
  rw [readString]
  · simp [control]
  · simpa using quote
  · simpa using backslash

theorem readString_escape {after : List Char} (h : readEscape t = .ok (c, after)) :
    readString ('\\' :: t) = (readString after).map fun (s, rest) => (c :: s, rest) := by
  rw [readString]
  split <;> simp_all

/-- However a character is spelled, it is read. -/
theorem readString_spells (h : Spells t c) (rest : List Char) :
    readString (t ++ rest) = (readString rest).map fun (s, rest) => (c :: s, rest) := by
  cases h with
  | plain h => exact readString_plain h rest
  | escape h => exact readString_escape (readEscape_short h rest)
  | unit h => exact readString_escape (readCodeUnits_unit h rest)
  | pair h h' first second value =>
      rw [List.append_assoc]
      exact readString_escape (readCodeUnits_pair h h' first second value rest)

theorem readString_quoted {s : List Char} (h : SpellsAll t s) (rest : List Char) :
    readString (t ++ '"' :: rest) = .ok (s, rest) := by
  induction h with
  | nil => simp [readString]
  | cons h _ ih =>
      rw [List.append_assoc, readString_spells h, ih]
      rfl

theorem skipString_plain (h : Plain c) (rest : List Char) :
    skipString (c :: rest) = skipString rest := by
  obtain ⟨printable, quote, backslash⟩ := h
  have control : isControl c = false := decide_eq_false (Nat.not_lt.mpr printable)
  rw [skipString]
  · simp [control]
  · simpa using quote
  · simpa using backslash

theorem skipString_escape {after : List Char} (h : skipEscape t = .ok after) :
    skipString ('\\' :: t) = skipString after := by
  rw [skipString]
  split <;> simp_all

theorem skipString_loose (h : Loose t) (rest : List Char) :
    skipString (t ++ '"' :: rest) = .ok rest := by
  induction h with
  | nil => simp [skipString]
  | plain h _ ih => exact (skipString_plain h _).trans ih
  | escape h _ ih => exact (skipString_escape (skipEscape_short h _)).trans ih
  | unit h _ ih =>
      rw [List.append_assoc]
      exact (skipString_escape (skipEscape_unit h _)).trans ih

end TrafficStats.Json
