import TrafficStats.Proofs.Json.Skipped

/-!
# Reading values of a known shape

`Decoder.Reads` says what a decoder makes of a text wherever it stands: after any blanks, and
before anything that may follow a value. Strings are read in every spelling, integers in plain
decimal, and lists as their items are.
-/

namespace TrafficStats.Json

variable {α : Type} {b l r t x rest pre : List Char} {first : Bool}

/-- A decoder reads a text with the given outcome, and leaves what follows it. -/
structure Decoder.Reads (decoder : Decoder α) (t : List Char) (outcome : Except Fault α) :
    Prop where
  starts : Starts t
  reads : ∀ b rest, Blanks b → Stops rest →
    decoder (b ++ (t ++ rest)) = outcome.map fun value => (value, rest)

theorem Decoder.Reads.at_start {decoder : Decoder α} {outcome : Except Fault α}
    (h : decoder.Reads t outcome) (stops : Stops rest) :
    decoder (t ++ rest) = outcome.map fun value => (value, rest) :=
  h.reads [] rest blanks_nil stops

theorem readText_reads (wanted : String) {s : String} (h : Quoted s t) :
    (readText wanted).Reads t (.ok s) := by
  cases h with
  | @quotes t h =>
      refine ⟨⟨_, _, rfl, by decide, by decide⟩, fun b rest hb _ => ?_⟩
      have read := readString_quoted h rest
      simp only [readText, List.cons_append, List.append_assoc, List.nil_append,
        skipBlanks_append hb, skipBlanks_cons (show '"' ∉ blanks by decide), read]
      simp [Except.map]

/-! ### Integers -/

theorem toList_natural (n : Nat) : (Text.natural n).toList = Nat.toDigits 10 n := by
  rw [Text.natural, String.toList_ofList]

theorem readIntegerIn_natural {range : IntegerRange} {n : Nat} (fits : n ≤ maxSignificand)
    (within : range.least ≤ n ∧ (n : Int) ≤ range.greatest) :
    (readIntegerIn range).Reads (Text.natural n).toList (.ok n) := by
  rw [toList_natural]
  obtain ⟨d, u, split, digit⟩ := (digits_toDigits n).exists_cons
  have starts : Starts (Nat.toDigits 10 n) := split ▸ starts_of_digit digit
  refine ⟨starts, fun b rest hb stops => ?_⟩
  have read := readNumber_toDigits false fits stops
  have noSign : d ≠ '-' := by
    rintro rfl
    cases digit
  unfold readIntegerIn
  simp only
  rw [starts.skipBlanks hb]
  rw [split, List.cons_append] at read ⊢
  have isDigit := (isDigit_eq d).trans digit
  split
  · rename_i eq
    exact absurd (List.cons.inj eq).1 noSign
  · rename_i eq
    cases eq
    rw [if_pos isDigit, read]
    simp [bind, Except.bind, signedWhole, IntegerRange.accept, within, Except.map, pure,
      Except.pure]
  · rename_i eq
    cases eq

theorem readIntegerIn_integer {range : IntegerRange} {i : Int}
    (fits : -0x8000000000000000 ≤ i ∧ i ≤ 0xFFFFFFFFFFFFFFFF)
    (within : range.least ≤ i ∧ i ≤ range.greatest) :
    (readIntegerIn range).Reads (Text.integer i).toList (.ok i) := by
  have magnitude : i.natAbs ≤ maxSignificand := by
    rw [maxSignificand]
    omega
  unfold Text.integer
  split
  · rename_i negative
    have value : i = -(i.natAbs : Int) := by omega
    have exact : signedWhole true i.natAbs = .whole i := by
      have large : ¬ (i.natAbs = 0 ∨ 0x8000000000000000 < i.natAbs) := by omega
      rw [signedWhole, if_neg (by decide), if_neg large, ← value]
    rw [String.toList_append, toList_natural]
    refine ⟨⟨'-', _, rfl, by decide, by decide⟩, fun b rest hb stops => ?_⟩
    have read := readNumber_toDigits true magnitude stops
    change readIntegerIn range (b ++ '-' :: (Nat.toDigits 10 i.natAbs ++ rest)) = _
    unfold readIntegerIn
    simp only [skipBlanks_append hb, skipBlanks_cons (show '-' ∉ blanks by decide), read]
    simp [bind, Except.bind, exact, IntegerRange.accept, within, Except.map, pure, Except.pure]
  · rename_i positive
    have value : i = (i.natAbs : Int) := by omega
    have reads : (readIntegerIn range).Reads (Text.natural i.natAbs).toList (.ok i.natAbs) :=
      readIntegerIn_natural magnitude (by rwa [← value])
    rwa [← value] at reads

/-! ### Lists -/

/-- What stands between the items before and the next one: nothing before the first item, and
otherwise a comma. -/
def Opens (first : Bool) (pre : List Char) : Prop :=
  first = true ∧ pre = [] ∨ first = false ∧ ∃ r, Blanks r ∧ pre = r ++ [',']

theorem opens_first : Opens true [] := .inl ⟨rfl, rfl⟩

theorem opens_comma (hr : Blanks r) : Opens false (r ++ [',']) := .inr ⟨rfl, r, hr, rfl⟩

/-- Reading an item costs one of the budget, which leaves enough for the shorter text after it. -/
theorem exists_budget {budget : Nat} (taken : 0 < t.length)
    (enough : (pre ++ (l ++ (t ++ x))).length ≤ budget) :
    ∃ left, budget = left + 1 ∧ x.length ≤ left := by
  simp only [List.length_append] at enough
  exact ⟨budget - 1, by omega, by omega⟩

theorem nextItem_append (opens : Opens first pre) (hl : Blanks l) (starts : Starts t)
    (x : List Char) : nextItem first (pre ++ (l ++ (t ++ x))) = .ok (some (t ++ x)) := by
  have found := starts.skipBlanks hl x
  obtain ⟨c, u, rfl, -, begins⟩ := starts
  have goesOn : c ≠ ']' := by
    rintro rfl
    exact begins (by decide)
  rw [List.cons_append] at found ⊢
  obtain ⟨rfl, rfl⟩ | ⟨rfl, r, hr, rfl⟩ := opens
  · rw [List.nil_append, nextItem, found]
    simp
  · rw [nextItem, List.append_assoc, skipBlanks_append hr, List.singleton_append,
      skipBlanks_cons (by decide)]
    simp [found, goesOn]

theorem nextItem_close (first : Bool) (hr : Blanks r) (rest : List Char) :
    nextItem first (r ++ ']' :: rest) = .ok none := by
  rw [nextItem, skipBlanks_append hr, skipBlanks_cons (by decide)]
  rfl

theorem endList_append (hr : Blanks r) (rest : List Char) :
    endList (r ++ ']' :: rest) = .ok rest := by
  rw [endList, skipBlanks_append hr, skipBlanks_cons (by decide)]
  rfl

variable {β : Type} {item : Decoder α} {Writes : β → List Char → Prop} {value : β → α}
variable {bs : List β}

theorem readItems_close (item : Decoder α) {budget : Nat} (first : Bool) (hr : Blanks r)
    (enough : (r ++ ']' :: rest).length ≤ budget) :
    readItems item budget first (r ++ ']' :: rest) = .ok ([], r ++ ']' :: rest) := by
  cases budget with
  | zero => simp at enough
  | succ budget =>
      rw [readItems, nextItem_close first hr]
      rfl

theorem readItems_cons {a : α} (reads : item.Reads t (.ok a)) (opens : Opens first pre)
    (hl : Blanks l) (stops : Stops x) (budget : Nat) :
    readItems item (budget + 1) first (pre ++ (l ++ (t ++ x))) =
      (readItems item budget false x).map fun (as, rest) => (a :: as, rest) := by
  have read := reads.at_start stops
  rw [readItems, nextItem_append opens hl reads.starts]
  simp only [bind, Except.bind, read, Except.map]
  rfl

/-- The items of a list are read, up to blanks and the closing bracket. -/
theorem readItems_append (reads : ∀ b t, Writes b t → item.Reads t (.ok (value b)))
    (h : Separated Writes bs t) (opens : Opens first pre) {budget : Nat}
    (enough : (pre ++ (t ++ ']' :: rest)).length ≤ budget) :
    ∃ r, Blanks r ∧ readItems item budget first (pre ++ (t ++ ']' :: rest)) =
      .ok (bs.map value, r ++ ']' :: rest) := by
  induction h generalizing first pre budget with
  | @last b l t r hl h hr =>
      have stops : Stops (r ++ ']' :: rest) := stops_append hr (stops_cons (by decide))
      simp only [List.append_assoc] at enough ⊢
      obtain ⟨budget, rfl, left⟩ := exists_budget (reads b t h).starts.length_pos enough
      refine ⟨r, hr, ?_⟩
      rw [readItems_cons (reads b t h) opens hl stops, readItems_close item false hr left]
      rfl
  | @more b bs l t r ts hl h hr _ ih =>
      have stops : Stops (r ++ ',' :: (ts ++ ']' :: rest)) :=
        stops_append hr (stops_cons (by decide))
      simp only [List.append_assoc, List.cons_append] at enough ⊢
      obtain ⟨budget, rfl, left⟩ := exists_budget (reads b t h).starts.length_pos enough
      -- The comma belongs to what stands before the next item.
      rw [List.append_cons r] at left
      obtain ⟨r', hr', read⟩ := ih (opens_comma hr) left
      refine ⟨r', hr', ?_⟩
      rw [readItems_cons (reads b t h) opens hl stops, List.append_cons r, read]
      rfl

theorem readList_reads (reads : ∀ b t, Writes b t → item.Reads t (.ok (value b)))
    (h : Enclosed '[' ']' Writes bs t) : (readList item).Reads t (.ok (bs.map value)) := by
  have bracketed (t : List Char) (as : List α) (h : ∀ rest, ∃ r, Blanks r ∧
      readItems item (t ++ ']' :: rest).length true (t ++ ']' :: rest) =
        .ok (as, r ++ ']' :: rest)) : (readList item).Reads ('[' :: t ++ [']']) (.ok as) := by
    refine ⟨⟨_, _, rfl, by decide, by decide⟩, fun b rest hb _ => ?_⟩
    obtain ⟨r, hr, read⟩ := h rest
    simp only [readList, List.cons_append, List.append_assoc, List.nil_append,
      skipBlanks_append hb, skipBlanks_cons (show '[' ∉ blanks by decide), bind, Except.bind,
      read, endList_append hr]
    rfl
  cases h with
  | empty hb =>
      exact bracketed _ _ fun rest => ⟨_, hb, readItems_close item true hb (Nat.le_refl _)⟩
  | filled h =>
      exact bracketed _ _ fun rest => readItems_append reads h opens_first (Nat.le_refl _)

end TrafficStats.Json
