import TrafficStats.Proofs.Json.Numbers

/-!
# Passing over any value

A value of any kind and nesting is passed over as a whole. The reader keeps a list of open
brackets instead of recursing, so its run is followed from state to state: `Reaches` relates two
states of one run, and a value that is met in any list of brackets is left with the same list
(`WellFormed.passed`), by induction on the grammar.
-/

namespace TrafficStats.Json

/-! ### Runs -/

/-- A run that comes by the first state comes by the second, with steps left for each character. -/
def Reaches (s s' : Skipping) : Prop :=
  ∀ steps ≥ s.text.length, ∃ steps' ≥ s'.text.length, skipSteps steps s = skipSteps steps' s'

namespace Reaches

variable {s s' s'' : Skipping}

theorem refl (s : Skipping) : Reaches s s := fun steps h => ⟨steps, h, rfl⟩

theorem trans (h : Reaches s s') (h' : Reaches s' s'') : Reaches s s'' := by
  intro steps enough
  obtain ⟨steps', enough', eq⟩ := h steps enough
  obtain ⟨steps'', enough'', eq'⟩ := h' steps' enough'
  exact ⟨steps'', enough'', eq.trans eq'⟩

/-- Every step takes a character. -/
theorem step {place : Place} {bracket : Bracket} {outer : List Bracket} {text : List Char}
    (h : skipStep place bracket outer text = .ok s') (shorter : s'.text.length < text.length) :
    Reaches ⟨place, bracket :: outer, text⟩ s' := by
  intro steps enough
  cases steps with
  | zero => exact absurd (Nat.le_trans shorter enough) (Nat.not_succ_le_zero _)
  | succ steps =>
      refine ⟨steps, Nat.le_of_lt_succ (Nat.lt_of_lt_of_le shorter enough), ?_⟩
      rw [skipSteps, h]
      rfl

/-- A run ends where nothing is open. -/
theorem skipSteps_eq {rest : List Char} (h : Reaches s ⟨.item, [], rest⟩) :
    skipSteps s.text.length s = .ok rest := by
  obtain ⟨steps, -, eq⟩ := h s.text.length (Nat.le_refl _)
  rw [eq, skipSteps]

end Reaches

/-- The run that begins with a state leads to another one, and has begun to take characters. -/
def Passes (start : Except Fault Skipping) (length : Nat) (goal : Skipping) : Prop :=
  ∃ s, start = .ok s ∧ s.text.length < length ∧ Reaches s goal

theorem Passes.mono {start : Except Fault Skipping} {length length' : Nat} {goal goal' : Skipping}
    (h : Passes start length goal) (le : length ≤ length') (onward : Reaches goal goal') :
    Passes start length' goal' := by
  obtain ⟨s, eq, shorter, reaches⟩ := h
  exact ⟨s, eq, Nat.lt_of_lt_of_le shorter le, reaches.trans onward⟩

/-- A value that is passed over by its head alone. -/
theorem Passes.item {start : Except Fault Skipping} {length : Nat} {brackets : List Bracket}
    {rest : List Char} (h : start = .ok ⟨.item, brackets, rest⟩) (shorter : rest.length < length) :
    Passes start length ⟨.item, brackets, rest⟩ :=
  ⟨_, h, shorter, .refl _⟩

/-! ### Steps -/

variable {b l r t x rest : List Char} {bracket : Bracket} {brackets outer : List Bracket}

theorem skipHead_append (hb : Blanks b) (brackets : List Bracket) (x : List Char) :
    skipHead brackets (b ++ x) = skipHead brackets x := by
  rw [skipHead, skipHead, skipBlanks_append hb]

theorem readColon_append (hb : Blanks b) (x : List Char) : readColon (b ++ ':' :: x) = .ok x := by
  rw [readColon, skipBlanks_append hb, skipBlanks_cons (by decide)]
  rfl

theorem skipKey_append {l key m : List Char} (hl : Blanks l) (hkey : Loose key) (hm : Blanks m)
    (x : List Char) : skipKey (l ++ '"' :: (key ++ '"' :: (m ++ ':' :: x))) = .ok x := by
  rw [skipKey, skipBlanks_append hl, skipBlanks_cons (by decide)]
  simp only [skipString_loose hkey, bind, Except.bind, readColon_append hm]

theorem skipItem_append (hb : Blanks b) (bracket : Bracket) (outer : List Bracket)
    (x : List Char) : skipItem bracket outer (b ++ x) = skipItem bracket outer x := by
  cases bracket with
  | list => exact skipHead_append hb _ x
  | object => simp only [skipItem, skipKey, skipBlanks_append hb]

/-- What comes before the value of an item is passed over, up to blanks. -/
theorem Lead.skipItem_eq (h : Lead bracket l) : ∃ b, Blanks b ∧ ∀ outer x,
    skipItem bracket outer (l ++ x) = skipHead (bracket :: outer) (b ++ x) := by
  cases h with
  | list hl => exact ⟨l, hl, fun _ _ => rfl⟩
  | @object l key m n hl hkey hm hn =>
      refine ⟨n, hn, fun outer x => ?_⟩
      have key := skipKey_append hl hkey hm (n ++ x)
      simp only [List.append_assoc, List.cons_append, skipItem] at key ⊢
      rw [key]
      rfl

theorem close_notMem_blanks (bracket : Bracket) : bracket.close ∉ blanks := by
  cases bracket <;> decide

theorem close_mem (bracket : Bracket) : bracket.close ∈ [',', ']', '\x7d'] := by
  cases bracket <;> decide

theorem skipStep_close (place : Place) (hb : Blanks b) (bracket : Bracket) (outer : List Bracket)
    (rest : List Char) :
    skipStep place bracket outer (b ++ bracket.close :: rest) = .ok ⟨.item, outer, rest⟩ := by
  rw [skipStep, skipBlanks_append hb, skipBlanks_cons (close_notMem_blanks bracket)]
  exact if_pos rfl

theorem skipStep_comma (hb : Blanks b) (bracket : Bracket) (outer : List Bracket) (x : List Char) :
    skipStep .item bracket outer (b ++ ',' :: x) = skipItem bracket outer x := by
  have goesOn : ',' ≠ bracket.close := by cases bracket <;> decide
  rw [skipStep, skipBlanks_append hb, skipBlanks_cons (by decide)]
  simp [goesOn]

theorem skipStep_opened (h : Starts t) (hb : Blanks b) (bracket : Bracket) (outer : List Bracket)
    (x : List Char) :
    skipStep .opened bracket outer (b ++ (t ++ x)) = skipItem bracket outer (b ++ (t ++ x)) := by
  rw [skipItem_append hb, skipStep, h.skipBlanks hb]
  obtain ⟨c, u, rfl, solid, begins⟩ := h
  have goesOn : c ≠ bracket.close := by
    rintro rfl
    exact begins (close_mem bracket)
  simp [goesOn]

/-! ### Values -/

theorem digit_notMem {d : Char} (digit : d.isDigit = true) {cs : List Char}
    (table : ∀ c ∈ cs, c.isDigit = false) : d ∉ cs := by
  intro mem
  rw [table d mem] at digit
  cases digit

theorem Whole.exists_cons (h : Whole t) : ∃ d u, t = d :: u ∧ d.isDigit = true := by
  cases h with
  | zero => exact ⟨'0', [], rfl, rfl⟩
  | positive run leading => exact run.exists_cons

theorem Unsigned.exists_cons (h : Unsigned t) : ∃ d u, t = d :: u ∧ d.isDigit = true := by
  cases h with
  | parts hw hf he =>
      obtain ⟨d, u, rfl, digit⟩ := hw.exists_cons
      exact ⟨d, _, rfl, digit⟩

theorem starts_word
    (h : t ∈ [['n', 'u', 'l', 'l'], ['t', 'r', 'u', 'e'], ['f', 'a', 'l', 's', 'e']]) :
    Starts t := by
  simp only [List.mem_cons, List.not_mem_nil, or_false] at h
  obtain rfl | rfl | rfl := h
  all_goals exact ⟨_, _, rfl, by decide, by decide⟩

theorem skipHead_word
    (h : t ∈ [['n', 'u', 'l', 'l'], ['t', 'r', 'u', 'e'], ['f', 'a', 'l', 's', 'e']])
    (brackets : List Bracket) (rest : List Char) :
    skipHead brackets (t ++ rest) = .ok ⟨.item, brackets, rest⟩ := by
  simp only [List.mem_cons, List.not_mem_nil, or_false] at h
  obtain rfl | rfl | rfl := h
  all_goals
    rw [skipHead, List.cons_append, skipBlanks_cons (by decide)]
    rfl

theorem skipHead_string (h : Loose t) (brackets : List Bracket) (rest : List Char) :
    skipHead brackets ('"' :: (t ++ '"' :: rest)) = .ok ⟨.item, brackets, rest⟩ := by
  rw [skipHead, skipBlanks_cons (by decide)]
  simp only [skipString_loose h]
  rfl

theorem skipHead_negative (h : Unsigned t) (brackets : List Bracket) (stops : Stops rest) :
    skipHead brackets ('-' :: (t ++ rest)) = .ok ⟨.item, brackets, rest⟩ := by
  rw [skipHead, skipBlanks_cons (by decide)]
  simp only [skipNumber_append h stops]
  rfl

theorem skipHead_number (h : Unsigned t) (brackets : List Bracket) (stops : Stops rest) :
    skipHead brackets (t ++ rest) = .ok ⟨.item, brackets, rest⟩ := by
  have skips := skipNumber_append h stops
  obtain ⟨d, u, rfl, digit⟩ := h.exists_cons
  have solid : d ∉ blanks := digit_notMem digit (by simp [blanks])
  have number : d ∉ ['[', '\x7b', 'n', 't', 'f', '"', '-'] := digit_notMem digit (by simp)
  rw [List.cons_append] at skips ⊢
  rw [skipHead, skipBlanks_cons solid]
  split
  all_goals simp_all [isDigit_eq]
  rfl

theorem skipHead_opening (bracket : Bracket) (brackets : List Bracket) (x : List Char) :
    skipHead brackets (bracket.opening :: x) = .ok ⟨.opened, bracket :: brackets, x⟩ := by
  cases bracket with
  | list =>
      rw [skipHead, Bracket.opening, skipBlanks_cons (by decide)]
      rfl
  | object =>
      rw [skipHead, Bracket.opening, skipBlanks_cons (by decide)]
      rfl

/-! ### All values -/

/-- What passing over a phrase means: a value is left behind whatever is open around it, and the
items of a bracket together with the bracket. -/
def Phrase.Passed : Phrase → List Char → Prop
  | .value, t => Starts t ∧ ∀ brackets b rest, Blanks b → Stops rest →
      Passes (skipHead brackets (b ++ (t ++ rest))) (t ++ rest).length ⟨.item, brackets, rest⟩
  | .items bracket, t => (∃ l u, t = l ++ u ∧ Blanks l ∧ Starts u) ∧ ∀ outer rest,
      Passes (skipItem bracket outer (t ++ bracket.close :: rest))
        (t ++ bracket.close :: rest).length ⟨.item, outer, rest⟩

/-- A value without brackets is passed over at once. -/
theorem passed_of_skipHead (starts : Starts t)
    (h : ∀ brackets rest, Stops rest →
      skipHead brackets (t ++ rest) = .ok ⟨.item, brackets, rest⟩) :
    Phrase.value.Passed t := by
  refine ⟨starts, fun brackets b rest hb stops => ?_⟩
  rw [skipHead_append hb]
  exact .item (h brackets rest stops) (starts.length_lt rest)

theorem starts_of_digit {d : Char} {u : List Char} (digit : d.isDigit = true) : Starts (d :: u) :=
  ⟨d, u, rfl, digit_notMem digit (by simp [blanks]), digit_notMem digit (by simp)⟩

theorem starts_opening (bracket : Bracket) (u : List Char) : Starts (bracket.opening :: u) := by
  cases bracket
  all_goals exact ⟨_, _, rfl, by decide, by decide⟩

/-- Something in brackets is passed over if what is in them is. -/
theorem passed_brackets (bracket : Bracket)
    (h : ∀ outer rest, Reaches ⟨.opened, bracket :: outer, t ++ bracket.close :: rest⟩
      ⟨.item, outer, rest⟩) :
    Phrase.value.Passed (bracket.opening :: t ++ [bracket.close]) := by
  refine ⟨starts_opening bracket _, fun brackets b rest hb _ => ?_⟩
  have opened : bracket.opening :: t ++ [bracket.close] ++ rest =
      bracket.opening :: (t ++ bracket.close :: rest) := by simp
  rw [skipHead_append hb, opened, skipHead_opening]
  exact ⟨_, rfl, Nat.lt_succ_self _, h brackets rest⟩

/-- The first item of a bracket begins with blanks. -/
theorem Lead.exists_blanks (h : Lead bracket l) (starts : Starts t) :
    ∃ l' u, l ++ t = l' ++ u ∧ Blanks l' ∧ Starts u := by
  cases h with
  | list hl => exact ⟨l, t, rfl, hl, starts⟩
  | @object l key m n hl _ _ _ =>
      refine ⟨l, '"' :: (key ++ '"' :: (m ++ ':' :: (n ++ t))), by simp, hl, ?_⟩
      exact ⟨_, _, rfl, by decide, by decide⟩

/-- An item is passed over, and then what comes after it. -/
theorem passed_item (lead : Lead bracket l) (h : Phrase.value.Passed t) (stops : Stops x)
    {goal : Skipping} (onward : Reaches ⟨.item, bracket :: outer, x⟩ goal) :
    Passes (skipItem bracket outer (l ++ (t ++ x))) (l ++ (t ++ x)).length goal := by
  obtain ⟨b, hb, eq⟩ := lead.skipItem_eq
  rw [eq]
  refine (h.2 _ b x hb stops).mono ?_ onward
  simp only [List.length_append]
  omega

/-- Every well-formed value is passed over, whatever is open around it. -/
theorem WellFormed.passed {phrase : Phrase} (h : WellFormed phrase t) : phrase.Passed t := by
  induction h with
  | word h => exact passed_of_skipHead (starts_word h) fun _ _ _ => skipHead_word h _ _
  | string h =>
      refine passed_of_skipHead ⟨_, _, rfl, by decide, by decide⟩ fun brackets rest _ => ?_
      simpa using skipHead_string h brackets rest
  | number h =>
      refine passed_of_skipHead ?_ fun brackets rest stops => skipHead_number h brackets stops
      obtain ⟨d, u, rfl, digit⟩ := h.exists_cons
      exact starts_of_digit digit
  | negative h =>
      exact passed_of_skipHead ⟨_, _, rfl, by decide, by decide⟩
        fun brackets rest stops => skipHead_negative h brackets stops
  | empty bracket hb =>
      refine passed_brackets bracket fun outer rest => ?_
      exact .step (skipStep_close .opened hb bracket outer rest) (length_lt_append_cons _ _ rest)
  | @filled bracket t h ih =>
      obtain ⟨⟨l, u, rfl, hl, starts⟩, passes⟩ := ih
      refine passed_brackets bracket fun outer rest => ?_
      obtain ⟨s, eq, shorter, reaches⟩ := passes outer rest
      refine (Reaches.step ?_ shorter).trans reaches
      rw [← eq, List.append_assoc, skipStep_opened starts hl]
  | @last bracket l t r lead _ hr ih =>
      obtain ⟨l', u, eq, hl', starts⟩ := lead.exists_blanks ih.1
      refine ⟨⟨l', u ++ r, ?_, hl', starts.append r⟩, fun outer rest => ?_⟩
      · rw [eq, List.append_assoc]
      rw [List.append_assoc, List.append_assoc]
      refine passed_item lead ih (stops_append hr (stops_cons (close_mem bracket))) ?_
      exact .step (skipStep_close .item hr bracket outer rest) (length_lt_append_cons _ _ rest)
  | @more bracket l t r ts lead _ hr _ ih ih' =>
      obtain ⟨l', u, eq, hl', starts⟩ := lead.exists_blanks ih.1
      refine ⟨⟨l', u ++ (r ++ ',' :: ts), ?_, hl', starts.append _⟩, fun outer rest => ?_⟩
      · rw [eq, List.append_assoc, List.append_assoc]
      · obtain ⟨s, first, shorter, reaches⟩ := ih'.2 outer rest
        simp only [List.append_assoc, List.cons_append]
        refine passed_item lead ih (stops_append hr (stops_cons (by decide))) ?_
        refine (Reaches.step ((skipStep_comma hr bracket outer _).trans first) ?_).trans reaches
        exact Nat.lt_trans shorter (length_lt_append_cons r ',' _)

/-- A value that nobody wants is passed over up to what follows it. -/
theorem skipValue_append (h : WellFormed .value t) (hb : Blanks b) (stops : Stops rest) :
    skipValue (b ++ (t ++ rest)) = .ok rest := by
  obtain ⟨s, eq, -, reaches⟩ := h.passed.2 [] b rest hb stops
  rw [skipValue, eq]
  exact reaches.skipSteps_eq

end TrafficStats.Json
