import TrafficStats.Proofs.CommandLine.Grammar

/-!
# The steps of reading a command line

Arguments are taken one after the other, with a value or an operand left to be examined later. A
word is taken exactly by one of four steps (`Scan.Step`) that repeat no parameter: it is two
dashes, the value of the option in front of it, an operand, or an option of its own.
-/

namespace TrafficStats

section Except

variable {ε α β : Type} {b : β}

theorem bind_eq_ok_iff {x : Except ε α} {f : α → Except ε β} :
    x >>= f = .ok b ↔ ∃ a, x = .ok a ∧ f a = .ok b := by
  cases x <;> simp [bind, Except.bind]

theorem map_eq_ok_iff {x : Except ε α} {f : α → β} :
    x.map f = .ok b ↔ ∃ a, x = .ok a ∧ f a = b := by
  cases x <;> simp [Except.map]

end Except

theorem Parameter.parameter_of_give {p : Parameter} {value : String} {g : Given}
    (gives : p.give value = .ok g) : g.parameter = p := by
  cases p with
  | help => cases gives
  | config =>
      rw [give] at gives
      split at gives
      · cases gives
      · cases gives
        rfl
  | verbose | group | all | ifaceName | newName =>
      cases gives
      rfl
  | interval | owner | ifaceIndex =>
      obtain ⟨_, -, rfl⟩ := map_eq_ok_iff.mp gives
      rfl

/-! ### Giving and settling -/

namespace Scan

variable {s t u : Scan} {scope : Scope} {p : Parameter} {g : Given} {gs more : List Given}
  {left : Option Parameter} {value word : String} {words : List String} {found : Found}

theorem has_eq_true_iff : s.has p = true ↔ p ∈ s.given.map Given.parameter := by
  simp [has]

theorem give_eq_ok_iff (once : GivenOnce s.given) :
    s.give p value = .ok t ↔
      ∃ g, p.give value = .ok g ∧ GivenOnce (s.given ++ [g]) ∧
        { s with given := s.given ++ [g] } = t := by
  have fresh {g : Given} (gives : p.give value = .ok g) :
      GivenOnce (s.given ++ [g]) ↔ ¬ s.has p = true := by
    rw [GivenOnce, List.map_append, List.map_singleton, Parameter.parameter_of_give gives,
      List.nodup_append, has_eq_true_iff, ← GivenOnce, and_iff_right once]
    simp
  rw [give]
  split
  · rename_i had
    refine iff_of_false (by simp) ?_
    rintro ⟨g, gives, once, -⟩
    exact (fresh gives).mp once had
  · rename_i absent
    rw [map_eq_ok_iff]
    refine exists_congr fun g => ?_
    constructor
    · rintro ⟨gives, rfl⟩
      exact ⟨gives, (fresh gives).mpr absent, rfl⟩
    · rintro ⟨gives, -, rfl⟩
      exact ⟨gives, rfl⟩

/-- What a pending parameter gives once it is examined. A parameter without its value gives
nothing. -/
inductive Owes : Option (Parameter × Option String) → List Given → Prop
  | nothing : Owes none []
  | value {p : Parameter} {value : String} {g : Given} (gives : p.give value = .ok g) :
      Owes (some (p, some value)) [g]

theorem settle_eq_ok_iff (once : GivenOnce s.given) :
    s.settle = .ok t ↔
      ∃ gs, Owes s.pending gs ∧ GivenOnce (s.given ++ gs) ∧
        { s with given := s.given ++ gs, pending := none } = t := by
  rcases s with ⟨given, _ | ⟨p, _ | value⟩, operandMet, afterDashes⟩
  · rw [settle, Except.ok.injEq]
    constructor
    · rintro rfl
      exact ⟨[], .nothing, by simpa using once, by simp⟩
    · rintro ⟨_, ⟨⟩, -, rfl⟩
      simp
  · refine iff_of_false nofun ?_
    rintro ⟨_, ⟨⟩, -⟩
  · refine (give_eq_ok_iff (s := ⟨given, none, operandMet, afterDashes⟩) once).trans ?_
    constructor
    · rintro ⟨g, gives, once, rfl⟩
      exact ⟨[g], .value gives, once, rfl⟩
    · rintro ⟨_, owes, once, rfl⟩
      cases owes with
      | value gives => exact ⟨_, gives, once, rfl⟩

theorem settle_idle (idle : s.pending = none) : s.settle = .ok s := by
  rw [settle, idle]

theorem pending_of_settle (once : GivenOnce s.given) (settled : s.settle = .ok t) :
    t.pending = none := by
  obtain ⟨_, -, -, rfl⟩ := (settle_eq_ok_iff once).mp settled
  rfl

theorem once_of_settle (once : GivenOnce s.given) (settled : s.settle = .ok t) :
    GivenOnce t.given := by
  obtain ⟨_, -, once', rfl⟩ := (settle_eq_ok_iff once).mp settled
  exact once'

theorem hold_eq_ok_iff {held : Option String} :
    s.hold p held = .ok t ↔
      ∃ u, s.settle = .ok u ∧ { u with pending := some (p, held) } = t := by
  rw [hold, bind_eq_ok_iff]
  simp only [pure, Except.pure, Except.ok.injEq]

/-! ### Taking options -/

/-- The scan after an option, if nothing is pending before it. -/
def add (s : Scan) (gs : List Given) (left : Option Parameter) : Scan :=
  { s with given := s.given ++ gs, pending := left.map fun p => (p, none) }

theorem take_eq_ok_iff (once : GivenOnce s.given) :
    s.take p value = .ok t ↔
      ∃ u g, s.settle = .ok u ∧ p.give value = .ok g ∧ GivenOnce (u.given ++ [g]) ∧
        u.add [g] none = t := by
  rw [take, bind_eq_ok_iff]
  refine exists_congr fun u => ?_
  constructor
  · rintro ⟨settled, given⟩
    obtain ⟨g, gives, once', rfl⟩ := (give_eq_ok_iff (once_of_settle once settled)).mp given
    exact ⟨g, settled, gives, once', by simp [add, pending_of_settle once settled]⟩
  · rintro ⟨g, settled, gives, once', rfl⟩
    refine ⟨settled, (give_eq_ok_iff (once_of_settle once settled)).mpr ⟨g, gives, once', ?_⟩⟩
    simp [add, pending_of_settle once settled]

/-- An option in its long form is taken after what is pending, unless it repeats a parameter. -/
theorem takeLong_eq_ok_iff {name : String} {value : Option String} (once : GivenOnce s.given) :
    s.takeLong scope name value = .ok t ↔
      ∃ u gs left, s.settle = .ok u ∧ scope.OptionWord (.long name value) gs left ∧
        GivenOnce (u.given ++ gs) ∧ u.add gs left = t := by
  rw [takeLong]
  constructor
  · intro taken
    split at taken
    · cases taken
    rename_i p known
    split at taken
    · rename_i takes
      obtain ⟨u, settled, rfl⟩ := hold_eq_ok_iff.mp taken
      refine ⟨u, [], some p, settled, .awaiting known takes, ?_, by simp [add]⟩
      simpa using once_of_settle once settled
    · rename_i takes
      obtain ⟨u, g, settled, gives, taken⟩ := (take_eq_ok_iff once).mp taken
      exact ⟨u, [g], none, settled, .joined known takes gives, taken⟩
    · rename_i flag
      obtain ⟨u, g, settled, gives, taken⟩ := (take_eq_ok_iff once).mp taken
      exact ⟨u, [g], none, settled, .flag known flag gives, taken⟩
    · cases taken
  · rintro ⟨u, gs, left, settled, means, once', rfl⟩
    cases means with
    | flag known flag gives =>
        simp only [known, flag]
        exact (take_eq_ok_iff once).mpr ⟨u, _, settled, gives, once', rfl⟩
    | joined known takes gives =>
        simp only [known, takes]
        exact (take_eq_ok_iff once).mpr ⟨u, _, settled, gives, once', rfl⟩
    | awaiting known takes =>
        simp only [known, takes]
        exact hold_eq_ok_iff.mpr ⟨u, settled, by simp [add]⟩

theorem settle_add (s : Scan) (gs : List Given) :
    (s.add gs none).settle = .ok (s.add gs none) :=
  settle_idle rfl

theorem add_add (s : Scan) (gs more : List Given) (left : Option Parameter) :
    (s.add gs none).add more left = s.add (gs ++ more) left := by
  simp [add]

/-- A cluster is taken after what is pending, unless it repeats a parameter. After its first
letter nothing is pending. -/
theorem takeCluster_eq_ok_iff {letters : List Char} (once : GivenOnce s.given)
    (start : letters = [] → s.pending = none) :
    takeCluster scope s letters = .ok t ↔
      ∃ u gs left, s.settle = .ok u ∧ scope.Cluster letters gs left ∧
        GivenOnce (u.given ++ gs) ∧ u.add gs left = t := by
  induction letters generalizing s with
  | nil =>
      have idle : s.pending = none := start rfl
      have same : s.add [] none = s := by simp [add, ← idle]
      rw [takeCluster, Except.ok.injEq, settle_idle idle]
      constructor
      · rintro rfl
        exact ⟨s, [], none, rfl, .nil, by simpa using once, same⟩
      · rintro ⟨_, _, _, ⟨⟩, cluster, -, rfl⟩
        cases cluster with
        | nil => exact same.symm
  | cons c letters ih =>
      rw [takeCluster]
      constructor
      · intro taken
        split at taken
        · cases taken
        rename_i p known
        split at taken
        · rename_i takes
          split at taken
          · rename_i empty
            obtain rfl := List.isEmpty_iff.mp empty
            obtain ⟨u, settled, rfl⟩ := hold_eq_ok_iff.mp taken
            refine ⟨u, [], some p, settled, .awaiting known takes, ?_, by simp [add]⟩
            simpa using once_of_settle once settled
          · rename_i nonempty
            obtain ⟨u, g, settled, gives, taken⟩ := (take_eq_ok_iff once).mp taken
            exact ⟨u, [g], none, settled,
              .attached known takes (mt List.isEmpty_iff.mpr nonempty) gives, taken⟩
        · rename_i flag
          obtain ⟨v, first, taken⟩ := bind_eq_ok_iff.mp taken
          obtain ⟨u, g, settled, gives, once', rfl⟩ := (take_eq_ok_iff once).mp first
          obtain ⟨_, gs, left, same, cluster, once'', rfl⟩ := (ih once' fun _ => rfl).mp taken
          cases (settle_add u [g]).symm.trans same
          have unset : p.takesValue = false := Bool.eq_false_iff.mpr flag
          refine ⟨u, g :: gs, left, settled, .flag known unset gives cluster, ?_,
            (add_add u [g] gs left).symm⟩
          rwa [List.append_cons]
      · rintro ⟨u, gs, left, settled, cluster, once', rfl⟩
        cases cluster with
        | @flag _ _ p g gs _ known flag gives rest =>
            rw [List.append_cons] at once'
            simp only [known, flag]
            refine bind_eq_ok_iff.mpr ⟨u.add [g] none,
              (take_eq_ok_iff once).mpr ⟨u, g, settled, gives, once'.of_append, rfl⟩, ?_⟩
            exact (ih once'.of_append fun _ => rfl).mpr
              ⟨_, gs, left, settle_add u [g], rest, once', add_add u [g] gs left⟩
        | attached known takes nonempty gives =>
            simp only [known, takes, List.isEmpty_iff, nonempty]
            exact (take_eq_ok_iff once).mpr ⟨u, _, settled, gives, once', rfl⟩
        | awaiting known takes =>
            simp only [known, takes]
            exact hold_eq_ok_iff.mpr ⟨u, settled, by simp [add]⟩

/-! ### Taking a word -/

/-- How a scan goes on with a word. -/
inductive Step (scope : Scope) (s : Scan) (word : String) : Scan → Prop
  | dashes (before : s.afterDashes = false) (spelled : word = "--") :
      Step scope s word { s with afterDashes := true }
  | value {p : Parameter} (before : s.afterDashes = false) (plain : ¬ Dashed word)
      (awaits : s.pending = some (p, none)) :
      Step scope s word { s with pending := some (p, some word) }
  | operand {p : Parameter} {u : Scan} (place : s.afterDashes = true ∨ ¬ Dashed word)
      (known : scope.operand? = some p) (unmet : s.operandMet = false)
      (settled : s.settle = .ok u) :
      Step scope s word { u with pending := some (p, some word), operandMet := true }
  | option {kind : Word} {gs : List Given} {left : Option Parameter} {u : Scan}
      (before : s.afterDashes = false) (spelled : kind.Spells word)
      (means : scope.OptionWord kind gs left) (settled : s.settle = .ok u) :
      Step scope s word (u.add gs left)

theorem step_of_takePlain (once : GivenOnce s.given)
    (place : s.afterDashes = true ∨ ¬ Dashed word)
    (taken : s.takePlain scope word = .ok t) : Step scope s word t ∧ GivenOnce t.given := by
  rw [takePlain] at taken
  split at taken
  · rename_i p before awaits
    cases taken
    exact ⟨.value before (place.resolve_left (by simp [before])) awaits, once⟩
  split at taken
  · rename_i p known unmet
    obtain ⟨v, held, taken⟩ := bind_eq_ok_iff.mp taken
    obtain ⟨u, settled, rfl⟩ := hold_eq_ok_iff.mp held
    cases taken
    exact ⟨.operand (u := u) place known unmet settled, once_of_settle (t := u) once settled⟩
  · cases taken

/-- A word that is taken makes a step, and repeats nothing. -/
theorem step_of_takeWord (once : GivenOnce s.given) (taken : s.takeWord scope word = .ok t) :
    Step scope s word t ∧ GivenOnce t.given := by
  rw [takeWord] at taken
  split at taken
  · rename_i after
    exact step_of_takePlain once (.inl after) taken
  rename_i before
  rw [Bool.not_eq_true] at before
  split at taken
  · rename_i kind
    cases taken
    exact ⟨.dashes before (Word.ofString_eq_dashes_iff.mp kind), once⟩
  · rename_i name value kind
    obtain ⟨u, gs, left, settled, means, once', rfl⟩ := (takeLong_eq_ok_iff once).mp taken
    exact ⟨.option before (Word.ofString_eq_iff.mp kind) means settled, once'⟩
  · rename_i letters kind
    have spelled := Word.ofString_eq_iff.mp kind
    obtain ⟨c, more, rfl⟩ := spelled.letters_eq_cons
    have start : c :: more = [] → s.pending = none := nofun
    obtain ⟨u, gs, left, settled, cluster, once', rfl⟩ :=
      (takeCluster_eq_ok_iff once start).mp taken
    exact ⟨.option before spelled (.cluster cluster) settled, once'⟩
  · rename_i kind
    exact step_of_takePlain once (.inr (Word.ofString_eq_plain_iff.mp kind)) taken

/-- A step that repeats no parameter takes the word. -/
theorem takeWord_of_step (once : GivenOnce s.given) (step : Step scope s word t)
    (once' : GivenOnce t.given) : s.takeWord scope word = .ok t := by
  cases step with
  | dashes before spelled =>
      rw [takeWord, before, spelled]
      rfl
  | value before plain awaits =>
      simp [takeWord, before, Word.ofString_eq_plain_iff.mpr plain, takePlain, awaits]
  | @operand p u place known unmet settled =>
      have taken : s.takePlain scope word =
          .ok { u with pending := some (p, some word), operandMet := true } := by
        rw [takePlain]
        split
        · rename_i awaits
          rw [settle, awaits] at settled
          cases settled
        · rw [known, unmet]
          exact bind_eq_ok_iff.mpr ⟨_, hold_eq_ok_iff.mpr ⟨u, settled, rfl⟩, rfl⟩
      rw [takeWord]
      split
      · exact taken
      · rename_i before
        rw [Word.ofString_eq_plain_iff.mpr (place.resolve_left before)]
        exact taken
  | @option kind gs left u before spelled means settled =>
      simp only [takeWord, before, Word.ofString_eq_iff.mpr spelled]
      cases spelled with
      | dashes | plain => cases means
      | long | longValue =>
          exact (takeLong_eq_ok_iff once).mpr ⟨u, gs, left, settled, means, once', rfl⟩
      | @cluster c letters =>
          have start : c :: letters = [] → s.pending = none := nofun
          cases means with
          | cluster cluster =>
              exact (takeCluster_eq_ok_iff once start).mpr
                ⟨u, gs, left, settled, cluster, once', rfl⟩

end Scan

end TrafficStats
