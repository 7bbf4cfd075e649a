import Mathlib.Data.List.Nodup
import TrafficStats.CommandLine.Reading
import TrafficStats.Proofs.CommandLine.Words

/-!
# The grammar of a command line

What the words of a scope give is said here without a state that takes them one after the other.
A word is an option, or the value of the option in front of it, or an operand; after two dashes
every word is an operand, and a word that names a command ends the words of the program. The
grammar lets a parameter be given more than once; that nothing is given twice is a condition of
its own (`GivenOnce`).
-/

namespace TrafficStats

/-- No parameter is given twice. -/
def GivenOnce (given : List Given) : Prop :=
  (given.map Given.parameter).Nodup

theorem GivenOnce.of_append {gs more : List Given} (once : GivenOnce (gs ++ more)) :
    GivenOnce gs := by
  rw [GivenOnce, List.map_append] at once
  exact (List.nodup_append.mp once).1

theorem GivenOnce.eq_singleton {given : List Given} (once : GivenOnce given) {g : Given}
    (mem : g ∈ given) (same : ∀ g' ∈ given, g'.parameter = g.parameter) : given = [g] := by
  obtain ⟨before, after, rfl⟩ := List.append_of_mem mem
  rw [GivenOnce, List.map_append, List.map_cons, List.nodup_middle, List.nodup_cons,
    ← List.map_append] at once
  have none_else : before ++ after = [] := by
    refine List.eq_nil_iff_forall_not_mem.mpr fun g' mem' => once.1 ?_
    have mem : g' ∈ before ++ g :: after := by
      rw [List.mem_append] at mem' ⊢
      exact mem'.imp_right (List.mem_cons_of_mem g)
    rw [← same g' mem]
    exact List.mem_map_of_mem mem'
  obtain ⟨rfl, rfl⟩ := List.append_eq_nil_iff.mp none_else
  rfl

/-- The command that words come to, if they do, and the words after it. -/
abbrev Found := Option (CommandName × List String)

namespace CommandName

variable {word : String} {name : CommandName}

theorem mem_words (known : ofWord? word = some name) : (word, name) ∈ words := by
  obtain ⟨before, after, eq, -⟩ := List.lookup_eq_some_iff.mp known
  rw [eq]
  exact List.mem_append_right before List.mem_cons_self

theorem not_dashed (known : ofWord? word = some name) : ¬ Dashed word := by
  rintro ⟨c, text, chars⟩
  have mem := mem_words known
  simp only [words, List.mem_cons, Prod.mk.injEq, List.not_mem_nil, or_false] at mem
  rcases mem with h | h | h | h | h | h | h | h | h <;> simp [h.1] at chars

end CommandName

namespace Scope

variable (scope : Scope)

/-- What a cluster of letters gives, and the parameter that it leaves without its value. -/
inductive Cluster : List Char → List Given → Option Parameter → Prop
  | nil : Cluster [] [] none
  | flag {c : Char} {letters : List Char} {p : Parameter} {g : Given} {gs : List Given}
      {left : Option Parameter} (known : scope.letterOption? c = some p)
      (flag : p.takesValue = false) (gives : p.give "" = .ok g) (rest : Cluster letters gs left) :
      Cluster (c :: letters) (g :: gs) left
  -- The rest of the cluster is the value.
  | attached {c : Char} {letters : List Char} {p : Parameter} {g : Given}
      (known : scope.letterOption? c = some p) (takes : p.takesValue = true)
      (nonempty : letters ≠ []) (gives : p.give (Scan.attached letters) = .ok g) :
      Cluster (c :: letters) [g] none
  -- The value is to come.
  | awaiting {c : Char} {p : Parameter} (known : scope.letterOption? c = some p)
      (takes : p.takesValue = true) : Cluster [c] [] (some p)

/-- What an option gives, and the parameter that it leaves without its value. -/
inductive OptionWord : Word → List Given → Option Parameter → Prop
  | flag {name : String} {p : Parameter} {g : Given} (known : scope.longOption? name = some p)
      (flag : p.takesValue = false) (gives : p.give "" = .ok g) :
      OptionWord (.long name none) [g] none
  | joined {name value : String} {p : Parameter} {g : Given}
      (known : scope.longOption? name = some p) (takes : p.takesValue = true)
      (gives : p.give value = .ok g) : OptionWord (.long name (some value)) [g] none
  | awaiting {name : String} {p : Parameter} (known : scope.longOption? name = some p)
      (takes : p.takesValue = true) : OptionWord (.long name none) [] (some p)
  | cluster {c : Char} {letters : List Char} {gs : List Given} {left : Option Parameter}
      (cluster : scope.Cluster (c :: letters) gs left) :
      OptionWord (.cluster (c :: letters)) gs left

/-- What words give that can only be operands. -/
inductive Operands : List String → List Given → Prop
  | nil : Operands [] []
  | cons {word : String} {words : List String} {p : Parameter} {g : Given} {gs : List Given}
      (known : scope.operand? = some p) (gives : p.give word = .ok g)
      (rest : Operands words gs) : Operands (word :: words) (g :: gs)

/-- What the words of a scope give, up to their end or to a command. -/
inductive Reads : List String → List Given → Found → Prop
  | done : Reads [] [] none
  | command {word : String} {rest : List String} {name : CommandName}
      (known : scope.command? word = some name) : Reads (word :: rest) [] (some (name, rest))
  | dashes {words : List String} {gs : List Given} (operands : scope.Operands words gs) :
      Reads ("--" :: words) gs none
  | option {word : String} {words : List String} {kind : Word} {gs more : List Given}
      {found : Found} (spelled : kind.Spells word) (means : scope.OptionWord kind gs none)
      (rest : Reads words more found) : Reads (word :: words) (gs ++ more) found
  -- An option with its value in a word of its own.
  | optionValue {word value : String} {words : List String} {kind : Word} {p : Parameter}
      {g : Given} {gs more : List Given} {found : Found} (spelled : kind.Spells word)
      (means : scope.OptionWord kind gs (some p)) (plain : ¬ Dashed value)
      (gives : p.give value = .ok g) (rest : Reads words more found) :
      Reads (word :: value :: words) (gs ++ g :: more) found
  | operand {word : String} {words : List String} {p : Parameter} {g : Given}
      {more : List Given} {found : Found} (plain : ¬ Dashed word)
      (known : scope.operand? = some p) (gives : p.give word = .ok g)
      (rest : Reads words more found) : Reads (word :: words) (g :: more) found

variable {scope : Scope} {word : String} {words rest : List String} {given : List Given}
  {name : CommandName} {found : Found} {p : Parameter}

theorem long_of_longOption? {long : String} (known : scope.longOption? long = some p) :
    p ∈ scope.options ∧ p.long? = some long :=
  ⟨List.mem_of_find?_eq_some known, by simpa using List.find?_some known⟩

theorem letter_of_letterOption? {c : Char} (known : scope.letterOption? c = some p) :
    p ∈ scope.options ∧ p.letter? = some c :=
  ⟨List.mem_of_find?_eq_some known, by simpa using List.find?_some known⟩

theorem command?_of_dashed (scope : Scope) (dashed : Dashed word) :
    scope.command? word = none := by
  cases scope with
  | program =>
      exact Option.eq_none_iff_forall_ne_some.mpr
        fun _ known => CommandName.not_dashed known dashed
  | command => rfl

/-- Where an operand may stand there are no commands. -/
theorem command?_of_operand (known : scope.operand? = some p) :
    scope.command? word = none := by
  cases scope with
  | program => cases known
  | command => rfl

theorem OptionWord.dashed {kind : Word} {left : Option Parameter}
    (means : scope.OptionWord kind given left) (spelled : kind.Spells word) : Dashed word := by
  refine spelled.dashed ?_
  rintro rfl
  cases means

/-- Where a word names a command, nothing else can be made of it. -/
theorem Reads.at_command (known : scope.command? word = some name)
    (reads : scope.Reads (word :: words) given found) :
    given = [] ∧ found = some (name, words) := by
  have undashed : ¬ Dashed word := by
    intro dashed
    cases known.symm.trans (command?_of_dashed scope dashed)
  cases reads with
  | command known' =>
      cases known.symm.trans known'
      exact ⟨rfl, rfl⟩
  | dashes => exact absurd (Word.Spells.dashes.dashed nofun) undashed
  | option spelled means => exact absurd (means.dashed spelled) undashed
  | optionValue spelled means => exact absurd (means.dashed spelled) undashed
  | operand _ operand => cases known.symm.trans (command?_of_operand operand)

/-- A command has no commands. -/
theorem Reads.found_eq_none (reads : (Scope.command name).Reads words given found) :
    found = none := by
  induction reads with
  | done | dashes => rfl
  | command known => cases known
  | option _ _ _ ih => exact ih
  | optionValue _ _ _ _ _ ih => exact ih
  | operand _ _ _ _ ih => exact ih

/-- The words in front of a command give what they give without it. -/
theorem Reads.before_command (reads : scope.Reads words given (some (name, rest))) :
    ∃ options word, words = options ++ word :: rest ∧ scope.command? word = some name ∧
      scope.Reads options given none := by
  generalize eq : some (name, rest) = found at reads
  induction reads with
  | done | dashes => cases eq
  | command known =>
      cases eq
      exact ⟨[], _, rfl, known, .done⟩
  | option spelled means _ ih =>
      obtain ⟨options, word, rfl, known, reads⟩ := ih eq
      exact ⟨_ :: options, word, rfl, known, .option spelled means reads⟩
  | optionValue spelled means plain gives _ ih =>
      obtain ⟨options, word, rfl, known, reads⟩ := ih eq
      exact ⟨_ :: _ :: options, word, rfl, known, .optionValue spelled means plain gives reads⟩
  | operand plain operand gives _ ih =>
      obtain ⟨options, word, rfl, known, reads⟩ := ih eq
      exact ⟨_ :: options, word, rfl, known, .operand plain operand gives reads⟩

end Scope

end TrafficStats
