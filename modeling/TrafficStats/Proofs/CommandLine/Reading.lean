import TrafficStats.Proofs.CommandLine.Steps

/-!
# What the reading of a command line accepts

What the words to come give depends on the state of the scan (`Scan.Continues`), and every step
agrees with that in both directions. So the words of a scope are read exactly if the grammar
allows them and they give nothing twice (`Scan.start_takeAll_iff`), and a command line is
understood exactly if its words are read, and those after the command as well
(`CommandLine.read_eq_ok_iff`).
-/

namespace TrafficStats

/-! ### Taking all words -/

namespace Scan

variable {s t u : Scan} {scope : Scope} {p : Parameter} {g : Given} {gs more all : List Given}
  {word : String} {words : List String} {found : Found}

theorem commandAt?_eq_some_iff {name : CommandName} :
    s.commandAt? scope word = some name ↔
      s.afterDashes = false ∧ s.awaitsValue = false ∧ scope.command? word = some name := by
  rw [commandAt?]
  cases s.afterDashes <;> cases s.awaitsValue <;> simp

theorem Owes.awaitsValue (owes : Owes s.pending gs) : s.awaitsValue = false := by
  rw [Scan.awaitsValue]
  split
  · rename_i awaits
    rw [awaits] at owes
    cases owes
  · rfl

/-- What the words to come give in a scan, with what is pending. -/
inductive Continues (scope : Scope) (s : Scan) :
    List String → List Given → Found → Prop
  -- The first word is the value that an option is waiting for.
  | awaited {p : Parameter} {value : String} {words : List String} {g : Given}
      {more : List Given} {found : Found} (awaits : s.pending = some (p, none))
      (before : s.afterDashes = false) (plain : ¬ Dashed value) (gives : p.give value = .ok g)
      (rest : scope.Reads words more found) : Continues scope s (value :: words) (g :: more) found
  | words {words : List String} {gs more : List Given} {found : Found}
      (owes : Owes s.pending gs) (before : s.afterDashes = false)
      (rest : scope.Reads words more found) : Continues scope s words (gs ++ more) found
  | operands {words : List String} {gs more : List Given} (owes : Owes s.pending gs)
      (after : s.afterDashes = true) (rest : scope.Operands words more) :
      Continues scope s words (gs ++ more) none

/-- What is given after a step was given before it, by the word and those after it. -/
theorem Continues.of_step (once : GivenOnce s.given) (step : Step scope s word t)
    (follows : t.Continues scope words more found) :
    ∃ all, s.Continues scope (word :: words) all found ∧ s.given ++ all = t.given ++ more := by
  cases step with
  | dashes before spelled =>
      subst spelled
      cases follows with
      | awaited _ before => cases before
      | words _ before => cases before
      | operands owes after rest => exact ⟨_, .words owes before (.dashes rest), rfl⟩
  | value before plain awaits =>
      cases follows with
      | awaited awaits => cases awaits
      | words owes _ rest =>
          cases owes with
          | value gives => exact ⟨_, .awaited awaits before plain gives rest, rfl⟩
      | operands _ after => cases before.symm.trans after
  | operand place known unmet settled =>
      obtain ⟨gs, owes, -, rfl⟩ := (settle_eq_ok_iff once).mp settled
      cases follows with
      | awaited awaits => cases awaits
      | words owes' before rest =>
          cases owes' with
          | value gives =>
              have plain : ¬ Dashed word := place.resolve_left (Bool.eq_false_iff.mp before)
              exact ⟨_, .words owes before (.operand plain known gives rest), by simp⟩
      | operands owes' after rest =>
          cases owes' with
          | value gives => exact ⟨_, .operands owes after (.cons known gives rest), by simp⟩
  | @option kind gs left u before spelled means settled =>
      obtain ⟨owed, owes, -, rfl⟩ := (settle_eq_ok_iff once).mp settled
      cases follows with
      | awaited awaits _ plain gives rest =>
          cases left with
          | none => cases awaits
          | some q =>
              cases awaits
              exact ⟨_, .words owes before (.optionValue spelled means plain gives rest),
                by simp [add]⟩
      | words owes' _ rest =>
          -- An option that is waiting for its value gives nothing yet.
          cases left with
          | none =>
              cases owes'
              exact ⟨_, .words owes before (.option spelled means rest), by simp [add]⟩
          | some q => cases owes'
      | operands _ after => cases before.symm.trans after

/-- Whenever the operand was met, it is among the parameters of the scan. The grammar does not
say whether an operand came before; that there is no second one follows from this. -/
def OperandKept (scope : Scope) (s : Scan) : Prop :=
  s.operandMet = true → ∃ p, scope.operand? = some p ∧
    (p ∈ s.given.map Given.parameter ∨ ∃ value, s.pending = some (p, some value))

theorem OperandKept.mem_of_settle (once : GivenOnce s.given) (kept : OperandKept scope s)
    (settled : s.settle = .ok u) (met : s.operandMet = true) :
    ∃ p, scope.operand? = some p ∧ p ∈ u.given.map Given.parameter := by
  obtain ⟨gs, owes, -, rfl⟩ := (settle_eq_ok_iff once).mp settled
  obtain ⟨p, known, mem | ⟨value, held⟩⟩ := kept met
  · exact ⟨p, known, by simp [mem]⟩
  · rw [held] at owes
    cases owes with
    | value gives => exact ⟨p, known, by simp [Parameter.parameter_of_give gives]⟩

theorem OperandKept.step (once : GivenOnce s.given) (kept : OperandKept scope s)
    (step : Step scope s word t) : OperandKept scope t := by
  cases step with
  | dashes => exact kept
  | value before plain awaits =>
      intro met
      obtain ⟨p, known, mem | ⟨value, held⟩⟩ := kept met
      · exact ⟨p, known, .inl mem⟩
      · cases awaits.symm.trans held
  | operand place known unmet settled => exact fun _ => ⟨_, known, .inr ⟨_, rfl⟩⟩
  | option before spelled means settled =>
      intro met
      have met' : s.operandMet = true := by
        obtain ⟨_, -, -, rfl⟩ := (settle_eq_ok_iff once).mp settled
        exact met
      obtain ⟨p, known, mem⟩ := kept.mem_of_settle once settled met'
      exact ⟨p, known, .inl (by simp [add, mem])⟩

theorem OperandKept.unmet (once : GivenOnce s.given) (kept : OperandKept scope s)
    (settled : s.settle = .ok u) (known : scope.operand? = some p) (gives : p.give word = .ok g)
    (once' : GivenOnce (u.given ++ g :: more)) : s.operandMet = false := by
  cases met : s.operandMet with
  | false => rfl
  | true =>
      obtain ⟨q, known', mem⟩ := kept.mem_of_settle once settled met
      cases known.symm.trans known'
      rw [GivenOnce, List.map_append, List.map_cons, Parameter.parameter_of_give gives,
        List.nodup_append] at once'
      exact absurd rfl (once'.2.2 p mem p List.mem_cons_self)

/-- What is still given is given by a step and after it, unless the word names a command. -/
theorem Continues.step (once : GivenOnce (s.given ++ all))
    (kept : OperandKept scope s) (none_here : s.commandAt? scope word = none)
    (follows : s.Continues scope (word :: words) all found) :
    ∃ t more, Step scope s word t ∧ t.Continues scope words more found ∧
      t.given ++ more = s.given ++ all := by
  cases follows with
  | awaited awaits before plain gives rest =>
      exact ⟨_, _, .value before plain awaits, .words (.value gives) before rest, rfl⟩
  | @words _ owed more _ owes before rest =>
      rw [← List.append_assoc] at once
      have settled := (settle_eq_ok_iff once.of_append.of_append).mpr
        ⟨owed, owes, once.of_append, rfl⟩
      cases rest with
      | command known =>
          have here := commandAt?_eq_some_iff.mpr ⟨before, owes.awaitsValue, known⟩
          cases none_here.symm.trans here
      | dashes operands => exact ⟨_, _, .dashes before rfl, .operands owes rfl operands, rfl⟩
      | option spelled means rest =>
          exact ⟨_, _, .option before spelled means settled, .words .nothing before rest,
            by simp [add]⟩
      | optionValue spelled means plain gives rest =>
          exact ⟨_, _, .option before spelled means settled, .awaited rfl before plain gives rest,
            by simp [add]⟩
      | operand plain known gives rest =>
          have unmet := OperandKept.unmet once.of_append.of_append kept settled known gives once
          exact ⟨_, _, .operand (.inr plain) known unmet settled,
            .words (.value gives) before rest, by simp⟩
  | @operands _ owed more owes after rest =>
      rw [← List.append_assoc] at once
      have settled := (settle_eq_ok_iff once.of_append.of_append).mpr
        ⟨owed, owes, once.of_append, rfl⟩
      cases rest with
      | cons known gives rest =>
          have unmet := OperandKept.unmet once.of_append.of_append kept settled known gives once
          exact ⟨_, _, .operand (.inl after) known unmet settled,
            .operands (.value gives) after rest, by simp⟩

theorem Continues.of_nil (follows : s.Continues scope [] all found) :
    Owes s.pending all ∧ found = none := by
  cases follows with
  | words owes _ rest =>
      cases rest
      exact ⟨by simpa using owes, rfl⟩
  | operands owes _ rest =>
      cases rest
      exact ⟨by simpa using owes, rfl⟩

/-- Where a word names a command, nothing else can be made of it. -/
theorem Continues.of_command {name : CommandName}
    (here : s.commandAt? scope word = some name)
    (follows : s.Continues scope (word :: words) all found) :
    Owes s.pending all ∧ found = some (name, words) := by
  obtain ⟨before, waits, known⟩ := commandAt?_eq_some_iff.mp here
  cases follows with
  | awaited awaits =>
      rw [awaitsValue, awaits] at waits
      cases waits
  | words owes _ rest =>
      obtain ⟨rfl, rfl⟩ := rest.at_command known
      exact ⟨by simpa using owes, rfl⟩
  | operands _ after => cases before.symm.trans after

/-- What a scan makes of the words to come is what they give in it, if nothing is given twice. -/
theorem takeAll_iff {given : List Given} (once : GivenOnce s.given) (kept : OperandKept scope s) :
    (∃ t u, takeAll scope s words = .ok (t, found) ∧ t.settle = .ok u ∧ u.given = given) ↔
      GivenOnce given ∧ ∃ all, s.Continues scope words all found ∧ s.given ++ all = given := by
  -- The two sides go through the words together: a step on the one is a step on the other.
  induction words generalizing s with
  | nil =>
      rw [takeAll]
      constructor
      · rintro ⟨t, u, ⟨⟩, settled, rfl⟩
        obtain ⟨gs, owes, once', rfl⟩ := (settle_eq_ok_iff once).mp settled
        refine ⟨once', ?_⟩
        cases dashes : s.afterDashes with
        | false => exact ⟨_, .words owes dashes .done, by simp⟩
        | true => exact ⟨_, .operands owes dashes .nil, by simp⟩
      · rintro ⟨once', all, follows, rfl⟩
        obtain ⟨owes, rfl⟩ := follows.of_nil
        exact ⟨s, _, rfl, (settle_eq_ok_iff once).mpr ⟨all, owes, once', rfl⟩, rfl⟩
  | cons word words ih =>
      rw [takeAll]
      cases here : s.commandAt? scope word with
      | some name =>
          obtain ⟨before, -, known⟩ := commandAt?_eq_some_iff.mp here
          constructor
          · rintro ⟨t, u, ⟨⟩, settled, rfl⟩
            obtain ⟨gs, owes, once', rfl⟩ := (settle_eq_ok_iff once).mp settled
            exact ⟨once', _, .words owes before (.command known), by simp⟩
          · rintro ⟨once', all, follows, rfl⟩
            obtain ⟨owes, rfl⟩ := follows.of_command here
            exact ⟨s, _, rfl, (settle_eq_ok_iff once).mpr ⟨_, owes, once', rfl⟩, rfl⟩
      | none =>
          constructor
          · rintro ⟨t, u, taken, settled, rfl⟩
            obtain ⟨v, first, taken⟩ := bind_eq_ok_iff.mp taken
            obtain ⟨step, once'⟩ := step_of_takeWord once first
            obtain ⟨once'', more, follows, same⟩ :=
              (ih once' (kept.step once step)).mp ⟨t, u, taken, settled, rfl⟩
            obtain ⟨all, follows, same'⟩ := follows.of_step once step
            exact ⟨once'', all, follows, same'.trans same⟩
          · rintro ⟨once', all, follows, rfl⟩
            obtain ⟨v, more, step, follows, same⟩ := follows.step once' kept here
            have once'' : GivenOnce v.given := (same ▸ once').of_append
            obtain ⟨t, u, taken, settled⟩ :=
              (ih once'' (kept.step once step)).mpr ⟨once', more, follows, same⟩
            exact ⟨t, u, bind_eq_ok_iff.mpr ⟨v, takeWord_of_step once step once'', taken⟩, settled⟩

/-- The words of a scope are read exactly if the grammar allows them and they give nothing
twice. -/
theorem start_takeAll_iff {given : List Given} :
    (∃ t u, takeAll scope .start words = .ok (t, found) ∧ t.settle = .ok u ∧ u.given = given) ↔
      scope.Reads words given found ∧ GivenOnce given := by
  have nothing : GivenOnce start.given := List.nodup_nil
  have unmet : OperandKept scope start := fun met => absurd met Bool.false_ne_true
  rw [takeAll_iff nothing unmet, and_comm]
  refine and_congr_left' ⟨?_, fun reads => ?_⟩
  · rintro ⟨all, follows, rfl⟩
    cases follows with
    | awaited awaits => cases awaits
    | words owes _ rest =>
        cases owes
        exact rest
    | operands _ after => cases after
  · have follows : start.Continues scope words ([] ++ given) found := .words .nothing rfl reads
    exact ⟨given, follows, rfl⟩

end Scan

/-- Nothing can be read in two ways. -/
theorem Scope.Reads.unique {scope : Scope} {words : List String} {given given' : List Given}
    {found found' : Found} (reads : scope.Reads words given found) (once : GivenOnce given)
    (reads' : scope.Reads words given' found') (once' : GivenOnce given') :
    given = given' ∧ found = found' := by
  obtain ⟨t, u, taken, settled, rfl⟩ := Scan.start_takeAll_iff.mpr ⟨reads, once⟩
  obtain ⟨t', u', taken', settled', rfl⟩ := Scan.start_takeAll_iff.mpr ⟨reads', once'⟩
  cases taken.symm.trans taken'
  cases settled.symm.trans settled'
  exact ⟨rfl, rfl⟩

/-! ### Commands -/

/-- A command is understood exactly if its words are read and amount to it. -/
theorem Command.read_eq_ok_iff {name : CommandName} {words : List String} {command : Command} :
    Command.read name words = .ok command ↔
      ∃ given, (Scope.command name).Reads words given none ∧ GivenOnce given ∧
        Command.ofGiven given name = .ok command := by
  constructor
  · intro read
    obtain ⟨⟨s, found⟩, taken, read⟩ := bind_eq_ok_iff.mp read
    obtain ⟨u, settled, amounts⟩ := bind_eq_ok_iff.mp read
    obtain ⟨reads, once⟩ := Scan.start_takeAll_iff.mp ⟨s, u, taken, settled, rfl⟩
    cases reads.found_eq_none
    exact ⟨u.given, reads, once, amounts⟩
  · rintro ⟨given, reads, once, amounts⟩
    obtain ⟨s, u, taken, settled, rfl⟩ := Scan.start_takeAll_iff.mpr ⟨reads, once⟩
    exact bind_eq_ok_iff.mpr ⟨(s, none), taken, bind_eq_ok_iff.mpr ⟨u, settled, amounts⟩⟩

def Command.name : Command → CommandName
  | .detail _ => .detail
  | .device _ => .device
  | .owner _ => .owner
  | .iface _ => .iface
  | .index _ => .index
  | .register _ => .register
  | .clean => .clean
  | .watch _ => .watch

theorem Command.name_of_read {name : CommandName} {words : List String} {command : Command}
    (read : Command.read name words = .ok command) : command.name = name := by
  obtain ⟨given, -, -, amounts⟩ := Command.read_eq_ok_iff.mp read
  cases name with
  | detail | device | clean | watch =>
      cases amounts
      rfl
  | owner | iface | index | register =>
      obtain ⟨_, -, rfl⟩ := map_eq_ok_iff.mp amounts
      rfl
  | help => cases amounts

/-- What the words after a command are understood to ask for. -/
inductive CommandRead : Found → Option Command → Prop
  | noCommand : CommandRead none none
  | command {name : CommandName} {words : List String} {command : Command}
      (read : Command.read name words = .ok command) :
      CommandRead (some (name, words)) (some command)

/-- A command line is understood exactly if its words are read, and those after the command as
well. -/
theorem CommandLine.read_eq_ok_iff {args : List String} {line : CommandLine} :
    CommandLine.read args = .ok line ↔
      ∃ given found, Scope.program.Reads args given found ∧ GivenOnce given ∧
        CommandRead found line.command ∧ line.config = given.findSome? Given.config? ∧
        line.verbose = given.contains .verbose := by
  constructor
  · intro read
    obtain ⟨⟨s, found⟩, taken, read⟩ := bind_eq_ok_iff.mp read
    have asked : ∃ command u, CommandRead found command ∧ s.settle = .ok u ∧
        line = ⟨u.given.findSome? Given.config?, u.given.contains .verbose, command⟩ := by
      rcases found with _ | ⟨name, words⟩
      · obtain ⟨_, ⟨⟩, read⟩ := bind_eq_ok_iff.mp read
        obtain ⟨u, settled, read⟩ := bind_eq_ok_iff.mp read
        cases read
        exact ⟨none, u, .noCommand, settled, rfl⟩
      · cases name with
        | help => cases read
        | _ =>
            obtain ⟨_, asked, read⟩ := bind_eq_ok_iff.mp read
            obtain ⟨command, understood, rfl⟩ := map_eq_ok_iff.mp asked
            obtain ⟨u, settled, read⟩ := bind_eq_ok_iff.mp read
            cases read
            exact ⟨some command, u, .command understood, settled, rfl⟩
    obtain ⟨command, u, asked, settled, rfl⟩ := asked
    obtain ⟨reads, once⟩ := Scan.start_takeAll_iff.mp ⟨s, u, taken, settled, rfl⟩
    exact ⟨u.given, found, reads, once, asked, rfl, rfl⟩
  · rintro ⟨given, found, reads, once, asked, config, verbose⟩
    obtain ⟨s, u, taken, settled, rfl⟩ := Scan.start_takeAll_iff.mpr ⟨reads, once⟩
    obtain ⟨_, _, command⟩ := line
    cases config
    cases verbose
    refine bind_eq_ok_iff.mpr ⟨(s, found), taken, ?_⟩
    cases asked with
    | noCommand => exact bind_eq_ok_iff.mpr ⟨none, rfl, bind_eq_ok_iff.mpr ⟨u, settled, rfl⟩⟩
    | @command name words command read =>
        have understood : (Command.read name words).map some = .ok (some command) :=
          map_eq_ok_iff.mpr ⟨command, read, rfl⟩
        cases name with
        | help => obtain ⟨_, _, _, ⟨⟩⟩ := Command.read_eq_ok_iff.mp read
        | _ =>
            exact bind_eq_ok_iff.mpr
              ⟨some command, understood, bind_eq_ok_iff.mpr ⟨u, settled, rfl⟩⟩

end TrafficStats
