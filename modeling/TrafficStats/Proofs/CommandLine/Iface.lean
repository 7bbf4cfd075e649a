import Mathlib.Logic.Basic
import TrafficStats.Program
import TrafficStats.Proofs.CommandLine.Reading

/-!
# Which interfaces are summed

The command for interfaces is asked for those of a name or for all of them. The words after it
are understood exactly if they are one of five spellings of such a choice
(`IfaceChoice.read_eq_ok_iff`). So they say exactly one of a name and all interfaces, and the
program prints the total that they ask for (`run_iface_of_given`).
-/

namespace TrafficStats

theorem Given.ifaceName?_eq_some_iff {g : Given} {name : String} :
    g.ifaceName? = some name ↔ g = .ifaceName name := by
  cases g <;> simp [ifaceName?]

namespace Scope

variable {kind : Word} {g : Given} {gs given : List Given} {left : Option Parameter}
  {words : List String} {found : Found}

theorem mem_iface_options {p : Parameter} (mem : p ∈ (Scope.command .iface).options) :
    p = .all ∨ p = .help := by
  simpa [options] using mem

theorem not_cluster_iface {c : Char} {letters : List Char} :
    ¬ (Scope.command .iface).Cluster (c :: letters) gs left := by
  intro cluster
  cases cluster with
  | flag known _ gives =>
      obtain ⟨mem, spelled⟩ := letter_of_letterOption? known
      obtain rfl | rfl := mem_iface_options mem
      · cases spelled
      · cases gives
  | attached known takes =>
      obtain rfl | rfl := mem_iface_options (letter_of_letterOption? known).1 <;> cases takes
  | awaiting known takes =>
      obtain rfl | rfl := mem_iface_options (letter_of_letterOption? known).1 <;> cases takes

theorem OptionWord.iface (means : (Scope.command .iface).OptionWord kind gs left) :
    kind = .long "all" none ∧ gs = [.all] ∧ left = none := by
  cases means with
  | flag known _ gives =>
      obtain ⟨mem, spelled⟩ := long_of_longOption? known
      obtain rfl | rfl := mem_iface_options mem
      · cases gives
        cases spelled
        exact ⟨rfl, rfl, rfl⟩
      · cases gives
  | joined known takes =>
      obtain rfl | rfl := mem_iface_options (long_of_longOption? known).1 <;> cases takes
  | awaiting known takes =>
      obtain rfl | rfl := mem_iface_options (long_of_longOption? known).1 <;> cases takes
  | cluster cluster => exact absurd cluster not_cluster_iface

theorem Operands.iface (operands : (Scope.command .iface).Operands words given) :
    given = words.map .ifaceName := by
  induction operands with
  | nil => rfl
  | cons known gives _ ih =>
      cases known
      cases gives
      rw [ih, List.map_cons]

/-- Nothing but the flag and names is given after the command. -/
theorem Reads.mem_iface (reads : (Scope.command .iface).Reads words given found) (mem : g ∈ given) :
    g = .all ∨ ∃ name, g = .ifaceName name := by
  induction reads with
  | done | command => cases mem
  | dashes operands =>
      rw [operands.iface] at mem
      obtain ⟨name, -, rfl⟩ := List.mem_map.mp mem
      exact .inr ⟨name, rfl⟩
  | option _ means _ ih =>
      obtain ⟨-, rfl, -⟩ := means.iface
      rcases List.mem_append.mp mem with mem | mem
      · exact .inl (List.mem_singleton.mp mem)
      · exact ih mem
  | optionValue _ means => obtain ⟨-, -, ⟨⟩⟩ := means.iface
  | operand _ known gives _ ih =>
      cases known
      cases gives
      rcases List.mem_cons.mp mem with rfl | mem
      · exact .inr ⟨_, rfl⟩
      · exact ih mem

/-- After the command only two dashes can be said without giving anything. -/
theorem Reads.iface_nil (reads : (Scope.command .iface).Reads words [] found) :
    words = [] ∨ words = ["--"] := by
  generalize eq : ([] : List Given) = given at reads
  cases reads with
  | done => exact .inl rfl
  | command known => cases known
  | dashes operands =>
      cases operands with
      | nil => exact .inr rfl
      | cons => cases eq
  | option _ means =>
      obtain ⟨-, rfl, -⟩ := means.iface
      cases eq
  | optionValue _ means => obtain ⟨-, -, ⟨⟩⟩ := means.iface
  | operand => cases eq

end Scope

/-! ### How a choice is spelled -/

namespace IfaceChoice

/-- The words for a choice. Two dashes may end them, and have to precede a name that would be
read as an option. -/
inductive Spelled : IfaceChoice → List String → Prop
  | all : Spelled .all ["--all"]
  | allDashes : Spelled .all ["--all", "--"]
  | named {name : String} (plain : ¬ Dashed name) : Spelled (.named name) [name]
  | namedDashes {name : String} (plain : ¬ Dashed name) : Spelled (.named name) [name, "--"]
  | dashesNamed {name : String} : Spelled (.named name) ["--", name]

def said : IfaceChoice → Given
  | .named name => .ifaceName name
  | .all => .all

variable {choice : IfaceChoice} {words : List String} {given : List Given}

theorem said_eq_ifaceName {name : String} (eq : choice.said = .ifaceName name) :
    choice = .named name := by
  cases choice <;> cases eq
  rfl

theorem said_eq_all (eq : choice.said = .all) : choice = .all := by
  cases choice <;> cases eq
  rfl

/-- A choice is made by giving one thing. -/
theorem eq_said_of_ofGiven (once : GivenOnce given)
    (known : ∀ g ∈ given, g = .all ∨ ∃ name, g = .ifaceName name)
    (chosen : ofGiven (given.findSome? Given.ifaceName?) (given.contains .all) = .ok choice) :
    given = [choice.said] := by
  unfold ofGiven at chosen
  split at chosen
  · rename_i name found noFlag
    cases chosen
    obtain ⟨g, mem, named⟩ := List.exists_of_findSome?_eq_some found
    obtain rfl := Given.ifaceName?_eq_some_iff.mp named
    refine once.eq_singleton mem fun g' mem' => ?_
    obtain rfl | ⟨name', rfl⟩ := known g' mem'
    · exact absurd mem' (by simpa using noFlag)
    · rfl
  · rename_i noName flag
    cases chosen
    have mem : .all ∈ given := by simpa using flag
    refine once.eq_singleton mem fun g' mem' => ?_
    obtain rfl | ⟨name', rfl⟩ := known g' mem'
    · rfl
    · cases List.findSome?_eq_none_iff.mp noName _ mem'
  · cases chosen
  · cases chosen

theorem spelled_of_reads (reads : (Scope.command .iface).Reads words [choice.said] none) :
    choice.Spelled words := by
  generalize eq : [choice.said] = given at reads
  cases reads with
  | done => cases eq
  | @dashes words _ operands =>
      rw [operands.iface] at eq
      obtain ⟨name, rfl, same⟩ := List.map_eq_singleton_iff.mp eq.symm
      rw [said_eq_ifaceName same.symm]
      exact .dashesNamed
  | option spelled means rest =>
      obtain ⟨rfl, rfl, -⟩ := means.iface
      obtain ⟨same, rfl⟩ := List.cons.inj eq
      rw [said_eq_all same]
      cases spelled
      obtain rfl | rfl := rest.iface_nil
      · exact .all
      · exact .allDashes
  | optionValue _ means => obtain ⟨-, -, ⟨⟩⟩ := means.iface
  | operand plain known gives rest =>
      cases known
      cases gives
      obtain ⟨same, rfl⟩ := List.cons.inj eq
      rw [said_eq_ifaceName same]
      obtain rfl | rfl := rest.iface_nil
      · exact .named plain
      · exact .namedDashes plain

theorem Spelled.reads (spelled : choice.Spelled words) :
    (Scope.command .iface).Reads words [choice.said] none := by
  have long : (Word.long "all" none).Spells "--all" := .long (by decide) (by decide)
  have flag : (Scope.command .iface).OptionWord (.long "all" none) [.all] none :=
    .flag rfl rfl rfl
  cases spelled with
  | all => exact .option long flag .done
  | allDashes => exact .option long flag (.dashes .nil)
  | named plain => exact .operand plain rfl rfl .done
  | namedDashes plain => exact .operand plain rfl rfl (.dashes .nil)
  | dashesNamed => exact .dashes (.cons rfl rfl .nil)

/-- The words after the command are understood exactly if they spell a choice. -/
theorem read_eq_ok_iff :
    Command.read .iface words = .ok (.iface choice) ↔ choice.Spelled words := by
  rw [Command.read_eq_ok_iff]
  constructor
  · rintro ⟨given, reads, once, amounts⟩
    obtain ⟨_, chosen, ⟨⟩⟩ := map_eq_ok_iff.mp amounts
    obtain rfl := eq_said_of_ofGiven once (fun _ => reads.mem_iface) chosen
    exact spelled_of_reads reads
  · intro spelled
    refine ⟨[choice.said], spelled.reads, List.nodup_singleton _, ?_⟩
    cases choice <;> rfl

end IfaceChoice

/-! ### What the words say -/

/-- Words that say that all interfaces are meant: the flag stands where options may stand. -/
def AllGiven (words : List String) : Prop :=
  "--all" ∈ words.takeWhile (· ≠ "--")

/-- Words that say a name: it is no option, or it stands after two dashes. -/
def NameGiven (name : String) (words : List String) : Prop :=
  (name ∈ words.takeWhile (· ≠ "--") ∧ ¬ Dashed name) ∨ name ∈ (words.dropWhile (· ≠ "--")).tail

section Said

variable {choice : IfaceChoice} {words : List String} {name : String}

theorem dashed_all : Dashed "--all" :=
  ⟨'-', ['a', 'l', 'l'], rfl⟩

theorem ne_of_not_dashed {word : String} (plain : ¬ Dashed name) (dashed : Dashed word) :
    name ≠ word := by
  rintro rfl
  exact plain dashed

theorem IfaceChoice.Spelled.eq_all_iff (spelled : choice.Spelled words) :
    choice = .all ↔ AllGiven words := by
  cases spelled with
  | all | allDashes | dashesNamed => simp [AllGiven]
  | @named name plain | @namedDashes name plain =>
      have ne : name ≠ "--" := ne_of_not_dashed plain (Word.Spells.dashes.dashed nofun)
      have noFlag : name ≠ "--all" := ne_of_not_dashed plain dashed_all
      simp [AllGiven, ne, noFlag.symm]

theorem IfaceChoice.Spelled.eq_named_iff (spelled : choice.Spelled words) :
    choice = .named name ↔ NameGiven name words := by
  cases spelled with
  | all | allDashes =>
      have flag : ¬ (name = "--all" ∧ ¬ Dashed name) := by
        rintro ⟨rfl, plain⟩
        exact plain dashed_all
      simp [NameGiven, flag]
  | dashesNamed => simp [NameGiven, eq_comm]
  | @named name' plain | @namedDashes name' plain =>
      have ne : name' ≠ "--" := ne_of_not_dashed plain (Word.Spells.dashes.dashed nofun)
      have said : name' = name ↔ name = name' ∧ ¬ Dashed name :=
        ⟨fun same => same ▸ ⟨rfl, plain⟩, fun h => h.1.symm⟩
      simp [NameGiven, ne, said]

end Said

/-! ### What the program answers -/

theorem CommandRead.eq_iface {choice : IfaceChoice} {found : Found}
    (understood : CommandRead found (some (.iface choice))) :
    ∃ words, found = some (.iface, words) ∧ Command.read .iface words = .ok (.iface choice) := by
  cases understood with
  | @command name words _ read =>
      cases Command.name_of_read read
      exact ⟨words, rfl, read⟩

theorem CommandName.eq_iface {word : String} (known : CommandName.ofWord? word = some .iface) :
    word = "iface" := by
  simpa [words] using mem_words known

/-- The total that a choice asks for. -/
def IfaceChoice.total : IfaceChoice → Accounting Kernel → Query Kernel (Except QueryError Total)
  | .named name => (·.totalForName name)
  | .all => Accounting.totalForNamed

/-- How a run ends that is asked for a total: it prints the total, or says why there is none. -/
inductive TotalRun (w : Surroundings) (line : CommandLine)
    (ask : Accounting Kernel → Query Kernel (Except QueryError Total)) : Outcome → Prop
  | notLoaded {e : LoadError} (load : loadConfig w.file line.config = .error e) :
      TotalRun w line ask ⟨⟨[], .failed (.config e)⟩, [], w.kernel⟩
  | notOpened {config : Config} {e : QueryError} {kernel : Kernel}
      (load : loadConfig w.file line.config = .ok config)
      (opened : (Pinned.openTables config.maps).run w.kernel = (.error e, kernel)) :
      TotalRun w line ask ⟨⟨[], .failed (.maps e)⟩, [], kernel⟩
  | refused {config : Config} {tables : TableSet Kernel} {kernel : Kernel} {e : QueryError}
      {session : Session Kernel} (load : loadConfig w.file line.config = .ok config)
      (opened : (Pinned.openTables config.maps).run w.kernel = (.ok tables, kernel))
      (asked : ask (.ofConfig tables config) (Session.start kernel) = (.error e, session)) :
      TotalRun w line ask ⟨⟨[], .failed (.command none e)⟩,
        session.log.toList.filter (·.isShown line.verbose), session.tables⟩
  | printed {config : Config} {tables : TableSet Kernel} {kernel : Kernel} {total : Total}
      {session : Session Kernel} (load : loadConfig w.file line.config = .ok config)
      (opened : (Pinned.openTables config.maps).run w.kernel = (.ok tables, kernel))
      (asked : ask (.ofConfig tables config) (Session.start kernel) = (.ok total, session)) :
      TotalRun w line ask ⟨⟨[total.line], .done⟩,
        session.log.toList.filter (·.isShown line.verbose), session.tables⟩

section Run

variable {args : List String} {line : CommandLine} {choice : IfaceChoice}

theorem IfaceChoice.perform_eq (choice : IfaceChoice) (a : Accounting Kernel) (config : Config)
    (w : Surroundings) (clock : Nat → Option String) (s : Session Kernel) :
    (Command.iface choice).perform a config w clock s =
      (.ofAnswer none (fun t => [t.line]) (choice.total a s).1, (choice.total a s).2) := by
  cases choice <;> rfl

theorem run_iface (w : Surroundings) (clock : Nat → Option String)
    (read : CommandLine.read args = .ok line) (asked : line.command = some (.iface choice)) :
    ∃ outcome, run w args clock = .ok outcome ∧ TotalRun w line choice.total outcome := by
  unfold run
  rw [read]
  simp only [bind, Except.bind, asked, pure, Except.pure]
  cases load : loadConfig w.file line.config with
  | error e => exact ⟨_, rfl, .notLoaded load⟩
  | ok config =>
      refine ⟨_, rfl, ?_⟩
      rw [Command.runWith]
      split
      · rename_i e kernel opened
        exact .notOpened load opened
      · rename_i tables kernel opened
        rw [IfaceChoice.perform_eq]
        cases answered : choice.total (.ofConfig tables config) (Session.start kernel) with
        | mk answer session =>
            cases answer with
            | error e => exact .refused load opened answered
            | ok total => exact .printed load opened answered

/-- Whenever arguments are understood as the command for interfaces, the words after it say
exactly one of a name and all interfaces. The run then prints the total of all interfaces if that
is what they say, and of the name that they say otherwise. -/
theorem run_iface_of_given (read : CommandLine.read args = .ok line)
    (asked : line.command = some (.iface choice)) :
    ∃ options rest given, args = options ++ "iface" :: rest ∧
      Scope.program.Reads args given (some (.iface, rest)) ∧ GivenOnce given ∧
      Xor (∃ name, NameGiven name rest) (AllGiven rest) ∧
      (choice = .all ↔ AllGiven rest) ∧ (∀ name, choice = .named name ↔ NameGiven name rest) ∧
      ∀ w clock, ∃ outcome, run w args clock = .ok outcome ∧
        (AllGiven rest → TotalRun w line Accounting.totalForNamed outcome) ∧
        ∀ name, NameGiven name rest → TotalRun w line (·.totalForName name) outcome := by
  obtain ⟨given, found, reads, once, understood, -, -⟩ := CommandLine.read_eq_ok_iff.mp read
  rw [asked] at understood
  obtain ⟨rest, rfl, readRest⟩ := understood.eq_iface
  obtain ⟨options, word, split, known, -⟩ := reads.before_command
  obtain rfl := CommandName.eq_iface known
  have spelled := IfaceChoice.read_eq_ok_iff.mp readRest
  have all := spelled.eq_all_iff
  have named (name : String) : choice = .named name ↔ NameGiven name rest := spelled.eq_named_iff
  refine ⟨options, rest, given, split, reads, once, ?_, all, named, fun w clock => ?_⟩
  · cases choice with
    | named name => exact .inl ⟨⟨name, (named name).mp rfl⟩, fun h => nomatch all.mpr h⟩
    | all => exact .inr ⟨all.mp rfl, fun ⟨name, h⟩ => nomatch (named name).mpr h⟩
  · obtain ⟨outcome, ran, total⟩ := run_iface w clock read asked
    refine ⟨outcome, ran, fun h => ?_, fun name h => ?_⟩
    · cases all.mpr h
      exact total
    · cases (named name).mpr h
      exact total

theorem run_iface_of_given_after_dashes :
    CommandLine.read ["-v", "--config=/c", "iface", "--", "--all"] =
        .ok ⟨some "/c", true, some (.iface (.named "--all"))⟩ ∧
      ∃ rest, NameGiven "--all" rest ∧ ¬ AllGiven rest ∧
        ∀ w clock, ∃ outcome,
          run w ["-v", "--config=/c", "iface", "--", "--all"] clock = .ok outcome ∧
          TotalRun w ⟨some "/c", true, some (.iface (.named "--all"))⟩ (·.totalForName "--all")
            outcome := by
  have read : CommandLine.read ["-v", "--config=/c", "iface", "--", "--all"] =
      .ok ⟨some "/c", true, some (.iface (.named "--all"))⟩ := rfl
  obtain ⟨_, rest, _, -, -, -, -, all, named, ran⟩ := run_iface_of_given read rfl
  have given : NameGiven "--all" rest := (named "--all").mp rfl
  refine ⟨read, rest, given, fun h => (nomatch all.mpr h), fun w clock => ?_⟩
  obtain ⟨outcome, ran, -, total⟩ := ran w clock
  exact ⟨outcome, ran, total "--all" given⟩

end Run

end TrafficStats
