import TrafficStats.CommandLine.Help
import TrafficStats.CommandLine.Reading
import TrafficStats.Kernel.Pinned
import TrafficStats.Watch

/-!
# The program

A run of the program is a function of its arguments and its surroundings: the files, the
interfaces of the host, the kernel with all that is going to happen there, the time
after which it is stopped, and what the clock shows at the passes of a watch. The arguments
are understood first, then the configuration is
loaded, then the maps are opened, and only then is the command carried out; the first step
that fails ends the run.
-/

namespace TrafficStats

/-- What a run of the program finds, and the milliseconds after which somebody stops a watch. -/
structure Surroundings where
  file : String → Except FileFault FileContent
  host : Host
  kernel : Kernel
  stopAfterMs : Option Nat

inductive ProgramError where
  | config (cause : LoadError)
  | maps (cause : QueryError)
  | command (doing : Option String) (cause : QueryError)
  deriving DecidableEq

def ProgramError.chain : ProgramError → List String
  | .config cause => cause.chain
  | .maps cause => "failed to open stats maps" :: cause.chain
  | .command doing cause => doing.toList ++ cause.chain

/-- The report about a failed run: the general sentence, and then its causes, which are
numbered if there are several. -/
def ProgramError.report (e : ProgramError) : List String :=
  match e.chain with
  | [] => []
  | [sentence] => ["netstats error: " ++ sentence]
  | [sentence, cause] => ["netstats error: " ++ sentence, "", "Caused by:", "    " ++ cause]
  | sentence :: causes =>
    ["netstats error: " ++ sentence, "", "Caused by:"] ++
      causes.mapIdx fun i cause => "    " ++ Text.natural i ++ ": " ++ cause

inductive Ending where
  | done
  | failed (e : ProgramError)
  | stopped
  deriving DecidableEq

/-- What a command prints, and how it ends. -/
structure Printout where
  lines : List String
  ending : Ending
  deriving DecidableEq

/-- The printout of a query that ends the command. -/
def Printout.ofAnswer {α : Type} (doing : Option String) (lines : α → List String) :
    Except QueryError α → Printout
  | .ok a => ⟨lines a, .done⟩
  | .error e => ⟨[], .failed (.command doing e)⟩

def CleanupReport.line (report : CleanupReport) : String :=
  if 0 < report.unreadableRows then
    "cleanup refused: " ++ Text.natural report.unreadableRows ++
      " unreadable detail rows, scanned " ++ Text.natural report.scanned ++ " deleted 0"
  else
    "scanned " ++ Text.natural report.scanned ++ " deleted " ++ Text.natural report.deleted ++
      " already gone " ++ Text.natural report.alreadyAbsent ++
      " failed " ++ Text.natural report.failed

def registeredLine (name : String) (ifaceIndex : UInt32) : String :=
  name ++ " -> " ++ Text.natural ifaceIndex.toNat

/-- The seconds that a watch waits at most for its next pass: thirty years of 365 days. -/
def longestWait : Nat := 946080000

/-- The seconds between two passes: those of the command line before those of the
configuration, at least one, and no more than the longest wait. -/
def watchInterval (config : Config) : Option UInt64 → Nat
  | some secs => min longestWait (max 1 secs.toNat)
  | none => min longestWait config.cleanInterval

/-- The passes that a watch makes until it is stopped, the first of them at once. A watch
that nobody stops goes on as long as an interruption may come. -/
def watchLimit (interval : Nat) (kernel : Kernel) : Option Nat → Nat
  | some ms => ms / (interval * 1000) + 1
  | none => KernelEvent.total KernelEvent.countdown kernel.events + 1

def Printout.ofWatch : List String × Accounting.WatchEnd → Printout
  | (lines, .interrupted) => ⟨lines, .done⟩
  | (lines, .stopped) => ⟨lines, .stopped⟩

def Command.perform (a : Accounting Kernel) (config : Config) (w : Surroundings)
    (clock : Nat → Option String) : Command → Query Kernel Printout
  | .detail grouped =>
    Printout.ofAnswer (some "failed to read detail stats") (·.lines grouped) <$> a.detailReport
  | .device grouped =>
    Printout.ofAnswer (some "failed to read device stats") (·.lines grouped) <$> a.deviceReport
  | .owner uid => Printout.ofAnswer none (fun t => [t.line]) <$> a.totalForOwner uid
  | .iface (.named name) => Printout.ofAnswer none (fun t => [t.line]) <$> a.totalForName name
  | .iface .all => Printout.ofAnswer none (fun t => [t.line]) <$> a.totalForNamed
  | .index ifaceIndex =>
    Printout.ofAnswer none (fun c => [c.line]) <$> a.totalForIndex ifaceIndex
  | .register name =>
    Printout.ofAnswer (some ("failed to register " ++ name))
      (fun ifaceIndex => [registeredLine name ifaceIndex]) <$> a.register w.host name
  | .clean =>
    Printout.ofAnswer (some "tag map cleanup failed") (fun r => [r.line]) <$> a.cleanTags
  | .watch intervalSecs => do
    let limit := watchLimit (watchInterval config intervalSecs) w.kernel w.stopAfterMs
    Printout.ofWatch <$> a.watch Kernel.interrupted limit clock

structure Outcome where
  printout : Printout
  log : List LogEvent
  kernel : Kernel

/-- Whether an event is shown in the log; details only if they are asked for. -/
def LogEvent.isShown (verbose : Bool) (event : LogEvent) : Bool :=
  verbose || event.level ≠ .debug

def loadConfig (file : String → Except FileFault FileContent) :
    Option String → Except LoadError Config
  | none => .ok .default
  | some path => Config.ofFile path (file path)

/-- Carries out a command with its configuration: opens the maps and then answers. -/
def Command.runWith (w : Surroundings) (clock : Nat → Option String) (verbose : Bool)
    (config : Config) (command : Command) : Outcome :=
  match (Pinned.openTables config.maps).run w.kernel with
  | (.error e, kernel) => ⟨⟨[], .failed (.maps e)⟩, [], kernel⟩
  | (.ok tables, kernel) =>
    let (printout, session) :=
      command.perform (.ofConfig tables config) config w clock (Session.start kernel)
    ⟨printout, session.log.toList.filter (·.isShown verbose), session.tables⟩

/-- Runs the program. Without a command it prints its help and looks at nothing else. -/
def run (w : Surroundings) (args : List String) (clock : Nat → Option String := fun _ => none) :
    Except UsageError Outcome := do
  let line ← CommandLine.read args
  match line.command with
  | none => pure ⟨⟨helpLines, .done⟩, [], w.kernel⟩
  | some command =>
    match loadConfig w.file line.config with
    | .error e => pure ⟨⟨[], .failed (.config e)⟩, [], w.kernel⟩
    | .ok config => pure (command.runWith w clock line.verbose config)

end TrafficStats
