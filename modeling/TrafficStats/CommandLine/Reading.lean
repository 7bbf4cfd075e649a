import TrafficStats.CommandLine.Grammar
import TrafficStats.CommandLine.Word

/-!
# Understanding a command line

Arguments are taken from left to right. A value that stands apart from its option, and an
operand, is not examined when it is met but only when the next option begins or the scope
ends; until then it is pending. So an unknown argument is noticed before a bad value in
front of it, and a command is understood completely before the last value of the program's
own options is examined. The value of an option may be a single dash, but no other word
with a dash; two dashes make everything after them an operand.
-/

namespace TrafficStats

/-- The state of reading one scope. The parameter that was met last is pending with its value,
as far as that was met; it is examined when the next one is met. -/
structure Scan where
  given : List Given
  pending : Option (Parameter × Option String)
  operandMet : Bool
  afterDashes : Bool

namespace Scan

def start : Scan := ⟨[], none, false, false⟩

def awaitsValue (s : Scan) : Bool :=
  match s.pending with
  | some (_, none) => true
  | _ => false

def has (s : Scan) (p : Parameter) : Bool :=
  s.given.any fun g => g.parameter = p

/-- Examines a parameter with its value. No parameter may be given twice. -/
def give (s : Scan) (p : Parameter) (value : String) : Except UsageError Scan :=
  if s.has p then .error .conflict
  else (p.give value).map fun g => { s with given := s.given ++ [g] }

/-- Examines what is pending. -/
def settle (s : Scan) : Except UsageError Scan :=
  match s.pending with
  | none => .ok s
  | some (_, none) => .error .noValue
  | some (p, some value) => { s with pending := none }.give p value

def take (s : Scan) (p : Parameter) (value : String) : Except UsageError Scan := do
  (← s.settle).give p value

/-- Examines what is pending and lets a parameter wait. -/
def hold (s : Scan) (p : Parameter) (value : Option String) : Except UsageError Scan := do
  pure { (← s.settle) with pending := some (p, value) }

def takeLong (s : Scan) (scope : Scope) (name : String) (value : Option String) :
    Except UsageError Scan :=
  match scope.longOption? name with
  | none => .error .unknownArgument
  | some p =>
    match p.takesValue, value with
    | true, none => s.hold p none
    | true, some value => s.take p value
    | false, none => s.take p ""
    | false, some _ => .error .surplusValue

/-- The value that is attached to a letter, after an equals sign or without one. -/
def attached : List Char → String
  | '=' :: value => String.ofList value
  | value => String.ofList value

/-- Takes a cluster of letters. The first letter that takes a value has the rest of the
cluster for it. -/
def takeCluster (scope : Scope) : Scan → List Char → Except UsageError Scan
  | s, [] => .ok s
  | s, letter :: rest =>
    match scope.letterOption? letter with
    | none => .error .unknownArgument
    | some p =>
      if p.takesValue then
        if rest.isEmpty then s.hold p none else s.take p (attached rest)
      else do takeCluster scope (← s.take p "") rest

def misfit (s : Scan) (scope : Scope) (word : String) : UsageError :=
  match scope with
  | .program =>
    if s.afterDashes && (scope.command? word).isSome then .unknownArgument
    else .unknownCommand
  | .command _ => .unknownArgument

/-- Takes a word that is no option: the value that an option is waiting for, or the
operand. -/
def takePlain (s : Scan) (scope : Scope) (word : String) : Except UsageError Scan :=
  match s.afterDashes, s.pending with
  | false, some (p, none) => .ok { s with pending := some (p, some word) }
  | _, _ =>
    match scope.operand?, s.operandMet with
    | some p, false => do pure { (← s.hold p (some word)) with operandMet := true }
    | _, _ => .error (s.misfit scope word)

def takeWord (s : Scan) (scope : Scope) (arg : String) : Except UsageError Scan :=
  if s.afterDashes then s.takePlain scope arg
  else
    match Word.ofString arg with
    | .dashes => .ok { s with afterDashes := true }
    | .long name value => s.takeLong scope name value
    | .cluster letters => takeCluster scope s letters
    | .plain => s.takePlain scope arg

/-- The command that an argument names. What stands after two dashes or in the place of a
value names none. -/
def commandAt? (s : Scan) (scope : Scope) (arg : String) : Option CommandName :=
  if s.afterDashes || s.awaitsValue then none else scope.command? arg

/-- Takes the arguments of a scope: all of them, or those before a command. -/
def takeAll (scope : Scope) :
    Scan → List String → Except UsageError (Scan × Option (CommandName × List String))
  | s, [] => .ok (s, none)
  | s, arg :: rest =>
    match s.commandAt? scope arg with
    | some name => .ok (s, some (name, rest))
    | none => do takeAll scope (← s.takeWord scope arg) rest

end Scan

def orMissing {α : Type} : Option α → Except UsageError α
  | none => .error .missing
  | some a => .ok a

def Given.config? : Given → Option String
  | .config path => some path
  | _ => none

def Given.interval? : Given → Option UInt64
  | .interval secs => some secs
  | _ => none

def Given.owner? : Given → Option UInt32
  | .owner uid => some uid
  | _ => none

def Given.ifaceName? : Given → Option String
  | .ifaceName name => some name
  | _ => none

def Given.ifaceIndex? : Given → Option UInt32
  | .ifaceIndex index => some index
  | _ => none

def Given.newName? : Given → Option String
  | .newName name => some name
  | _ => none

/-- The interfaces that the arguments choose: those of a name or all, and not both. -/
def IfaceChoice.ofGiven (name : Option String) (all : Bool) : Except UsageError IfaceChoice :=
  match name, all with
  | some name, false => .ok (.named name)
  | none, true => .ok .all
  | some _, true => .error .conflict
  | none, false => .error .missing

/-- The refusal that asking for help about some words ends with. Commands have no commands
of their own, so a second word names nothing. -/
def helpAbout : List String → UsageError
  | [] => .helpRequested
  | [word] => if (CommandName.ofWord? word).isSome then .helpRequested else .unknownCommand
  | _ => .unknownCommand

def Command.ofGiven (given : List Given) : CommandName → Except UsageError Command
  | .detail => .ok (.detail (given.contains .group))
  | .device => .ok (.device (given.contains .group))
  | .owner => (orMissing (given.findSome? Given.owner?)).map .owner
  | .iface =>
    (IfaceChoice.ofGiven (given.findSome? Given.ifaceName?) (given.contains .all)).map .iface
  | .index => (orMissing (given.findSome? Given.ifaceIndex?)).map .index
  | .register => (orMissing (given.findSome? Given.newName?)).map .register
  | .clean => .ok .clean
  | .watch => .ok (.watch (given.findSome? Given.interval?))
  | .help => .error .helpRequested

def Command.read (name : CommandName) (args : List String) : Except UsageError Command := do
  let (s, _) ← Scan.takeAll (.command name) .start args
  ofGiven (← s.settle).given name

def CommandLine.read (args : List String) : Except UsageError CommandLine := do
  let (s, found) ← Scan.takeAll .program .start args
  let command ← match found with
    | none => pure none
    | some (.help, words) => throw (helpAbout words)
    | some (name, rest) => some <$> Command.read name rest
  let given := (← s.settle).given
  pure ⟨given.findSome? Given.config?, given.contains .verbose, command⟩

end TrafficStats
