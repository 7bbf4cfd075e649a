import TrafficStats.CommandLine.Command
import TrafficStats.CommandLine.Value

/-!
# What may stand on a command line

A command line has a scope for the program itself, in which the commands are known, and
then the scope of one command. Each scope has its options and at most one operand, an
argument that is known by its place. An option of the program is unknown in the scope of a
command.
-/

namespace TrafficStats

/-- What an argument can say something about. -/
inductive Parameter where
  | help
  | config
  | verbose
  | group
  | all
  | interval
  | owner
  | ifaceName
  | ifaceIndex
  | newName
  deriving DecidableEq

namespace Parameter

def long? : Parameter → Option String
  | help => some "help"
  | config => some "config"
  | verbose => some "verbose"
  | group => some "group"
  | all => some "all"
  | interval => some "interval-secs"
  | owner | ifaceName | ifaceIndex | newName => none

def letter? : Parameter → Option Char
  | help => some 'h'
  | config => some 'c'
  | verbose => some 'v'
  | group | all | interval | owner | ifaceName | ifaceIndex | newName => none

def takesValue : Parameter → Bool
  | help | verbose | group | all => false
  | config | interval | owner | ifaceName | ifaceIndex | newName => true

end Parameter

inductive Given where
  | config (path : String)
  | verbose
  | group
  | all
  | interval (secs : UInt64)
  | owner (uid : UInt32)
  | ifaceName (name : String)
  | ifaceIndex (index : UInt32)
  | newName (name : String)
  deriving DecidableEq

def Given.parameter : Given → Parameter
  | config _ => .config
  | verbose => .verbose
  | group => .group
  | all => .all
  | interval _ => .interval
  | owner _ => .owner
  | ifaceName _ => .ifaceName
  | ifaceIndex _ => .ifaceIndex
  | newName _ => .newName

def orBadValue {α : Type} : Option α → Except UsageError α
  | none => .error .badValue
  | some a => .ok a

/-- Reads the value of a parameter; for a flag there is nothing to read. Asking for help
ends the reading. -/
def Parameter.give (value : String) : Parameter → Except UsageError Given
  | help => .error .helpRequested
  | config => if value = "" then .error .noValue else .ok (.config value)
  | verbose => .ok .verbose
  | group => .ok .group
  | all => .ok .all
  | interval => (orBadValue (readSeconds? value)).map .interval
  | owner => (orBadValue (readOwner value).toOption).map .owner
  | ifaceName => .ok (.ifaceName value)
  | ifaceIndex => (orBadValue (readIndex? value)).map .ifaceIndex
  | newName => .ok (.newName value)

inductive CommandName where
  | detail
  | device
  | owner
  | iface
  | index
  | register
  | clean
  | watch
  | help
  deriving DecidableEq

def CommandName.words : List (String × CommandName) :=
  [("detail", .detail), ("dev", .device), ("uid", .owner), ("iface", .iface),
    ("ifindex", .index), ("register-iface", .register), ("clean", .clean),
    ("watch", .watch), ("help", .help)]

def CommandName.ofWord? (word : String) : Option CommandName :=
  words.lookup word

/-- Where on a command line an argument stands. -/
inductive Scope where
  | program
  | command (name : CommandName)
  deriving DecidableEq

namespace Scope

def options : Scope → List Parameter
  | program => [.config, .verbose, .help]
  | command .detail | command .device => [.group, .help]
  | command .iface => [.all, .help]
  | command .watch => [.interval, .help]
  | command .owner | command .index | command .register | command .clean
  | command .help => [.help]

def operand? : Scope → Option Parameter
  | command .owner => some .owner
  | command .iface => some .ifaceName
  | command .index => some .ifaceIndex
  | command .register => some .newName
  | program | command .detail | command .device | command .clean | command .watch
  | command .help => none

def command? (scope : Scope) (word : String) : Option CommandName :=
  match scope with
  | program => CommandName.ofWord? word
  | command _ => none

def longOption? (scope : Scope) (name : String) : Option Parameter :=
  scope.options.find? fun p => p.long? = some name

def letterOption? (scope : Scope) (letter : Char) : Option Parameter :=
  scope.options.find? fun p => p.letter? = some letter

end Scope

end TrafficStats
