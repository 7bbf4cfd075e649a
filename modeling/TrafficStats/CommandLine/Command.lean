/-!
# Commands

A `CommandLine` is what the arguments of the program amount to: general options and at most
one command. Arguments that amount to nothing are refused with a `UsageError`, of which
there are as many as there are ways to get a command line wrong.
-/

namespace TrafficStats

/-- Which interfaces a total is asked for. -/
inductive IfaceChoice where
  | named (name : String)
  | all
  deriving DecidableEq

inductive Command where
  | detail (grouped : Bool)
  | device (grouped : Bool)
  | owner (uid : UInt32)
  | iface (choice : IfaceChoice)
  | index (ifaceIndex : UInt32)
  | register (name : String)
  | clean
  | watch (intervalSecs : Option UInt64)
  deriving DecidableEq

structure CommandLine where
  config : Option String
  verbose : Bool
  command : Option Command
  deriving DecidableEq

/-- Why arguments are not understood. Asking for help ends the reading as a refusal does, and
whatever else is said does not count. -/
inductive UsageError where
  | unknownArgument
  | unknownCommand
  | badValue
  | noValue
  | surplusValue
  | conflict
  | missing
  | helpRequested
  deriving DecidableEq

def UsageError.message : UsageError → String
  | .unknownArgument => "unexpected argument found"
  | .unknownCommand => "unrecognized subcommand"
  | .badValue => "invalid value for an argument"
  | .noValue => "a value is required but none was supplied"
  | .surplusValue => "unexpected value for a flag"
  | .conflict => "arguments cannot be used together"
  | .missing => "a required argument was not provided"
  | .helpRequested => ""

end TrafficStats
