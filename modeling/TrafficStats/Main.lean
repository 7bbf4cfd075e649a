import TrafficStats.Program

/-!
# The command line program

The outer layer: it reads the configuration file that the arguments name, runs the program
and prints what it answers. Nothing is decided here.
-/

namespace TrafficStats

def faultOf : IO.Error → FileFault
  | .permissionDenied .. => .permissionDenied
  | .inappropriateType _ code _ => if code = 21 then .isDirectory else .notDirectory
  | .invalidArgument _ code _ => if code = 36 then .nameTooLong else .nulInPath
  | _ => .absent

def readFile (path : String) : IO (Except FileFault FileContent) := do
  try
    pure (.ok (← IO.FS.readBinFile path).toList)
  catch e => pure (.error (faultOf e))

/-- The files that a run may look at: the one that the arguments name. -/
def namedFile (args : List String) : IO (String → Except FileFault FileContent) := do
  match CommandLine.read args with
  | .ok { config := some path, .. } =>
    let content ← readFile path
    pure fun asked => if asked = path then content else .error .absent
  | _ => pure fun _ => .error .absent

def printLines (out : IO.FS.Stream) (lines : List String) : IO Unit :=
  lines.forM fun line => out.putStrLn line

/-- Prints what a run left behind and gives the exit code. -/
def report (outcome : Outcome) : IO UInt32 := do
  printLines (← IO.getStderr) (outcome.log.map LogEvent.line)
  printLines (← IO.getStdout) outcome.printout.lines
  match outcome.printout.ending with
  | .failed e =>
    printLines (← IO.getStderr) e.report
    pure 1
  | .done | .stopped => pure 0

/-- Runs the program where no map is pinned and the host has no interface. -/
def runHere (args : List String) : IO UInt32 := do
  match run ⟨← namedFile args, [], ⟨[], [], false⟩, none⟩ args with
  | .ok outcome => report outcome
  | .error .helpRequested =>
    printLines (← IO.getStdout) helpLines
    pure 0
  | .error e =>
    printLines (← IO.getStderr) ["error: " ++ e.message]
    pure 2

end TrafficStats

def main (args : List String) : IO UInt32 :=
  TrafficStats.runHere args
