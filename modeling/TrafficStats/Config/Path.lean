/-!
# Paths by their steps

Two spellings of a path name the same file if they take the same steps: repeated and
trailing slashes and steps to the same directory change nothing. A step to the parent
directory counts, since the directory before it may be a link, and so does a dot that
begins a relative path.
-/

namespace TrafficStats

/-- A path as the steps that it takes. -/
structure PathSteps where
  absolute : Bool
  steps : List String
  deriving DecidableEq

def pathParts (path : String) : List String :=
  (path.toList.splitOn '/').map String.ofList

/-- Whether a step leads anywhere. -/
def isRealStep (step : String) : Bool :=
  step ≠ "" ∧ step ≠ "."

def PathSteps.ofString (path : String) : PathSteps :=
  match pathParts path with
  | "" :: [] => ⟨false, []⟩
  | "" :: rest => ⟨true, rest.filter isRealStep⟩
  | "." :: rest => ⟨false, "." :: rest.filter isRealStep⟩
  | parts => ⟨false, parts.filter isRealStep⟩

end TrafficStats
