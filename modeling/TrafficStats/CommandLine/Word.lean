/-!
# Words of a command line

An argument that begins with a dash is an option, in its long form or as a cluster of
letters; two dashes alone end the options. A single dash is an ordinary word, and so is
the empty argument.
-/

namespace TrafficStats

/-- What an argument looks like. -/
inductive Word where
  | dashes
  | long (name : String) (value : Option String)
  | cluster (letters : List Char)
  | plain
  deriving DecidableEq

/-- The parts before and after the first equals sign. -/
def cutAtEquals (text : List Char) : List Char × Option (List Char) :=
  match text.dropWhile (· ≠ '=') with
  | [] => (text, none)
  | _ :: value => (text.takeWhile (· ≠ '='), some value)

def Word.ofString (arg : String) : Word :=
  match arg.toList with
  | '-' :: '-' :: [] => .dashes
  | '-' :: '-' :: rest =>
    let (name, value) := cutAtEquals rest
    .long (String.ofList name) (value.map String.ofList)
  | '-' :: c :: letters => .cluster (c :: letters)
  | _ => .plain

end TrafficStats
