import TrafficStats.Text.Decimal
import TrafficStats.Text.Quoted

/-!
# Faults in a JSON text

A text is read from left to right and the first problem decides how it is refused. It
may stop too early, it may be no JSON, or it may be JSON of the wrong shape. Only the
last kind is explained to the user, by what was found and what was wanted instead.
-/

namespace TrafficStats.Json

/-- What stands where something else was wanted. -/
inductive Found where
  | null
  | boolean (b : Bool)
  | integer (i : Int)
  | float
  | text (s : String)
  | sequence
  | map
  deriving DecidableEq

def Found.describe : Found → String
  | .null => "null"
  | .boolean true => "boolean `true`"
  | .boolean false => "boolean `false`"
  | .integer i => "integer `" ++ Text.integer i ++ "`"
  | .float => "floating point"
  | .text s => "string " ++ Text.quoted s
  | .sequence => "sequence"
  | .map => "map"

/-- Why well-formed JSON has the wrong shape. -/
inductive Mismatch where
  | wrongKind (found : Found) (wanted : String)
  | outOfRange (i : Int) (wanted : String)
  | repeatedField (name : String)
  deriving DecidableEq

def Mismatch.message : Mismatch → String
  | .wrongKind found wanted => "invalid type: " ++ found.describe ++ ", expected " ++ wanted
  | .outOfRange i wanted =>
    "invalid value: " ++ (Found.integer i).describe ++ ", expected " ++ wanted
  | .repeatedField name => "duplicate field `" ++ name ++ "`"

/-- Why a text cannot be read as the value wanted: it stops too early, it is no JSON or holds a
number that no finite double stands for, or it is JSON of the wrong shape. -/
inductive Fault where
  | truncated
  | malformed
  | mismatch (m : Mismatch)
  deriving DecidableEq

end TrafficStats.Json
