import TrafficStats.Json.Fault

/-!
# Numbers of a JSON text

A numeral is first cut into its parts, by `readNumeral`, and then given a value. Whole
numbers between `-2^63` and `2^64 - 1` keep their exact value. Every other number is a
double, and of a double nobody asks more than whether it is finite: a number whose
double would be infinite has no value at all. The significand of a double is what fits
into 64 bits, so that digits after the nineteenth or twentieth only move the exponent.
-/

namespace TrafficStats.Json

/-- The parts of a numeral: its sign, the digits before and after the point, and the number after
an `e`. -/
structure Numeral where
  negative : Bool
  whole : List Char
  fraction : List Char
  exponent : Option Int
  deriving DecidableEq

def isDigit (c : Char) : Bool := (Text.digit? c).isSome

def digitsValue (digits : List Char) : Nat :=
  digits.foldl (fun n c => n * 10 + (Text.digit? c).getD 0) 0

/-- Cuts a text after the digits at its head, of which there must be one. `atEnd` is the
fault of a text that ends where the first digit is due. -/
def readRun (atEnd : Fault) (text : List Char) : Except Fault (List Char × List Char) :=
  match text.takeWhile isDigit, text with
  | [], [] => .error atEnd
  | [], _ :: _ => .error .malformed
  | digits, _ => .ok (digits, text.dropWhile isDigit)

/-- Reads the digits before the point. Nothing but a zero may begin with a zero. -/
def readWhole (atEnd : Fault) (text : List Char) : Except Fault (List Char × List Char) :=
  match readRun atEnd text with
  | .ok ('0' :: _ :: _, _) => .error .malformed
  | answer => answer

def readFraction (atEnd : Fault) : List Char → Except Fault (List Char × List Char)
  | '.' :: rest => readRun atEnd rest
  | text => .ok ([], text)

def readExponent (atEnd : Fault) (text : List Char) : Except Fault (Int × List Char) :=
  match text with
  | '-' :: rest =>
    (readRun atEnd rest).map fun (digits, rest) => (-(digitsValue digits : Int), rest)
  | '+' :: rest =>
    (readRun atEnd rest).map fun (digits, rest) => ((digitsValue digits : Int), rest)
  | text => (readRun atEnd text).map fun (digits, rest) => ((digitsValue digits : Int), rest)

def readExponent? (atEnd : Fault) (text : List Char) :
    Except Fault (Option Int × List Char) :=
  match text with
  | 'e' :: rest | 'E' :: rest =>
    (readExponent atEnd rest).map fun (e, rest) => (some e, rest)
  | text => .ok (none, text)

def readNumeral (atEnd : Fault) (negative : Bool) (text : List Char) :
    Except Fault (Numeral × List Char) := do
  let (whole, text) ← readWhole atEnd text
  let (fraction, text) ← readFraction atEnd text
  let (exponent, text) ← readExponent? atEnd text
  pure (⟨negative, whole, fraction, exponent⟩, text)

def maxSignificand : Nat := 0xFFFFFFFFFFFFFFFF

/-- Appends digits to a significand as long as it fits. The second part of the answer
counts the digits that were appended. -/
def appendDigits : Nat → List Char → Nat × Nat
  | n, [] => (n, 0)
  | n, c :: rest =>
    let next := n * 10 + (Text.digit? c).getD 0
    if next ≤ maxSignificand then
      let (value, count) := appendDigits next rest
      (value, count + 1)
    else (n, 0)

/-- A natural number rounded to 53 significant bits, ties to even. -/
def roundSignificant (n : Nat) : Nat :=
  if n < Nat.pow 2 53 then n
  else
    let unit := Nat.pow 2 (n.log2 - 52)
    let below := n / unit
    let twice := 2 * (n % unit)
    let up := unit < twice ∨ (twice = unit ∧ below % 2 = 1)
    (if up then below + 1 else below) * unit

/-- Whether `significand * 10 ^ exponent`, multiplied in doubles, stays finite. -/
def isFinite (significand : Nat) (exponent : Int) : Bool :=
  significand == 0 || decide (exponent < 0) ||
    (decide (exponent ≤ 308) &&
      decide (roundSignificant significand * roundSignificant (Nat.pow 10 exponent.toNat) <
        Nat.pow 2 1024 - Nat.pow 2 970))

/-- The value of a number, as far as anybody asks for it. -/
inductive Number where
  | whole (i : Int)
  | float
  deriving DecidableEq

/-- The whole number with the given sign, unless it counts as a double: zero with a
minus sign does, and so does what is below `-2^63`. -/
def signedWhole (negative : Bool) (n : Nat) : Number :=
  if !negative then .whole n
  else if n = 0 ∨ 0x8000000000000000 < n then .float
  else .whole (-(n : Int))

/-- The value of a numeral; a numeral whose double would be infinite has none. -/
def Numeral.value? (numeral : Numeral) : Option Number :=
  let (significand, kept) := appendDigits 0 numeral.whole
  let dropped := numeral.whole.length - kept
  if dropped = 0 ∧ numeral.fraction = [] ∧ numeral.exponent = none then
    some (signedWhole numeral.negative significand)
  else
    let (significand, places) := appendDigits significand numeral.fraction
    let exponent := (dropped : Int) - places + numeral.exponent.getD 0
    if isFinite significand exponent then some .float else none

def readNumber (negative : Bool) (text : List Char) : Except Fault (Number × List Char) := do
  let (numeral, rest) ← readNumeral .truncated negative text
  match numeral.value? with
  | some n => pure (n, rest)
  | none => throw .malformed

/-- Passes over a number after its sign. A number that nobody wants may be as large as it
likes, and one that is cut off is no number. -/
def skipNumber (text : List Char) : Except Fault (List Char) :=
  (readNumeral .malformed false text).map Prod.snd

end TrafficStats.Json
