/-!
# Numbers as text

Numbers are written in plain decimal (`natural`, `integer`) or as `0x` and lower-case
hexadecimal digits (`hexadecimal`). Reading is stricter than it looks: the digits are
the ten ASCII ones, one `+` may stand in front, leading zeros are free in any number,
and the first problem met from left to right decides how a text is refused.
-/

namespace TrafficStats.Text

def natural (n : Nat) : String :=
  String.ofList (Nat.toDigits 10 n)

def integer (i : Int) : String :=
  if i < 0 then "-" ++ natural i.natAbs else natural i.natAbs

def hexadecimal (n : Nat) : String :=
  "0x" ++ String.ofList (Nat.toDigits 16 n)

def digit? (c : Char) : Option Nat :=
  if '0' ≤ c ∧ c ≤ '9' then some (c.toNat - '0'.toNat) else none

inductive NumberFault where
  | empty
  | invalidDigit
  | tooLarge
  deriving DecidableEq

def NumberFault.message : NumberFault → String
  | .empty => "cannot parse integer from empty string"
  | .invalidDigit => "invalid digit found in string"
  | .tooLarge => "number too large to fit in target type"

/-- Continues a number whose digits so far have the value `n`. A bad digit is noticed
before its value could exceed `limit`, and nothing after the first problem is read. -/
def readDigits (limit : Nat) : Nat → List Char → Except NumberFault Nat
  | n, [] => .ok n
  | n, c :: rest =>
    match digit? c with
    | none => .error .invalidDigit
    | some d =>
      if limit < n * 10 + d then .error .tooLarge else readDigits limit (n * 10 + d) rest

def readNatural (limit : Nat) : List Char → Except NumberFault Nat
  | [] => .error .empty
  | '+' :: [] => .error .invalidDigit
  | '+' :: c :: rest => readDigits limit 0 (c :: rest)
  | c :: rest => readDigits limit 0 (c :: rest)

/-- Reads a number that may be negative: its sign and its digits, at most `limit` in
absolute value. Zero may be written with either sign. -/
def readInteger? (limit : Nat) : List Char → Option Int
  | '-' :: c :: rest => (readDigits limit 0 (c :: rest)).toOption.map fun n => -(n : Int)
  | text => (readNatural limit text).toOption.map fun n => (n : Int)

end TrafficStats.Text
