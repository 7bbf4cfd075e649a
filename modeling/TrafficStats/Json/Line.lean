import TrafficStats.Text.Decimal

/-!
# JSON objects on one line

Reports are printed as flat JSON objects, one per line: members in the order given,
values that are strings or integers, no blanks. Strings escape the quote, the backslash
and the control characters, and nothing else, so a line never contains a line break.
-/

namespace TrafficStats.Json

/-- The value of a member of a flat object. -/
inductive Scalar where
  | text (s : String)
  | number (i : Int)
  deriving DecidableEq

def hexDigit (n : Nat) : Char :=
  Nat.digitChar n

/-- A character as it stands in a JSON string. -/
def escapeChar (c : Char) : List Char :=
  match c with
  | '"' => ['\\', '"']
  | '\\' => ['\\', '\\']
  | '\x08' => ['\\', 'b']
  | '\x0c' => ['\\', 'f']
  | '\n' => ['\\', 'n']
  | '\r' => ['\\', 'r']
  | '\t' => ['\\', 't']
  | c =>
    if c.toNat < 0x20 then
      ['\\', 'u', '0', '0', hexDigit (c.toNat / 16), hexDigit (c.toNat % 16)]
    else [c]

def stringText (s : String) : List Char :=
  '"' :: s.toList.flatMap escapeChar ++ ['"']

def Scalar.chars : Scalar → List Char
  | .text s => stringText s
  | .number i => (Text.integer i).toList

def memberText (member : String × Scalar) : List Char :=
  stringText member.1 ++ ':' :: member.2.chars

def membersText : List (String × Scalar) → List Char
  | [] => []
  | [member] => memberText member
  | member :: rest => memberText member ++ ',' :: membersText rest

/-- A flat object on one line. -/
def objectLine (members : List (String × Scalar)) : String :=
  String.ofList ('\x7b' :: membersText members ++ ['\x7d'])

end TrafficStats.Json
