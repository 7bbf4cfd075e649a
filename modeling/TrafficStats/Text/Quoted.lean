import TrafficStats.Text.Printable

/-!
# Quoted text in messages

A message that shows a text from outside puts it between double quotes and escapes what
would be misread: the quote and the backslash, the controls with a short name, and every
character that cannot be shown on its own.
-/

namespace TrafficStats.Text

/-- The escape of a character that cannot be shown: its code point in hexadecimal. -/
def codePointEscape (c : Char) : List Char :=
  ['\\', 'u', '\x7b'] ++ Nat.toDigits 16 c.toNat ++ ['\x7d']

def quotedChar (c : Char) : List Char :=
  match c with
  | '\x00' => ['\\', '0']
  | '\t' => ['\\', 't']
  | '\r' => ['\\', 'r']
  | '\n' => ['\\', 'n']
  | '"' => ['\\', '"']
  | '\\' => ['\\', '\\']
  | c => if isPrintable c then [c] else codePointEscape c

def quoted (s : String) : String :=
  String.ofList ('"' :: s.toList.flatMap quotedChar ++ ['"'])

end TrafficStats.Text
