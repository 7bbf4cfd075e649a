import TrafficStats.Json.Skip

/-!
# How JSON is written

The grammar of JSON, as relations between values and their texts. Blanks may stand between any
two parts of a text. A character of a string may stand for itself, unless it is a control
character, a quote or a backslash, and may be escaped; a value has many texts. `Separated` and
`Enclosed` are the common shape of lists and objects. `WellFormed` is the grammar of any value,
where nothing is asked of the code units that a string escapes.
-/

namespace TrafficStats.Json

/-! ### Strings -/

def blanks : List Char := [' ', '\n', '\t', '\r']

def Blanks (t : List Char) : Prop := ∀ c ∈ t, c ∈ blanks

def escapes : List (Char × Char) :=
  [('"', '"'), ('\\', '\\'), ('/', '/'), ('b', '\x08'), ('f', '\x0c'), ('n', '\n'), ('r', '\r'),
    ('t', '\t')]

/-- A hexadecimal digit in either case, with its value. -/
def HexDigit (c : Char) (n : Nat) : Prop :=
  n < 16 ∧ (c = n.digitChar ∨ c = n.digitChar.toUpper)

/-- The four digits of a code unit. -/
inductive CodeUnit : List Char → Nat → Prop
  | digits {a b c d : Char} {i j k l : Nat} (ha : HexDigit a i) (hb : HexDigit b j)
      (hc : HexDigit c k) (hd : HexDigit d l) :
      CodeUnit [a, b, c, d] (((i * 16 + j) * 16 + k) * 16 + l)

/-- A character that stands for itself in a string. -/
def Plain (c : Char) : Prop := 0x20 ≤ c.toNat ∧ c ≠ '"' ∧ c ≠ '\\'

inductive Spells : List Char → Char → Prop
  | plain {c : Char} (h : Plain c) : Spells [c] c
  | escape {letter c : Char} (h : (letter, c) ∈ escapes) : Spells ['\\', letter] c
  | unit {t : List Char} {c : Char} (h : CodeUnit t c.toNat) : Spells ('\\' :: 'u' :: t) c
  | pair {t t' : List Char} {high low : Nat} {c : Char} (h : CodeUnit t high)
      (h' : CodeUnit t' low) (first : 0xD800 ≤ high ∧ high ≤ 0xDBFF)
      (second : 0xDC00 ≤ low ∧ low ≤ 0xDFFF)
      (value : c.toNat = 0x10000 + (high - 0xD800) * 0x400 + (low - 0xDC00)) :
      Spells ('\\' :: 'u' :: t ++ '\\' :: 'u' :: t') c

inductive SpellsAll : List Char → List Char → Prop
  | nil : SpellsAll [] []
  | cons {t ts s : List Char} {c : Char} (h : Spells t c) (rest : SpellsAll ts s) :
      SpellsAll (t ++ ts) (c :: s)

inductive Quoted (s : String) : List Char → Prop
  | quotes {t : List Char} (h : SpellsAll t s.toList) : Quoted s ('"' :: t ++ ['"'])

/-- What may stand between the quotes of a string, whether or not its code units are those of
a text. -/
inductive Loose : List Char → Prop
  | nil : Loose []
  | plain {c : Char} {ts : List Char} (h : Plain c) (rest : Loose ts) : Loose (c :: ts)
  | escape {letter c : Char} {ts : List Char} (h : (letter, c) ∈ escapes) (rest : Loose ts) :
      Loose ('\\' :: letter :: ts)
  | unit {t ts : List Char} {n : Nat} (h : CodeUnit t n) (rest : Loose ts) :
      Loose ('\\' :: 'u' :: t ++ ts)

/-! ### Numbers -/

def Digits (t : List Char) : Prop := t ≠ [] ∧ ∀ c ∈ t, c.isDigit

/-- The digits before the point: nothing but a zero begins with a zero. -/
inductive Whole : List Char → Prop
  | zero : Whole ['0']
  | positive {t : List Char} (h : Digits t) (leading : t.head? ≠ some '0') : Whole t

inductive Fraction : List Char → Prop
  | absent : Fraction []
  | point {t : List Char} (h : Digits t) : Fraction ('.' :: t)

inductive Exponent : List Char → Prop
  | absent : Exponent []
  | power {letter : Char} {sign t : List Char} (h : letter ∈ ['e', 'E'])
      (signed : sign ∈ [[], ['+'], ['-']]) (digits : Digits t) : Exponent (letter :: sign ++ t)

inductive Unsigned : List Char → Prop
  | parts {whole fraction exponent : List Char} (h : Whole whole) (h' : Fraction fraction)
      (h'' : Exponent exponent) : Unsigned (whole ++ fraction ++ exponent)

/-! ### Lists and objects -/

/-- The texts of items with commas between them. -/
inductive Separated {α : Type} (Writes : α → List Char → Prop) : List α → List Char → Prop
  | last {a : α} {l t r : List Char} (hl : Blanks l) (h : Writes a t) (hr : Blanks r) :
      Separated Writes [a] (l ++ t ++ r)
  | more {a : α} {as : List α} {l t r ts : List Char} (hl : Blanks l) (h : Writes a t)
      (hr : Blanks r) (rest : Separated Writes as ts) :
      Separated Writes (a :: as) (l ++ t ++ r ++ ',' :: ts)

/-- The texts of items between brackets. -/
inductive Enclosed {α : Type} (opening closing : Char) (Writes : α → List Char → Prop) :
    List α → List Char → Prop
  | empty {b : List Char} (h : Blanks b) :
      Enclosed opening closing Writes [] (opening :: b ++ [closing])
  | filled {as : List α} {t : List Char} (h : Separated Writes as t) :
      Enclosed opening closing Writes as (opening :: t ++ [closing])

/-! ### Values -/

def Bracket.opening : Bracket → Char
  | .list => '['
  | .object => '\x7b'

/-- The parts of a text that the grammar of values is about. -/
inductive Phrase where
  | value
  -- What stands in a bracket that is not empty.
  | items (bracket : Bracket)

/-- What comes before the value of an item: blanks, and in an object a key with its colon. -/
inductive Lead : Bracket → List Char → Prop
  | list {l : List Char} (hl : Blanks l) : Lead .list l
  | object {l key m n : List Char} (hl : Blanks l) (hkey : Loose key) (hm : Blanks m)
      (hn : Blanks n) : Lead .object (l ++ '"' :: key ++ '"' :: m ++ ':' :: n)

inductive WellFormed : Phrase → List Char → Prop
  | word {t : List Char}
      (h : t ∈ [['n', 'u', 'l', 'l'], ['t', 'r', 'u', 'e'], ['f', 'a', 'l', 's', 'e']]) :
      WellFormed .value t
  | string {t : List Char} (h : Loose t) : WellFormed .value ('"' :: t ++ ['"'])
  | number {t : List Char} (h : Unsigned t) : WellFormed .value t
  | negative {t : List Char} (h : Unsigned t) : WellFormed .value ('-' :: t)
  | empty {b : List Char} (bracket : Bracket) (h : Blanks b) :
      WellFormed .value (bracket.opening :: b ++ [bracket.close])
  | filled {bracket : Bracket} {t : List Char} (h : WellFormed (.items bracket) t) :
      WellFormed .value (bracket.opening :: t ++ [bracket.close])
  | last {bracket : Bracket} {l t r : List Char} (hl : Lead bracket l)
      (h : WellFormed .value t) (hr : Blanks r) : WellFormed (.items bracket) (l ++ t ++ r)
  | more {bracket : Bracket} {l t r ts : List Char} (hl : Lead bracket l)
      (h : WellFormed .value t) (hr : Blanks r) (rest : WellFormed (.items bracket) ts) :
      WellFormed (.items bracket) (l ++ t ++ r ++ ',' :: ts)

/-! ### Records -/

section Records

variable {S : Type} (name : S → String) (known : List String) (Writes : S → List Char → Prop)

/-- The texts of a member of an object that is read as a record: it says something about a known
field, or is a member of another name with any value. -/
inductive Member : Option S → List Char → Prop
  | known {key m n t : List Char} (s : S) (hkey : Quoted (name s) key) (hm : Blanks m)
      (hn : Blanks n) (h : Writes s t) : Member (some s) (key ++ m ++ ':' :: n ++ t)
  | unknown {field : String} {key m n t : List Char} (new : field ∉ known)
      (hkey : Quoted field key) (hm : Blanks m) (hn : Blanks n) (h : WellFormed .value t) :
      Member none (key ++ m ++ ':' :: n ++ t)

/-- The texts of a record of which some fields are given: an object, or a list of the first fields
in their order. -/
inductive Record : List S → List Char → Prop
  | object {members : List (Option S)} {t : List Char}
      (h : Enclosed '\x7b' '\x7d' (Member name known Writes) members t) :
      Record members.reduceOption t
  | list {given : List S} {t : List Char} (h : Enclosed '[' ']' Writes given t)
      (inOrder : given.map name <+: known) : Record given t

end Records

end TrafficStats.Json
