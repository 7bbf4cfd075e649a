import TrafficStats.Json.Scan
import TrafficStats.Json.Number

/-!
# Values that nobody wants

The value of an unknown field is passed over. It has to be well-formed, but nothing in it
is decoded, and it may be nested as deeply as it likes: what is open is kept in a list of
brackets, innermost first, so that no depth of nesting is too deep.
-/

namespace TrafficStats.Json

inductive Bracket where
  | list
  | object
  deriving DecidableEq

def Bracket.close : Bracket → Char
  | .list => ']'
  | .object => '\x7d'

/-- Where a text stands inside the innermost open bracket. -/
inductive Place where
  | opened
  | item
  deriving DecidableEq

/-- What is open, innermost first, and what is still to be read. -/
structure Skipping where
  place : Place
  brackets : List Bracket
  text : List Char

/-- Passes over the head of a value: over all of it, or over the bracket that opens it. -/
def skipHead (brackets : List Bracket) (text : List Char) : Except Fault Skipping :=
  let item := fun rest => (⟨.item, brackets, rest⟩ : Skipping)
  match skipBlanks text with
  | [] => .error .truncated
  | '[' :: rest => .ok ⟨.opened, .list :: brackets, rest⟩
  | '\x7b' :: rest => .ok ⟨.opened, .object :: brackets, rest⟩
  | 'n' :: rest => (readWord ['u', 'l', 'l'] rest).map item
  | 't' :: rest => (readWord ['r', 'u', 'e'] rest).map item
  | 'f' :: rest => (readWord ['a', 'l', 's', 'e'] rest).map item
  | '"' :: rest => (skipString rest).map item
  | '-' :: rest => (skipNumber rest).map item
  | c :: rest =>
    if isDigit c then (skipNumber (c :: rest)).map item else .error .malformed

def readColon (text : List Char) : Except Fault (List Char) :=
  match skipBlanks text with
  | [] => .error .truncated
  | ':' :: rest => .ok rest
  | _ => .error .malformed

def skipKey (text : List Char) : Except Fault (List Char) :=
  match skipBlanks text with
  | [] => .error .truncated
  | '"' :: rest => skipString rest >>= readColon
  | _ => .error .malformed

/-- Passes over the head of an item of the innermost bracket. -/
def skipItem (bracket : Bracket) (outer : List Bracket) (text : List Char) :
    Except Fault Skipping :=
  match bracket with
  | .list => skipHead (bracket :: outer) text
  | .object => do skipHead (bracket :: outer) (← skipKey text)

/-- Passes over the innermost bracket's end, or over the head of its next item. -/
def skipStep (place : Place) (bracket : Bracket) (outer : List Bracket) (text : List Char) :
    Except Fault Skipping :=
  match skipBlanks text with
  | [] => .error .truncated
  | c :: rest =>
    if c = bracket.close then .ok ⟨.item, outer, rest⟩
    else
      match place with
      | .opened => skipItem bracket outer (c :: rest)
      | .item => if c = ',' then skipItem bracket outer rest else .error .malformed

/-- Passes over a text until nothing is open any more. Every step takes at least one
character, so a budget of one step for each character is enough. -/
def skipSteps : Nat → Skipping → Except Fault (List Char)
  | _, ⟨_, [], text⟩ => .ok text
  | 0, _ => .error .truncated
  | steps + 1, ⟨place, bracket :: outer, text⟩ => do
    skipSteps steps (← skipStep place bracket outer text)

def skipValue (text : List Char) : Except Fault (List Char) := do
  let head ← skipHead [] text
  skipSteps head.text.length head

end TrafficStats.Json
