import TrafficStats.Json.Skip

/-!
# JSON of a known shape

A `Decoder` reads one value of the type wanted from the head of a text. There are
decoders for strings, for integers of a range, for lists, and for records. A record is
described by its `Field`s and starts out with its defaults. It is written as an object,
whose members may come in any order, may be missing, and may be joined by members that
nobody knows; or as a list of its fields in their order, of which the last ones may be
missing. No field may be given twice.
-/

namespace TrafficStats.Json

/-- Reads a value from the head of a text and gives the rest of the text. -/
abbrev Decoder (α : Type) := List Char → Except Fault (α × List Char)

def Number.found : Number → Found
  | .whole i => .integer i
  | .float => .float

/-- Reads as much of a value as it takes to name it. -/
def readFound (text : List Char) : Except Fault Found :=
  match text with
  | [] => .error .truncated
  | 'n' :: rest => (readWord ['u', 'l', 'l'] rest).map fun _ => .null
  | 't' :: rest => (readWord ['r', 'u', 'e'] rest).map fun _ => .boolean true
  | 'f' :: rest => (readWord ['a', 'l', 's', 'e'] rest).map fun _ => .boolean false
  | '"' :: rest => (readString rest).map fun (s, _) => .text (String.ofList s)
  | '[' :: _ => .ok .sequence
  | '\x7b' :: _ => .ok .map
  | '-' :: rest => (readNumber true rest).map fun (n, _) => n.found
  | c :: rest =>
    if isDigit c then (readNumber false (c :: rest)).map fun (n, _) => n.found
    else .error .malformed

/-- Refuses a value because it is not of the kind wanted. A value that is not even
well-formed is refused for that. -/
def refuse {α : Type} (wanted : String) (text : List Char) : Except Fault α := do
  throw (.mismatch (.wrongKind (← readFound text) wanted))

def readText (wanted : String) : Decoder String := fun text =>
  match skipBlanks text with
  | '"' :: rest => (readString rest).map fun (s, rest) => (String.ofList s, rest)
  | text => refuse wanted text

/-- A range of integers, with the name that messages have for it. -/
structure IntegerRange where
  name : String
  least : Int
  greatest : Int

def IntegerRange.accept (range : IntegerRange) : Number → Except Fault Int
  | .float => .error (.mismatch (.wrongKind .float range.name))
  | .whole i =>
    if range.least ≤ i ∧ i ≤ range.greatest then .ok i
    else .error (.mismatch (.outOfRange i range.name))

def readIntegerIn (range : IntegerRange) : Decoder Int := fun text =>
  let accept := fun (answer : Number × List Char) => do
    pure (← range.accept answer.1, answer.2)
  match skipBlanks text with
  | '-' :: rest => readNumber true rest >>= accept
  | c :: rest =>
    if isDigit c then readNumber false (c :: rest) >>= accept
    else refuse range.name (c :: rest)
  | [] => .error .truncated

/-- Finds the next item of a list, if there is one: `first` says that none was read yet.
The closing bracket is left where it is. -/
def nextItem (first : Bool) (text : List Char) : Except Fault (Option (List Char)) :=
  match skipBlanks text with
  | [] => .error .truncated
  | ']' :: _ => .ok none
  | c :: rest =>
    if first then .ok (some (c :: rest))
    else if c = ',' then
      match skipBlanks rest with
      | [] => .error .truncated
      | ']' :: _ => .error .malformed
      | text => .ok (some text)
    else .error .malformed

def endList (text : List Char) : Except Fault (List Char) :=
  match skipBlanks text with
  | [] => .error .truncated
  | ']' :: rest => .ok rest
  | _ => .error .malformed

/-- Reads the items of a list. Every item takes at least one character, so a budget of one
item for each character is enough. -/
def readItems {α : Type} (item : Decoder α) : Nat → Bool → Decoder (List α)
  | 0, _, _ => .error .truncated
  | budget + 1, first, text => do
    match ← nextItem first text with
    | none => pure ([], text)
    | some text =>
      let (head, text) ← item text
      let (tail, text) ← readItems item budget false text
      pure (head :: tail, text)

def readList {α : Type} (item : Decoder α) : Decoder (List α) := fun text =>
  match skipBlanks text with
  | '[' :: rest => do
    let (items, rest) ← readItems item rest.length true rest
    pure (items, ← endList rest)
  | text => refuse "a sequence" text

/-- A field of a record: its name, and how its value is read and put into the record. -/
structure Field (σ : Type) where
  name : String
  read : σ → Decoder σ

def Field.of {σ α : Type} (name : String) (decoder : Decoder α) (put : σ → α → σ) :
    Field σ :=
  ⟨name, fun record text => (decoder text).map fun (value, rest) => (put record value, rest)⟩

/-- Reads the fields of a record that is written as a list. -/
def readInOrder {σ : Type} : List (Field σ) → Bool → σ → Decoder σ
  | [], _, record, text => .ok (record, text)
  | field :: fields, first, record, text => do
    match ← nextItem first text with
    | none => pure (record, text)
    | some text =>
      let (record, text) ← field.read record text
      readInOrder fields false record text

inductive NextMember where
  | key (name : List Char) (rest : List Char)
  | finished (rest : List Char)

def readKey (text : List Char) : Except Fault NextMember :=
  (readString text).map fun (name, rest) => .key name rest

/-- Reads the key of the next member of an object, or its end: `first` says that no member
was read yet. -/
def nextMember (first : Bool) (text : List Char) : Except Fault NextMember :=
  match skipBlanks text with
  | [] => .error .truncated
  | '\x7d' :: rest => .ok (.finished rest)
  | c :: rest =>
    if first then
      if c = '"' then readKey rest else .error .malformed
    else if c = ',' then
      match skipBlanks rest with
      | [] => .error .truncated
      | '"' :: rest => readKey rest
      | _ => .error .malformed
    else .error .malformed

/-- Reads the members of an object. `given` lists the fields that were read so far. Every
member takes at least one character, so a budget of one member for each character is
enough. -/
def readMembers {σ : Type} (fields : List (Field σ)) :
    Nat → Bool → List String → σ → Decoder σ
  | 0, _, _, _, _ => .error .truncated
  | budget + 1, first, given, record, text => do
    match ← nextMember first text with
    | .finished rest => pure (record, rest)
    | .key name text =>
      match fields.find? fun field => field.name = String.ofList name with
      | none =>
        let text ← skipValue (← readColon text)
        readMembers fields budget false given record text
      | some field =>
        if field.name ∈ given then throw (.mismatch (.repeatedField field.name))
        let (record, text) ← field.read record (← readColon text)
        readMembers fields budget false (field.name :: given) record text

/-- Reads a record over its defaults. -/
def readRecord {σ : Type} (wanted : String) (fields : List (Field σ)) (defaults : σ) :
    Decoder σ := fun text =>
  match skipBlanks text with
  | '[' :: rest => do
    let (record, rest) ← readInOrder fields true defaults rest
    pure (record, ← endList rest)
  | '\x7b' :: rest => readMembers fields rest.length true [] defaults rest
  | text => refuse wanted text

/-- Reads a text that holds one value and nothing else but blanks. -/
def readDocument {α : Type} (decoder : Decoder α) (text : List Char) : Except Fault α := do
  let (value, rest) ← decoder text
  if (skipBlanks rest).isEmpty then pure value else throw .malformed

end TrafficStats.Json
