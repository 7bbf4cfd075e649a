import TrafficStats.Json.Fault
import TrafficStats.Text.Fit

/-!
# Blanks, words and strings of a JSON text

A reader takes a text and gives what it read together with the rest of the text.
Strings are read in two ways. `readString` decodes its text and refuses an escape that
names half of a surrogate pair; `skipString` passes over a string whose text nobody
wants, and there every four hexadecimal digits will do. Both refuse control characters,
and both end just after the closing quote.
-/

namespace TrafficStats.Json

def isBlank (c : Char) : Bool :=
  c = ' ' ∨ c = '\n' ∨ c = '\t' ∨ c = '\r'

def skipBlanks (text : List Char) : List Char :=
  text.dropWhile isBlank

def readWord : List Char → List Char → Except Fault (List Char)
  | [], text => .ok text
  | _ :: _, [] => .error .truncated
  | w :: word, c :: text => if c = w then readWord word text else .error .malformed

def hexValue? (c : Char) : Option Nat :=
  if '0' ≤ c ∧ c ≤ '9' then some (c.toNat - '0'.toNat)
  else if 'a' ≤ c ∧ c ≤ 'f' then some (c.toNat - 'a'.toNat + 10)
  else if 'A' ≤ c ∧ c ≤ 'F' then some (c.toNat - 'A'.toNat + 10)
  else none

/-- Reads four hexadecimal digits. A text of fewer than four bytes has stopped too
early, whatever its bytes are. -/
def readHex : List Char → Except Fault (Nat × List Char)
  | a :: b :: c :: d :: rest =>
    match hexValue? a, hexValue? b, hexValue? c, hexValue? d with
    | some a, some b, some c, some d => .ok (((a * 16 + b) * 16 + c) * 16 + d, rest)
    | _, _, _, _ => .error .malformed
  | text =>
    if 4 ≤ Text.byteLength text then .error .malformed else .error .truncated

def isHighSurrogate (n : Nat) : Bool := 0xD800 ≤ n ∧ n ≤ 0xDBFF

def isLowSurrogate (n : Nat) : Bool := 0xDC00 ≤ n ∧ n ≤ 0xDFFF

def pairedChar (high low : Nat) : Char :=
  Char.ofNat (0x10000 + (high - 0xD800) * 0x400 + (low - 0xDC00))

/-- Reads the escape `\u` that has to follow the first half of a surrogate pair, up to
its four digits. -/
def readPairMark : List Char → Except Fault (List Char)
  | [] => .error .truncated
  | '\\' :: [] => .error .truncated
  | '\\' :: 'u' :: rest => .ok rest
  | _ => .error .malformed

/-- Reads the digits of an escape by code unit, with the second half of a pair. -/
def readCodeUnits (text : List Char) : Except Fault (Char × List Char) := do
  let (n, text) ← readHex text
  if isLowSurrogate n then throw .malformed
  if isHighSurrogate n then
    let (low, text) ← readHex (← readPairMark text)
    if isLowSurrogate low then pure (pairedChar n low, text) else throw .malformed
  else pure (Char.ofNat n, text)

def shortEscape? : Char → Option Char
  | '"' => some '"'
  | '\\' => some '\\'
  | '/' => some '/'
  | 'b' => some '\x08'
  | 'f' => some '\x0c'
  | 'n' => some '\n'
  | 'r' => some '\r'
  | 't' => some '\t'
  | _ => none

def readEscape : List Char → Except Fault (Char × List Char)
  | [] => .error .truncated
  | 'u' :: rest => readCodeUnits rest
  | c :: rest =>
    match shortEscape? c with
    | some e => .ok (e, rest)
    | none => .error .malformed

def skipEscape : List Char → Except Fault (List Char)
  | [] => .error .truncated
  | 'u' :: rest => (readHex rest).map Prod.snd
  | c :: rest => if (shortEscape? c).isSome then .ok rest else .error .malformed

theorem readHex_shorter {text rest : List Char} {n : Nat}
    (h : readHex text = .ok (n, rest)) : rest.length < text.length := by
  unfold readHex at h
  split at h
  · split at h
    · cases h
      simp only [List.length_cons]
      omega
    · cases h
  · split at h <;> cases h

theorem readPairMark_shorter {text rest : List Char} (h : readPairMark text = .ok rest) :
    rest.length < text.length := by
  unfold readPairMark at h
  split at h
  · cases h
  · cases h
  · cases h
    simp only [List.length_cons]
    omega
  · cases h

theorem readCodeUnits_shorter {text rest : List Char} {c : Char}
    (h : readCodeUnits text = .ok (c, rest)) : rest.length < text.length := by
  unfold readCodeUnits at h
  cases hn : readHex text with
  | error e => simp [hn, bind, Except.bind] at h
  | ok unit =>
    obtain ⟨n, afterUnit⟩ := unit
    have shorter := readHex_shorter hn
    simp only [hn, bind, Except.bind, pure, Except.pure, throw, throwThe,
      MonadExceptOf.throw] at h
    split at h
    · cases h
    · split at h
      · cases hm : readPairMark afterUnit with
        | error e => simp [hm] at h
        | ok afterMark =>
          have markShorter := readPairMark_shorter hm
          cases hl : readHex afterMark with
          | error e => simp [hm, hl] at h
          | ok second =>
            obtain ⟨low, afterLow⟩ := second
            have lowShorter := readHex_shorter hl
            simp only [hm, hl] at h
            split at h
            · simp only [Except.ok.injEq, Prod.mk.injEq] at h
              obtain ⟨_, rfl⟩ := h
              omega
            · cases h
      · simp only [Except.ok.injEq, Prod.mk.injEq] at h
        obtain ⟨_, rfl⟩ := h
        exact shorter

theorem readEscape_shorter {text rest : List Char} {c : Char}
    (h : readEscape text = .ok (c, rest)) : rest.length < text.length := by
  unfold readEscape at h
  split at h
  · cases h
  · have shorter := readCodeUnits_shorter h
    simp only [List.length_cons]
    omega
  · split at h <;> cases h
    simp

theorem skipEscape_shorter {text rest : List Char} (h : skipEscape text = .ok rest) :
    rest.length < text.length := by
  unfold skipEscape at h
  split at h
  · cases h
  · rename_i rest'
    cases hn : readHex rest' with
    | error e => simp [hn, Except.map] at h
    | ok unit =>
      obtain ⟨n, afterUnit⟩ := unit
      have shorter := readHex_shorter hn
      simp only [hn, Except.map, Except.ok.injEq] at h
      subst h
      simp only [List.length_cons]
      omega
  · split at h <;> cases h
    simp

/-- Whether a character may not stand in a string without an escape. -/
def isControl (c : Char) : Bool := c.toNat < 0x20

/-- Reads a string after its opening quote. -/
def readString (text : List Char) : Except Fault (List Char × List Char) :=
  match text with
  | [] => .error .truncated
  | '"' :: rest => .ok ([], rest)
  | '\\' :: rest =>
    match _h : readEscape rest with
    | .error e => .error e
    | .ok (c, rest) => (readString rest).map fun (s, rest) => (c :: s, rest)
  | c :: rest =>
    if isControl c then .error .malformed
    else (readString rest).map fun (s, rest) => (c :: s, rest)
  termination_by text.length
  decreasing_by
    · have := readEscape_shorter _h
      simp only [List.length_cons]
      omega
    · simp

def skipString (text : List Char) : Except Fault (List Char) :=
  match text with
  | [] => .error .truncated
  | '"' :: rest => .ok rest
  | '\\' :: rest =>
    match _h : skipEscape rest with
    | .error e => .error e
    | .ok rest => skipString rest
  | c :: rest => if isControl c then .error .malformed else skipString rest
  termination_by text.length
  decreasing_by
    · have := skipEscape_shorter _h
      simp only [List.length_cons]
      omega
    · simp

end TrafficStats.Json
