import Mathlib.Data.List.ReduceOption
import TrafficStats.Json.Line
import TrafficStats.Proofs.Json.Scan

/-!
# What can be written

Every character has a text in a string, the one that is printed for it, so every string has one,
and a list or a record can be written if its items can. A relation between values and texts that
is built from these is about all values.
-/

namespace TrafficStats.Json

/-! ### Strings -/

theorem SpellsAll.of_plain {s : List Char} (h : ∀ c ∈ s, Plain c) : SpellsAll s s := by
  induction s with
  | nil => exact .nil
  | cons c s ih =>
      have later := ih fun c' mem => h c' (List.mem_cons_of_mem c mem)
      exact .cons (.plain (h c List.mem_cons_self)) later

theorem Quoted.of_plain {s : String} (h : ∀ c ∈ s.toList, Plain c) :
    Quoted s ('"' :: s.toList ++ ['"']) := .quotes (SpellsAll.of_plain h)

/-- Every character is printed in one of its spellings: a quote, a backslash and a control
character are escaped, and all others stand for themselves. -/
theorem escapeChar_spells (c : Char) : Spells (escapeChar c) c := by
  unfold escapeChar
  split
  -- The first seven are escaped by a letter of their own.
  iterate 7 exact .escape (by decide)
  split
  · rename_i control
    have digit (n : Nat) (small : n < 16) : HexDigit (hexDigit n) n := ⟨small, .inl rfl⟩
    have unit := CodeUnit.digits (digit 0 (by decide)) (digit 0 (by decide))
      (digit (c.toNat / 16) (by omega)) (digit (c.toNat % 16) (by omega))
    have value : ((0 * 16 + 0) * 16 + c.toNat / 16) * 16 + c.toNat % 16 = c.toNat := by omega
    rw [value] at unit
    exact .unit unit
  · rename_i printable
    exact .plain ⟨Nat.not_lt.mp printable, ‹_›, ‹_›⟩

theorem stringText_quoted (s : String) : Quoted s (stringText s) := by
  have spells (cs : List Char) : SpellsAll (cs.flatMap escapeChar) cs := by
    induction cs with
    | nil => exact .nil
    | cons c cs ih => exact .cons (escapeChar_spells c) ih
  exact .quotes (spells s.toList)

theorem exists_quoted (s : String) : ∃ t, Quoted s t := ⟨_, stringText_quoted s⟩

/-! ### Lists and records -/

section Lists

variable {α : Type} {Writes : α → List Char → Prop}

theorem exists_separated {a : α} {as : List α} (h : ∀ b ∈ a :: as, ∃ t, Writes b t) :
    ∃ t, Separated Writes (a :: as) t := by
  obtain ⟨t, written⟩ := h a List.mem_cons_self
  induction as generalizing a t with
  | nil => exact ⟨_, .last blanks_nil written blanks_nil⟩
  | cons b as ih =>
      have others : ∀ c ∈ b :: as, ∃ t, Writes c t := fun c mem => h c (List.mem_cons_of_mem a mem)
      obtain ⟨u, next⟩ := others b List.mem_cons_self
      obtain ⟨ts, rest⟩ := ih others u next
      exact ⟨_, .more blanks_nil written blanks_nil rest⟩

theorem exists_enclosed (opening closing : Char) {as : List α} (h : ∀ a ∈ as, ∃ t, Writes a t) :
    ∃ t, Enclosed opening closing Writes as t := by
  cases as with
  | nil => exact ⟨_, .empty blanks_nil⟩
  | cons a as =>
      obtain ⟨t, separated⟩ := exists_separated h
      exact ⟨_, .filled separated⟩

end Lists

/-- A record can be written as an object if what it says can be. -/
theorem exists_record {S : Type} (name : S → String) (known : List String)
    {Writes : S → List Char → Prop} {settings : List S} (h : ∀ s ∈ settings, ∃ t, Writes s t) :
    ∃ t, Record name known Writes settings t := by
  have members : ∀ member ∈ settings.map some, ∃ t, Member name known Writes member t := by
    intro member mem
    obtain ⟨s, given, rfl⟩ := List.mem_map.mp mem
    obtain ⟨t, written⟩ := h s given
    obtain ⟨key, quoted⟩ := exists_quoted (name s)
    exact ⟨_, .known s quoted blanks_nil blanks_nil written⟩
  have same : (settings.map some).reduceOption = settings := by
    simp [List.reduceOption, List.filterMap_map]
  obtain ⟨t, enclosed⟩ := exists_enclosed '\x7b' '\x7d' members
  have record := Record.object enclosed
  rw [same] at record
  exact ⟨_, record⟩

end TrafficStats.Json
