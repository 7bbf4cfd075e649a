import Mathlib.Data.List.TakeWhile
import TrafficStats.CommandLine.Word

/-!
# How the words of a command line are spelled

An argument is two dashes, an option in its long form with a value or without one, a cluster of
letters, or a plain word. Its spelling tells which (`Word.ofString_eq_iff`), and it is plain
exactly if it does not go on after a dash.
-/

namespace TrafficStats

/-- An argument that begins with a dash and goes on after it. -/
def Dashed (word : String) : Prop :=
  ∃ c text, word.toList = '-' :: c :: text

section Equals

variable {name value : List Char}

theorem cutAtEquals_of_notMem (free : '=' ∉ name) : cutAtEquals name = (name, none) := by
  have passed : name.dropWhile (· ≠ '=') = [] :=
    List.dropWhile_eq_nil_iff.mpr fun c mem => decide_eq_true fun eq => free (eq ▸ mem)
  rw [cutAtEquals, passed]

theorem cutAtEquals_append (free : '=' ∉ name) :
    cutAtEquals (name ++ '=' :: value) = (name, some value) := by
  have before : ∀ c ∈ name, decide (c ≠ '=') = true :=
    fun c mem => decide_eq_true fun eq => free (eq ▸ mem)
  rw [cutAtEquals, List.dropWhile_append_of_pos before, List.takeWhile_append_of_pos before]
  simp

end Equals

/-- How the words of a command line are spelled. -/
inductive Word.Spells : Word → String → Prop
  | dashes : Spells .dashes "--"
  | long {name : String} (nonempty : name ≠ "") (free : '=' ∉ name.toList) :
      Spells (.long name none) ("--" ++ name)
  | longValue {name value : String} (free : '=' ∉ name.toList) :
      Spells (.long name (some value)) ("--" ++ name ++ "=" ++ value)
  | cluster {c : Char} {letters : List Char} (single : c ≠ '-') :
      Spells (.cluster (c :: letters)) (String.ofList ('-' :: c :: letters))
  | plain {word : String} (undashed : ¬ Dashed word) : Spells .plain word

theorem Word.Spells.dashed {kind : Word} {word : String} (spelled : kind.Spells word)
    (more : kind ≠ .plain) : Dashed word := by
  cases spelled with
  | dashes => exact ⟨'-', [], rfl⟩
  | long | longValue | cluster => simp [Dashed]
  | plain => exact absurd rfl more

theorem Word.Spells.letters_eq_cons {letters : List Char} {word : String}
    (spelled : (Word.cluster letters).Spells word) : ∃ c more, letters = c :: more := by
  cases spelled with
  | cluster => exact ⟨_, _, rfl⟩

theorem Word.ofString_spells (word : String) : (Word.ofString word).Spells word := by
  unfold Word.ofString
  split
  · rename_i chars
    obtain rfl : word = "--" := String.toList_injective chars
    exact .dashes
  · rename_i rest nonempty chars
    by_cases mem : '=' ∈ rest
    · obtain ⟨name, value, rfl, free⟩ := List.eq_append_cons_of_mem mem
      rw [cutAtEquals_append free]
      have spelled : word = "--" ++ String.ofList name ++ "=" ++ String.ofList value :=
        String.toList_injective (by simpa using chars)
      rw [spelled]
      exact .longValue (by simpa using free)
    · rw [cutAtEquals_of_notMem mem]
      have spelled : word = "--" ++ String.ofList rest :=
        String.toList_injective (by simpa using chars)
      rw [spelled]
      exact .long (by simpa using nonempty) (by simpa using mem)
  · rename_i c letters single long chars
    obtain rfl : word = String.ofList ('-' :: c :: letters) :=
      String.toList_injective (by simpa using chars)
    exact .cluster long
  · rename_i other
    refine .plain ?_
    rintro ⟨c, text, chars⟩
    exact other _ _ chars

/-- Every word is of one kind, told by its spelling. -/
theorem Word.ofString_eq_iff {word : String} {kind : Word} :
    Word.ofString word = kind ↔ kind.Spells word := by
  constructor
  · rintro rfl
    exact ofString_spells word
  · intro spelled
    cases spelled with
    | dashes => rfl
    | @long name nonempty free =>
        obtain ⟨c, text, chars⟩ :=
          List.exists_cons_of_ne_nil (mt String.toList_eq_nil_iff.mp nonempty)
        obtain rfl : name = String.ofList (c :: text) :=
          String.toList_injective (by simpa using chars)
        rw [chars] at free
        simp [Word.ofString, cutAtEquals_of_notMem free]
    | longValue free => simp [Word.ofString, cutAtEquals_append free]
    | cluster single => simp [Word.ofString, single]
    | plain undashed =>
        by_contra other
        exact undashed ((ofString_spells word).dashed other)

theorem Word.ofString_eq_plain_iff {word : String} :
    Word.ofString word = .plain ↔ ¬ Dashed word := by
  rw [ofString_eq_iff]
  exact ⟨fun | .plain undashed => undashed, .plain⟩

theorem Word.ofString_eq_dashes_iff {word : String} :
    Word.ofString word = .dashes ↔ word = "--" := by
  rw [ofString_eq_iff]
  exact ⟨fun | .dashes => rfl, fun eq => eq ▸ .dashes⟩

end TrafficStats
