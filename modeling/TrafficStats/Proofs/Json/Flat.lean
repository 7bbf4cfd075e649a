import TrafficStats.Proofs.Json.Numbers
import TrafficStats.Proofs.Json.Writable

/-!
# Flat objects

A flat object has scalars for the values of its members. The line that is printed for a list of
members is a text of the flat object with these members, in this order (`objectLine_flat`). So it
is well-formed JSON, and it is read wherever a record with such members is. No control character
stands in it, whatever its strings hold, so a line is never cut by what it tells.
-/

namespace TrafficStats.Json

inductive Scalar.Writes : Scalar → List Char → Prop
  | text {s : String} {t : List Char} (h : Quoted s t) : Writes (.text s) t
  | number (i : Int) : Writes (.number i) (Text.integer i).toList

inductive FlatMember : String × Scalar → List Char → Prop
  | member {key : String} {value : Scalar} {k m n t : List Char} (hkey : Quoted key k)
      (hm : Blanks m) (hn : Blanks n) (h : value.Writes t) :
      FlatMember (key, value) (k ++ m ++ ':' :: n ++ t)

/-- The texts of an object with the given members, in their order. -/
abbrev FlatObject : List (String × Scalar) → List Char → Prop :=
  Enclosed '\x7b' '\x7d' FlatMember

variable {c : Char} {s : String} {t ts : List Char} {members : List (String × Scalar)}

/-! ### Items -/

section Items

variable {α β γ : Type} {Writes : α → List Char → Prop} {Writes' : β → List Char → Prop}
variable {f : γ → α} {g : γ → β} {cs : List γ} {t : List Char}

/-- A list of items is a list of other items too if each item is one of them. -/
theorem Separated.map (each : ∀ c t, Writes (f c) t → Writes' (g c) t)
    (h : Separated Writes (cs.map f) t) : Separated Writes' (cs.map g) t := by
  generalize eq : cs.map f = as at h
  induction h generalizing cs with
  | last hl h hr =>
      obtain ⟨c, cs, rfl, rfl, none⟩ := List.map_eq_cons_iff.mp eq
      obtain rfl := List.map_eq_nil_iff.mp none
      exact .last hl (each c _ h) hr
  | more hl h hr _ ih =>
      obtain ⟨c, cs, rfl, rfl, rest⟩ := List.map_eq_cons_iff.mp eq
      exact .more hl (each c _ h) hr (ih rest)

theorem Enclosed.map {opening closing : Char} (each : ∀ c t, Writes (f c) t → Writes' (g c) t)
    (h : Enclosed opening closing Writes (cs.map f) t) :
    Enclosed opening closing Writes' (cs.map g) t := by
  generalize eq : cs.map f = as at h
  cases h with
  | empty hb =>
      obtain rfl := List.map_eq_nil_iff.mp eq
      exact .empty hb
  | filled h => exact .filled (.map each (eq ▸ h))

end Items

/-! ### Printed objects -/

theorem memberText_flat (member : String × Scalar) : FlatMember member (memberText member) := by
  obtain ⟨key, value⟩ := member
  have written : value.Writes value.chars := by
    cases value with
    | text s => exact .text (stringText_quoted s)
    | number i => exact .number i
  have flat := FlatMember.member (stringText_quoted key) blanks_nil blanks_nil written
  rwa [List.append_nil, List.append_assoc] at flat

theorem membersText_separated (member : String × Scalar) (members : List (String × Scalar)) :
    Separated FlatMember (member :: members) (membersText (member :: members)) := by
  induction members generalizing member with
  | nil =>
      have last := Separated.last blanks_nil (memberText_flat member) blanks_nil
      rwa [List.append_nil] at last
  | cons next members ih =>
      have more := Separated.more blanks_nil (memberText_flat member) blanks_nil (ih next)
      rwa [List.append_nil] at more

/-- The line of some members is a text of the object with these members. -/
theorem objectLine_flat (members : List (String × Scalar)) :
    FlatObject members (objectLine members).toList := by
  rw [objectLine, String.toList_ofList]
  cases members with
  | nil => exact .empty blanks_nil
  | cons member members => exact .filled (membersText_separated member members)

/-! ### Lines -/

/-- A text without control characters, among them those that end a line. -/
def OneLine (t : List Char) : Prop := ∀ c ∈ t, 0x20 ≤ c.toNat

theorem OneLine.notMem (h : OneLine t) (control : c.toNat < 0x20) : c ∉ t :=
  fun mem => absurd (h c mem) (Nat.not_le.mpr control)

theorem oneLine_append (h : OneLine t) (h' : OneLine ts) : OneLine (t ++ ts) :=
  List.forall_mem_append.mpr ⟨h, h'⟩

theorem oneLine_cons (printable : 0x20 ≤ c.toNat) (h : OneLine t) : OneLine (c :: t) :=
  List.forall_mem_cons.mpr ⟨printable, h⟩

theorem oneLine_escapeChar (c : Char) : OneLine (escapeChar c) := by
  have digit (n : Nat) (small : n < 16) : 0x20 ≤ (hexDigit n).toNat := by
    have table : ∀ n : Fin 16, 0x20 ≤ (hexDigit n.val).toNat := by decide
    exact table ⟨n, small⟩
  unfold escapeChar OneLine
  split
  case h_8 =>
    split
    · have high := digit (c.toNat / 16) (by omega)
      have low := digit (c.toNat % 16) (by omega)
      simp [high, low]
    · rename_i printable
      simpa using printable
  -- The characters with an escape of their own.
  all_goals simp

theorem oneLine_stringText (s : String) : OneLine (stringText s) := by
  have content : OneLine (s.toList.flatMap escapeChar) := by
    intro c mem
    obtain ⟨d, -, mem⟩ := List.mem_flatMap.mp mem
    exact oneLine_escapeChar d c mem
  exact oneLine_cons (by decide) (oneLine_append content (oneLine_cons (by decide) nofun))

theorem oneLine_natural (n : Nat) : OneLine (Text.natural n).toList := by
  intro c mem
  rw [Text.natural, String.toList_ofList] at mem
  have digit : '0' ≤ c := ((isDigit_iff c).mp ((digits_toDigits n).2 c mem)).1
  exact Nat.le_trans (show 0x20 ≤ '0'.toNat by decide) digit

theorem oneLine_integer (i : Int) : OneLine (Text.integer i).toList := by
  unfold Text.integer
  split
  · rw [String.toList_append]
    exact oneLine_append (oneLine_cons (by decide) nofun) (oneLine_natural _)
  · exact oneLine_natural _

theorem oneLine_memberText (member : String × Scalar) : OneLine (memberText member) := by
  obtain ⟨key, value⟩ := member
  have value : OneLine value.chars := by
    cases value with
    | text s => exact oneLine_stringText s
    | number i => exact oneLine_integer i
  exact oneLine_append (oneLine_stringText key) (oneLine_cons (by decide) value)

theorem oneLine_membersText (members : List (String × Scalar)) : OneLine (membersText members) := by
  fun_induction membersText members with
  | case1 => nofun
  | case2 member => exact oneLine_memberText member
  | case3 member rest _ ih =>
      exact oneLine_append (oneLine_memberText member) (oneLine_cons (by decide) ih)

/-- A flat object is printed on one line, whatever it tells. -/
theorem oneLine_objectLine (members : List (String × Scalar)) :
    OneLine (objectLine members).toList := by
  rw [objectLine, String.toList_ofList]
  exact oneLine_cons (by decide)
    (oneLine_append (oneLine_membersText members) (oneLine_cons (by decide) nofun))

/-! ### Flat objects as JSON -/

theorem SpellsAll.loose {cs : List Char} (h : SpellsAll t cs) : Loose t := by
  induction h with
  | nil => exact .nil
  | cons h _ ih =>
      cases h with
      | plain h => exact .plain h ih
      | escape h => exact .escape h ih
      | unit h => exact .unit h ih
      | pair h h' _ _ _ =>
          rw [List.append_assoc]
          exact .unit h (.unit h' ih)

theorem Scalar.Writes.wellFormed {value : Scalar} (h : value.Writes t) : WellFormed .value t := by
  cases h with
  | text h =>
      cases h with
      | quotes h => exact .string h.loose
  | number i =>
      have unsigned : Unsigned (Text.natural i.natAbs).toList := by
        rw [Text.natural, String.toList_ofList]
        have parts := Unsigned.parts (whole_toDigits i.natAbs) .absent .absent
        rwa [List.append_nil, List.append_nil] at parts
      unfold Text.integer
      split
      · rw [String.toList_append]
        exact .negative unsigned
      · exact .number unsigned

theorem FlatMember.exists_lead {member : String × Scalar} {l : List Char} (hl : Blanks l)
    (h : FlatMember member t) :
    ∃ lead value, l ++ t = lead ++ value ∧ Lead .object lead ∧ WellFormed .value value := by
  cases h with
  | @member key value k m n t hkey hm hn h =>
      cases hkey with
      | @quotes k hkey =>
          refine ⟨_, t, ?_, .object hl hkey.loose hm hn, h.wellFormed⟩
          simp

theorem Separated.wellFormed (h : Separated FlatMember members t) :
    WellFormed (.items .object) t := by
  induction h with
  | last hl h hr =>
      obtain ⟨lead, value, eq, hlead, wellFormed⟩ := h.exists_lead hl
      rw [eq]
      exact .last hlead wellFormed hr
  | more hl h hr _ ih =>
      obtain ⟨lead, value, eq, hlead, wellFormed⟩ := h.exists_lead hl
      rw [eq]
      exact .more hlead wellFormed hr ih

/-- A flat object is JSON. -/
theorem FlatObject.wellFormed (h : FlatObject members t) : WellFormed .value t := by
  cases h with
  | empty hb => exact .empty .object hb
  | filled h => exact (WellFormed.filled h.wellFormed :)

end TrafficStats.Json
