import TrafficStats.Proofs.Shared.Walk

/-!
# Queries among other processes

A query that only looks at shared tables finds in them what other processes put there, and
leaves them so. Which edits these make meanwhile is determined by their schedule and by the
calls of the query: `Intervention.editsBefore`. `Query.Among` states what such a query comes
to if each of these edits is of an allowed kind where it is made. What may be assumed of the
tables at a call is what allowed edits preserve; so an assertion is carried from call to call
(`Among.look`), and an invariant of the steps of an enumeration is one of the whole of it
(`Among.foldRows`).
-/

namespace TrafficStats

variable {K V α β : Type}

namespace Intervention

/-- The edits that other processes make before a call. -/
def due (table : TableName) (call : CallKind) : List Intervention → List TableEdit
  | [] => []
  | i :: rest =>
    if i.table = table ∧ i.call = call ∧ i.countdown = 1 then i.edits ++ due table call rest
    else due table call rest

/-- What other processes are still going to do after a call. -/
def remaining (table : TableName) (call : CallKind) : List Intervention → List Intervention
  | [] => []
  | i :: rest =>
    if i.table = table ∧ i.call = call then
      if i.countdown = 1 then remaining table call rest
      else { i with countdown := i.countdown - 1 } :: remaining table call rest
    else i :: remaining table call rest

/-- Letting other processes act is making the edits that are due. -/
theorem letAct_eq (table : TableName) (call : CallKind) (pending : List Intervention)
    (tables : MemoryTables) :
    letAct table call pending tables =
      (remaining table call pending, tables.edit (due table call pending)) := by
  induction pending generalizing tables with
  | nil => rfl
  | cons i rest ih =>
      simp only [letAct, due, remaining]
      by_cases here : i.table = table ∧ i.call = call
      · by_cases now : i.countdown = 1
        · rw [if_pos here, if_pos here, if_pos now, if_pos now, if_pos ⟨here.1, here.2, now⟩, ih]
          simp only [MemoryTables.edit, List.foldl_append]
        · have later : ¬ (i.table = table ∧ i.call = call ∧ i.countdown = 1) := fun h => now h.2.2
          rw [if_pos here, if_pos here, if_neg now, if_neg now, if_neg later, ih]
      · have elsewhere : ¬ (i.table = table ∧ i.call = call ∧ i.countdown = 1) :=
          fun h => here ⟨h.1, h.2.1⟩
        rw [if_neg here, if_neg here, if_neg elsewhere, ih]

end Intervention

def StoreCall.kind : StoreCall K V → CallKind
  | .iterate _ => .iterate
  | .next _ => .next
  | .read .. => .read
  | .delete .. => .delete
  | .put .. => .put

def TableCall.table : TableCall → TableName
  | .detail _ => .detail
  | .device _ => .device
  | .ifaceNames _ => .ifaceNames
  | .cookieTags _ => .cookieTags

def TableCall.kind : TableCall → CallKind
  | .detail call => call.kind
  | .device call => call.kind
  | .ifaceNames call => call.kind
  | .cookieTags call => call.kind

/-- What is put into a table is there afterwards, and calls on it are noted as calls of their
kind on this table. -/
structure TableField.Lawful [Ranked K] (field : TableField K V) : Prop where
  get_set : ∀ tables store, field.get (field.set tables store) = store
  table_event : ∀ call, (field.event call).table = field.name
  kind_event : ∀ call, (field.event call).kind = call.kind

theorem TableField.lawful_detail : detail.Lawful :=
  ⟨fun _ _ => rfl, fun _ => rfl, fun _ => rfl⟩

theorem TableField.lawful_device : device.Lawful :=
  ⟨fun _ _ => rfl, fun _ => rfl, fun _ => rfl⟩

theorem TableField.lawful_ifaceNames : ifaceNames.Lawful :=
  ⟨fun _ _ => rfl, fun _ => rfl, fun _ => rfl⟩

theorem TableField.lawful_cookieTags : cookieTags.Lawful :=
  ⟨fun _ _ => rfl, fun _ => rfl, fun _ => rfl⟩

namespace Intervention

/-- The edits that other processes make before one or another of some calls. -/
def editsBefore : List Moment → List Intervention → List TableEdit
  | [], _ => []
  | m :: later, pending =>
    due m.call.table m.call.kind pending ++
      editsBefore later (remaining m.call.table m.call.kind pending)

/-- What other processes are still going to do after some calls. -/
def remainingAfter : List Moment → List Intervention → List Intervention
  | [], pending => pending
  | m :: later, pending => remainingAfter later (remaining m.call.table m.call.kind pending)

theorem remainingAfter_append (moments more : List Moment) (pending : List Intervention) :
    remainingAfter (moments ++ more) pending =
      remainingAfter more (remainingAfter moments pending) := by
  induction moments generalizing pending with
  | nil => rfl
  | cons m moments ih => exact ih _

theorem editsBefore_append (moments more : List Moment) (pending : List Intervention) :
    editsBefore (moments ++ more) pending =
      editsBefore moments pending ++ editsBefore more (remainingAfter moments pending) := by
  induction moments generalizing pending with
  | nil => rfl
  | cons m moments ih =>
      rw [List.cons_append, editsBefore, ih, editsBefore, List.append_assoc]
      rfl

end Intervention

namespace MemoryTables

theorem edit_append (tables : MemoryTables) (edits more : List TableEdit) :
    tables.edit (edits ++ more) = (tables.edit edits).edit more := List.foldl_append

/-- Every edit is of an allowed kind where it is made. -/
def Allows (allowed : MemoryTables → TableEdit → Bool) : MemoryTables → List TableEdit → Prop
  | _, [] => True
  | tables, e :: rest => allowed tables e = true ∧ Allows allowed (e.apply tables) rest

instance (allowed : MemoryTables → TableEdit → Bool) (tables : MemoryTables)
    (edits : List TableEdit) : Decidable (Allows allowed tables edits) :=
  match edits with
  | [] => inferInstanceAs (Decidable True)
  | e :: rest =>
    have := instDecidableAllows allowed (e.apply tables) rest
    inferInstanceAs (Decidable (_ ∧ _))

variable {allowed : MemoryTables → TableEdit → Bool} {tables : MemoryTables}
variable {edits more : List TableEdit}

theorem allows_append :
    Allows allowed tables (edits ++ more) ↔
      Allows allowed tables edits ∧ Allows allowed (tables.edit edits) more := by
  induction edits generalizing tables with
  | nil => simp [Allows, edit]
  | cons e edits ih =>
      rw [List.cons_append, Allows, Allows, ih, and_assoc]
      rfl

/-- An assertion that allowed edits preserve. -/
def Preserved (allowed : MemoryTables → TableEdit → Bool) (holds : MemoryTables → Prop) : Prop :=
  ∀ tables e, allowed tables e = true → holds tables → holds (e.apply tables)

theorem Preserved.edit {holds : MemoryTables → Prop} (h : Preserved allowed holds)
    (all : Allows allowed tables edits) (before : holds tables) : holds (tables.edit edits) := by
  induction edits generalizing tables with
  | nil => exact before
  | cons e edits ih => exact ih all.2 (h tables e all.1 before)

end MemoryTables

open Intervention MemoryTables

/-- From one state to another nothing happened but the given calls, which only looked, and
what other processes did before them. -/
structure SharedTables.Passes (s : SharedTables) (moments : List Moment) (s' : SharedTables) :
    Prop where
  history : s'.history.toList = s.history.toList ++ moments
  pending : s'.pending = remainingAfter moments s.pending
  tables : s'.tables = s.tables.edit (editsBefore moments s.pending)

namespace SharedTables.Passes

variable {s s' s'' : SharedTables} {moments more : List Moment}

theorem refl (s : SharedTables) : s.Passes [] s := ⟨(List.append_nil _).symm, rfl, rfl⟩

theorem trans (h : s.Passes moments s') (h' : s'.Passes more s'') :
    s.Passes (moments ++ more) s'' := by
  refine ⟨?_, ?_, ?_⟩
  · rw [h'.history, h.history, List.append_assoc]
  · rw [h'.pending, h.pending, remainingAfter_append]
  · rw [h'.tables, h.tables, h.pending, editsBefore_append, edit_append]

theorem unique (h : s.Passes moments s') (h' : s.Passes more s') : moments = more :=
  List.append_cancel_left (h.history.symm.trans h'.history)

end SharedTables.Passes

namespace Query

open SharedTables

/-- A query that only looks at the tables. -/
def Looks (q : Query SharedTables α) : Prop :=
  ∀ s : Session SharedTables, ∃ moments, s.tables.Passes moments (q s).2.tables

/-- A query that only looks at tables of which `pre` holds, among other processes whose edits
are allowed, gives an answer of which `post` holds with the tables that are left. -/
structure Among (allowed : MemoryTables → TableEdit → Bool) (pre : MemoryTables → Prop)
    (q : Query SharedTables α) (post : α → MemoryTables → Prop) : Prop where
  looks : Looks q
  answer : ∀ (s : Session SharedTables) moments, s.tables.Passes moments (q s).2.tables →
    Allows allowed s.tables.tables (editsBefore moments s.tables.pending) →
    pre s.tables.tables → post (q s).1 (q s).2.tables.tables

namespace Looks

theorem of_quiet {q : Query SharedTables α} (quiet : ∀ s, (q s).2.tables = s.tables) :
    Looks q := by
  intro s
  refine ⟨[], ?_⟩
  rw [quiet]
  exact .refl _

theorem bind {q : Query SharedTables α} {f : α → Query SharedTables β} (hq : Looks q)
    (hf : ∀ a, Looks (f a)) : Looks (q >>= f) := by
  intro s
  obtain ⟨moments, passes⟩ := hq s
  obtain ⟨more, passes'⟩ := hf (q s).1 (q s).2
  exact ⟨moments ++ more, passes.trans passes'⟩

theorem map {q : Query SharedTables α} {g : α → β} (hq : Looks q) : Looks (g <$> q) := hq

variable [Ranked K] {field : TableField K V}

/-- What a call that only looks does to the shared tables. -/
theorem passes_look (lawful : field.Lawful) {kind : CallKind} (answer : MemoryStore K V → α)
    {event : α → StoreCall K V} (hkind : ∀ a, (event a).kind = kind) (s : SharedTables) :
    s.Passes [⟨(s.before field.name kind).tables,
        field.event (event (answer (field.get (s.before field.name kind).tables)))⟩]
      (look field kind answer event s).2 := by
  have acted : s.before field.name kind =
      { s with
        pending := remaining field.name kind s.pending
        tables := s.tables.edit (due field.name kind s.pending) } := by
    rw [before, letAct_eq]
  refine ⟨?_, ?_, ?_⟩
  · simp only [look, acted, Array.toList_push]
  · simp only [look, acted, remainingAfter, lawful.table_event, lawful.kind_event, hkind]
  · simp only [look, acted, editsBefore, lawful.table_event, lawful.kind_event, hkind,
      List.append_nil]

theorem look (lawful : field.Lawful) {kind : CallKind} (answer : MemoryStore K V → α)
    {event : α → StoreCall K V} (hkind : ∀ a, (event a).kind = kind) :
    Looks (onTables (SharedTables.look field kind answer event)) := by
  intro s
  exact ⟨_, passes_look lawful answer hkind s.tables⟩

theorem iterate (lawful : field.Lawful) : Looks (onTables (access field).iterate) :=
  look lawful _ fun _ => rfl

theorem next (lawful : field.Lawful) (c : Cursor K V) :
    Looks (onTables ((access field).next c)) :=
  look lawful _ fun _ => rfl

theorem read (lawful : field.Lawful) (k : K) : Looks (onTables ((access field).read k)) :=
  look lawful _ fun _ => rfl

/-- If the handler of rows only looks, so does working through an enumeration. -/
theorem foldRows (lawful : field.Lawful) {f : β → RowResult K V → Query SharedTables β}
    (hf : ∀ b r, Looks (f b r)) (c : Cursor K V) (b : β) :
    Looks ((access field).foldRows f c b) := by
  unfold TableAccess.foldRows
  generalize c.length + 1 = steps
  induction steps generalizing c b with
  | zero => exact of_quiet fun _ => rfl
  | succ steps ih =>
      refine (next lawful c).bind fun answer => ?_
      cases answer with
      | none => exact of_quiet fun _ => rfl
      | some answer =>
          obtain ⟨r, rest⟩ := answer
          exact (hf b r).bind fun b' => ih rest b'

end Looks

namespace Among

variable {allowed : MemoryTables → TableEdit → Bool} {pre pre' : MemoryTables → Prop}
variable {mid : α → MemoryTables → Prop} {post : β → MemoryTables → Prop}
variable {q : Query SharedTables α} {f : α → Query SharedTables β}

theorem mono_pre (h : Among allowed pre q mid) (stronger : ∀ tables, pre' tables → pre tables) :
    Among allowed pre' q mid :=
  ⟨h.looks, fun s moments passes all before => h.answer s moments passes all (stronger _ before)⟩

theorem mono {post' : α → MemoryTables → Prop} (h : Among allowed pre q mid)
    (weaker : ∀ a tables, mid a tables → post' a tables) : Among allowed pre q post' :=
  ⟨h.looks, fun s moments passes all before => weaker _ _ (h.answer s moments passes all before)⟩

theorem of_quiet (quiet : ∀ s, (q s).2.tables = s.tables) :
    Among allowed pre q fun _ tables => pre tables := by
  refine ⟨.of_quiet quiet, ?_⟩
  intro s moments _ _ before
  rw [quiet]
  exact before

theorem pure {a : α} (h : ∀ tables, pre tables → mid a tables) :
    Among allowed pre (Pure.pure a : Query SharedTables α) mid := by
  refine ⟨.of_quiet fun _ => rfl, ?_⟩
  intro s moments _ _ before
  exact h _ before

theorem bind (first : Among allowed pre q mid)
    (next : ∀ a, Among allowed (mid a) (f a) post) : Among allowed pre (q >>= f) post := by
  refine ⟨first.looks.bind fun a => (next a).looks, ?_⟩
  intro s moments passes all before
  obtain ⟨front, passes₁⟩ := first.looks s
  obtain ⟨back, passes₂⟩ := (next (q s).1).looks (q s).2
  obtain rfl := passes.unique (passes₁.trans passes₂)
  rw [editsBefore_append, allows_append] at all
  have between := first.answer s front passes₁ all.1 before
  refine (next (q s).1).answer (q s).2 back passes₂ ?_ between
  rw [passes₁.tables, passes₁.pending]
  exact all.2

theorem map {g : α → β} (h : Among allowed pre q fun a => post (g a)) :
    Among allowed pre (g <$> q) post := ⟨h.looks, h.answer⟩

/-- Where nothing can be, nothing goes wrong. -/
theorem of_false (looks : Looks q) (h : ∀ tables, ¬ pre tables) : Among allowed pre q mid := by
  refine ⟨looks, ?_⟩
  intro s moments passes all before
  exact absurd before (h _)

/-- An assertion may be made of some value that is not known beforehand. -/
theorem exists_pre {ι : Type} {pres : ι → MemoryTables → Prop} (looks : Looks q)
    (h : ∀ i, Among allowed (pres i) q mid) :
    Among allowed (fun tables => ∃ i, pres i tables) q mid := by
  refine ⟨looks, ?_⟩
  rintro s moments passes all ⟨i, before⟩
  exact (h i).answer s moments passes all before

variable [Ranked K] {field : TableField K V}

/-- A call is answered from tables in which other processes have just acted. -/
theorem look (lawful : field.Lawful) (preserved : Preserved allowed pre) {kind : CallKind}
    (answer : MemoryStore K V → α) {event : α → StoreCall K V}
    (hkind : ∀ a, (event a).kind = kind) :
    Among allowed pre (onTables (SharedTables.look field kind answer event))
      fun a tables => a = answer (field.get tables) ∧ pre tables := by
  refine ⟨.look lawful answer hkind, ?_⟩
  intro s moments passes all before
  refine ⟨rfl, ?_⟩
  rw [passes.tables]
  exact preserved.edit all before

theorem iterate (lawful : field.Lawful) (preserved : Preserved allowed pre) :
    Among allowed pre (onTables (access field).iterate)
      fun a tables => a = (field.get tables).iterate ∧ pre tables :=
  look lawful preserved _ fun _ => rfl

theorem next (lawful : field.Lawful) (preserved : Preserved allowed pre) (c : Cursor K V) :
    Among allowed pre (onTables ((access field).next c))
      fun a tables => a = (field.get tables).next c ∧ pre tables :=
  look lawful preserved _ fun _ => rfl

theorem read (lawful : field.Lawful) (preserved : Preserved allowed pre) (k : K) :
    Among allowed pre (onTables ((access field).read k))
      fun a tables => a = (field.get tables).read k ∧ pre tables :=
  look lawful preserved _ fun _ => rfl

/-- An enumeration that still has keys to visit, of which `inv` holds with what was made of the
rows before: it is carried on if the handler carries it on past the next row that is found. -/
theorem foldRows (lawful : field.Lawful) {f : β → RowResult K V → Query SharedTables β}
    {inv : List K → β → MemoryTables → Prop}
    (preserved : ∀ keys b, Preserved allowed (inv keys b))
    (finish : ∀ keys b tables, inv keys b tables →
      (∀ k ∈ keys, (field.get tables).rows.get? k = none) → post b tables)
    (step : ∀ skipped k later slot b, Among allowed
      (fun tables => inv (skipped ++ k :: later) b tables ∧
        (∀ x ∈ skipped, (field.get tables).rows.get? x = none) ∧
        (field.get tables).rows.get? k = some slot)
      (f b (slot.row k)) (inv later))
    (looks : ∀ b r, Looks (f b r)) (keys : List K) (b : β) :
    Among allowed (inv keys b) ((access field).foldRows f (keys.map .key) b) post := by
  induction hn : keys.length using Nat.strongRecOn generalizing keys b with
  | ind n ih =>
      rw [TableAccess.foldRows_eq]
      refine (next lawful (preserved keys b) _).bind fun answer => ?_
      cases answer with
      | none =>
          refine .pure fun tables ⟨ended, before⟩ => finish keys b tables before ?_
          exact Cursor.absent_of_next_eq_none ended.symm
      | some answer =>
          obtain ⟨r, rest⟩ := answer
          -- Which keys were passed over is known only when the tables are.
          have found : ∀ tables,
              some (r, rest) = (field.get tables).next (keys.map .key) ∧ inv keys b tables →
              ∃ split : List K × K × List K × Slot V,
                r = split.2.2.2.row split.2.1 ∧ rest = split.2.2.1.map .key ∧
                split.2.2.1.length < n ∧
                inv (split.1 ++ split.2.1 :: split.2.2.1) b tables ∧
                (∀ x ∈ split.1, (field.get tables).rows.get? x = none) ∧
                (field.get tables).rows.get? split.2.1 = some split.2.2.2 := by
            rintro tables ⟨delivered, before⟩
            obtain ⟨skipped, k, slot, later, rfl, absent, present, rfl, rfl⟩ :=
              Cursor.exists_of_next_eq_some delivered.symm
            refine ⟨(skipped, k, later, slot), rfl, rfl, ?_, before, absent, present⟩
            rw [List.length_append, List.length_cons] at hn
            show later.length < n
            omega
          refine mono_pre (exists_pre ?_ ?_) found
          · exact (looks b r).bind fun b' => .foldRows lawful looks rest b'
          · rintro ⟨skipped, k, later, slot⟩
            refine ⟨(looks b r).bind fun b' => .foldRows lawful looks rest b', ?_⟩
            rintro s moments passes all ⟨rfl, rfl, shorter, before⟩
            exact ((step skipped k later slot b).bind fun b' =>
              ih later.length shorter later b' rfl).answer s moments passes all before

end Among

end Query

end TrafficStats
