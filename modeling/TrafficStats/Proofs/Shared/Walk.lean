import TrafficStats.Shared.Access

/-!
# Walks over shared tables

An enumeration of a shared table fixes its keys when it starts and looks each of them up
in the table as it is by then. `TableField.Walk` records what such an enumeration went
through: the moments of its steps and the rows that they delivered. Nothing is assumed
about the edits between the steps.

`foldRows_walk` ties this record to the loop that works through an enumeration. What can
be said of every walk follows by induction on the record: the delivered keys are the
given keys in their order without repetitions, a row that is there at every step is
delivered, and a delivered row was there when its turn came.
-/

namespace TrafficStats

variable {K V β : Type}

namespace Cursor

variable {slot? : K → Option (Slot V)} {keys : List K} {r : RowResult K V} {rest : Cursor K V}

/-- An enumeration that still has keys to visit is at its end if none of them has a row. -/
theorem absent_of_next_eq_none (h : next slot? (keys.map .key) = none) :
    ∀ k ∈ keys, slot? k = none := by
  induction keys with
  | nil => simp
  | cons k keys ih =>
      rw [List.map_cons, next] at h
      cases hk : slot? k with
      | some slot => simp [hk] at h
      | none =>
          simp only [hk] at h
          intro x hx
          rcases List.mem_cons.mp hx with rfl | hx
          · exact hk
          · exact ih h x hx

/-- A step passes by the keys without a row and delivers the first row that it finds. -/
theorem exists_of_next_eq_some (h : next slot? (keys.map .key) = some (r, rest)) :
    ∃ skipped k slot later, keys = skipped ++ k :: later ∧ (∀ x ∈ skipped, slot? x = none) ∧
      slot? k = some slot ∧ r = slot.row k ∧ rest = later.map .key := by
  induction keys with
  | nil => cases h
  | cons k keys ih =>
      rw [List.map_cons, next] at h
      cases hk : slot? k with
      | some slot =>
          simp only [hk, Option.some.injEq, Prod.mk.injEq] at h
          exact ⟨[], k, slot, keys, rfl, by simp, hk, h.1.symm, h.2.symm⟩
      | none =>
          simp only [hk] at h
          obtain ⟨skipped, k', slot, later, rfl, absent, found, delivered, remaining⟩ := ih h
          refine ⟨k :: skipped, k', slot, later, rfl, ?_, found, delivered, remaining⟩
          intro x hx
          rcases List.mem_cons.mp hx with rfl | hx
          · exact hk
          · exact absent x hx

end Cursor

namespace RowResult

def readable (rows : List (RowResult K V)) : List (K × V) :=
  rows.filterMap Except.toOption

def unreadable (rows : List (RowResult K V)) : Nat :=
  rows.countP fun r => r.toOption.isNone

@[simp] theorem readable_nil : readable ([] : List (RowResult K V)) = [] := rfl

@[simp] theorem unreadable_nil : unreadable ([] : List (RowResult K V)) = 0 := rfl

@[simp] theorem readable_cons_ok (row : K × V) (rows : List (RowResult K V)) :
    readable (.ok row :: rows) = row :: readable rows := rfl

@[simp] theorem readable_cons_error (e : RowError) (rows : List (RowResult K V)) :
    readable (.error e :: rows) = readable rows := rfl

@[simp] theorem unreadable_cons_ok (row : K × V) (rows : List (RowResult K V)) :
    unreadable (.ok row :: rows) = unreadable rows := rfl

@[simp] theorem unreadable_cons_error (e : RowError) (rows : List (RowResult K V)) :
    unreadable (.error e :: rows) = unreadable rows + 1 := by
  rw [unreadable, unreadable, List.countP_cons_of_pos rfl]

@[simp] theorem readable_append (rows more : List (RowResult K V)) :
    readable (rows ++ more) = readable rows ++ readable more :=
  List.filterMap_append

@[simp] theorem unreadable_append (rows more : List (RowResult K V)) :
    unreadable (rows ++ more) = unreadable rows + unreadable more :=
  List.countP_append

/-- Every row could be read or could not. -/
theorem length_readable_add (rows : List (RowResult K V)) :
    (readable rows).length + unreadable rows = rows.length := by
  induction rows with
  | nil => rfl
  | cons r rows ih =>
      rw [List.length_cons, ← ih]
      cases r with
      | error e => rw [readable_cons_error, unreadable_cons_error, Nat.add_assoc]
      | ok row => rw [readable_cons_ok, unreadable_cons_ok, List.length_cons, Nat.add_right_comm]

theorem mem_readable {rows : List (RowResult K V)} {row : K × V} :
    row ∈ readable rows ↔ .ok row ∈ rows := by
  simp only [readable, List.mem_filterMap]
  constructor
  · rintro ⟨r, hr, h⟩
    cases r with
    | error e => cases h
    | ok row' =>
        cases h
        exact hr
  · intro h
    exact ⟨.ok row, h, rfl⟩

theorem unreadable_eq_zero_iff {rows : List (RowResult K V)} :
    unreadable rows = 0 ↔ ∀ e, .error e ∉ rows := by
  rw [unreadable, List.countP_eq_zero]
  constructor
  · intro h e he
    exact h _ he rfl
  · intro h r hr
    cases r with
    | error e => exact absurd hr (h e)
    | ok row => simp [Except.toOption]

@[simp] theorem readable_map_ok (rows : List (K × V)) : readable (rows.map Except.ok) = rows := by
  rw [readable, List.filterMap_map]
  exact List.filterMap_some

@[simp] theorem unreadable_map_ok (rows : List (K × V)) :
    unreadable (rows.map Except.ok) = 0 := by
  rw [unreadable_eq_zero_iff]
  intro e failed
  obtain ⟨row, -, impossible⟩ := List.mem_map.mp failed
  cases impossible

end RowResult

variable [Ranked K]

theorem nodup_of_increasing {keys : List K} (h : keys.Pairwise fun a b => rank a < rank b) :
    keys.Nodup := by
  refine h.imp ?_
  rintro a b less rfl
  exact Nat.lt_irrefl _ less

namespace TableField

open RowResult

/-- `field.Walk keys moments rows` holds if an enumeration that still had `keys` to visit
could go through the given moments and deliver the given rows. The last moment is the
one in which it found its end. -/
inductive Walk (field : TableField K V) :
    List K → List Moment → List (RowResult K V) → Prop
  | finish {keys : List K} {tables : MemoryTables}
      (absent : ∀ k ∈ keys, (field.get tables).rows.get? k = none) :
      Walk field keys [⟨tables, field.event (.next none)⟩] []
  | step {skipped later : List K} {k : K} {slot : Slot V} {tables : MemoryTables}
      {moments : List Moment} {rows : List (RowResult K V)}
      (absent : ∀ x ∈ skipped, (field.get tables).rows.get? x = none)
      (found : (field.get tables).rows.get? k = some slot)
      (rest : Walk field later moments rows) :
      Walk field (skipped ++ k :: later)
        (⟨tables, field.event (.next (some (slot.row k)))⟩ :: moments) (slot.row k :: rows)

namespace Walk

variable {field : TableField K V} {keys : List K} {moments : List Moment}
variable {rows : List (RowResult K V)}

/-- The keys of the readable rows come from the given keys, in their order. -/
theorem readable_sublist (h : field.Walk keys moments rows) :
    ((readable rows).map Prod.fst).Sublist keys := by
  induction h with
  | finish => simp [readable]
  | @step skipped later k slot _ _ _ _ _ _ ih =>
      have tail := List.Sublist.trans ih (List.sublist_cons_self k later)
      have whole := List.sublist_append_right skipped (k :: later)
      cases slot with
      | malformed reason => exact tail.trans whole
      | live v => exact (ih.cons_cons k).trans whole

/-- Of strictly increasing keys none is delivered twice. -/
theorem readable_nodup (h : field.Walk keys moments rows)
    (sorted : keys.Pairwise fun a b => rank a < rank b) :
    ((readable rows).map Prod.fst).Nodup :=
  nodup_of_increasing (sorted.sublist h.readable_sublist)

/-- A row that is there and readable at every step is delivered, with the value that it has
when its turn comes. -/
theorem exists_ok_of_present (h : field.Walk keys moments rows) {k : K} (hk : k ∈ keys)
    (present : ∀ m ∈ moments, ∃ v, (field.get m.tables).rows.get? k = some (.live v)) :
    ∃ v, .ok (k, v) ∈ rows := by
  induction h with
  | finish absent =>
      obtain ⟨v, hv⟩ := present _ List.mem_cons_self
      rw [absent k hk] at hv
      cases hv
  | @step skipped later k' slot _ _ _ absent found _ ih =>
      obtain ⟨v, hv⟩ := present _ List.mem_cons_self
      rcases List.mem_append.mp hk with hk | hk
      · rw [absent k hk] at hv
        cases hv
      · rcases List.mem_cons.mp hk with rfl | hk
        · rw [found] at hv
          cases hv
          exact ⟨v, List.mem_cons_self⟩
        · obtain ⟨w, hw⟩ := ih hk fun m hm => present m (List.mem_cons_of_mem _ hm)
          exact ⟨w, List.mem_cons_of_mem _ hw⟩

/-- A delivered row was in the table at the step that delivered it. -/
theorem exists_moment_of_ok (h : field.Walk keys moments rows) {k : K} {v : V}
    (hr : .ok (k, v) ∈ rows) :
    ∃ m ∈ moments, (field.get m.tables).rows.get? k = some (.live v) := by
  induction h with
  | finish => cases hr
  | @step skipped later k' slot tables moments rows absent found rest ih =>
      rcases List.mem_cons.mp hr with hr | hr
      · cases slot with
        | malformed reason => cases hr
        | live w =>
            cases hr
            exact ⟨_, List.mem_cons_self, found⟩
      · obtain ⟨m, hm, present⟩ := ih hr
        exact ⟨m, List.mem_cons_of_mem _ hm, present⟩

/-- The moments of a walk are steps of an enumeration of its table. -/
theorem exists_event (h : field.Walk keys moments rows) :
    ∀ m ∈ moments, ∃ answer, m.call = field.event (.next answer) := by
  induction h with
  | finish =>
      intro m hm
      rw [List.mem_singleton.mp hm]
      exact ⟨none, rfl⟩
  | step _ _ _ ih =>
      intro m hm
      rcases List.mem_cons.mp hm with rfl | hm
      · exact ⟨_, rfl⟩
      · exact ih m hm

/-- The rows of a walk can be read off its moments. -/
theorem filterMap_moments (h : field.Walk keys moments rows)
    {row? : Moment → Option (RowResult K V)}
    (hrow : ∀ tables answer, row? ⟨tables, field.event (.next answer)⟩ = answer) :
    moments.filterMap row? = rows := by
  induction h with
  | finish => simp [hrow]
  | step _ _ _ ih => simp [hrow, ih]

/-- What no step of an enumeration tells is not found in a walk. -/
theorem filterMap_moments_eq_nil {α : Type} (h : field.Walk keys moments rows)
    {told? : Moment → Option α}
    (hnone : ∀ tables answer, told? ⟨tables, field.event (.next answer)⟩ = none) :
    moments.filterMap told? = [] := by
  induction h with
  | finish => simp [hnone]
  | step _ _ _ ih => simp [hnone, ih]

end Walk

/-- A history has an enumeration of a table that was walked to its end: it took the keys of the
moment in which it started, and its steps delivered the given rows. -/
def Enumerated (field : TableField K V) (history : List Moment) (rows : List (RowResult K V)) :
    Prop :=
  ∃ tables moments, field.Walk (field.get tables).rows.keys moments rows ∧
    (⟨tables, field.event (.iterate (.ok ()))⟩ :: moments).Sublist history

/-- A history has the beginning of an enumeration, and `c` is what is left of it: whichever way
the rest of the walk takes, it is the rest of that enumeration. -/
def WalkedTo (field : TableField K V) (history : List Moment) (rows : List (RowResult K V))
    (c : Cursor K V) : Prop :=
  ∃ tables moments keys, c = keys.map Pending.key ∧
    (⟨tables, field.event (.iterate (.ok ()))⟩ :: moments).Sublist history ∧
    ∀ later more, field.Walk keys later more →
      field.Walk (field.get tables).rows.keys (moments ++ later) (rows ++ more)

variable {field : TableField K V} {history more : List Moment} {rows : List (RowResult K V)}
variable {c rest : Cursor K V} {r : RowResult K V} {tables : MemoryTables}

theorem Enumerated.mono (h : field.Enumerated history rows) (part : history.Sublist more) :
    field.Enumerated more rows := by
  obtain ⟨tables, moments, walk, told⟩ := h
  exact ⟨tables, moments, walk, told.trans part⟩

namespace WalkedTo

theorem start (answered : (field.get tables).iterate = .ok c) :
    field.WalkedTo [⟨tables, field.event (.iterate (.ok ()))⟩] [] c :=
  ⟨tables, [], _, MemoryStore.eq_keys_of_iterate answered, List.Sublist.refl _, fun _ _ => id⟩

theorem append (h : field.WalkedTo history rows c) (more : List Moment) :
    field.WalkedTo (history ++ more) rows c := by
  obtain ⟨tables, moments, keys, eq, told, rest⟩ := h
  exact ⟨tables, moments, keys, eq, told.trans (List.sublist_append_left history more), rest⟩

theorem step (h : field.WalkedTo history rows c)
    (delivered : (field.get tables).next c = some (r, rest)) :
    field.WalkedTo (history ++ [⟨tables, field.event (.next (some r))⟩]) (rows ++ [r]) rest := by
  obtain ⟨first, moments, keys, rfl, told, walks⟩ := h
  obtain ⟨skipped, k, slot, later, rfl, absent, found, rfl, rfl⟩ :=
    Cursor.exists_of_next_eq_some delivered
  refine ⟨first, moments ++ [_], later, rfl, told.append (List.Sublist.refl _), ?_⟩
  intro moments' more walk
  rw [List.append_assoc, List.append_assoc]
  exact walks _ _ (.step absent found walk)

theorem finish (h : field.WalkedTo history rows c)
    (ended : (field.get tables).next c = none) :
    field.Enumerated (history ++ [⟨tables, field.event (.next none)⟩]) rows := by
  obtain ⟨first, moments, keys, rfl, told, walks⟩ := h
  refine ⟨first, moments ++ [_], ?_, told.append (List.Sublist.refl _)⟩
  have whole := walks _ _ (.finish (Cursor.absent_of_next_eq_none ended))
  rwa [List.append_nil] at whole

end WalkedTo

end TableField

namespace SharedTables

open TableField

/-- A handler of rows that looks at no table: what it makes of a row is a function of what it
had before, and at most the log tells that it ran. -/
def Handles (f : β → RowResult K V → Query SharedTables β) (g : β → RowResult K V → β) : Prop :=
  ∀ b r s, (f b r s).1 = g b r ∧ (f b r s).2.tables = s.tables

/-- The tables as a call finds them. -/
def atCall (field : TableField K V) (kind : CallKind) (s : Session SharedTables) :
    MemoryTables :=
  (s.tables.before field.name kind).tables

/-- The session after a call that left the given tables behind. -/
def afterCall (field : TableField K V) (kind : CallKind) (s : Session SharedTables)
    (event : StoreCall K V) (tables : MemoryTables) : Session SharedTables :=
  { s with tables :=
    { s.tables.before field.name kind with
      tables
      history := s.tables.history.push ⟨atCall field kind s, field.event event⟩ } }

theorem iterate_apply (field : TableField K V) (s : Session SharedTables) :
    Query.onTables (access field).iterate s =
      ((field.get (atCall field .iterate s)).iterate,
        afterCall field .iterate s
          (.iterate ((field.get (atCall field .iterate s)).iterate.map fun _ => ()))
          (atCall field .iterate s)) := rfl

theorem next_apply (field : TableField K V) (c : Cursor K V) (s : Session SharedTables) :
    Query.onTables ((access field).next c) s =
      ((field.get (atCall field .next s)).next c,
        afterCall field .next s
          (.next (((field.get (atCall field .next s)).next c).map Prod.fst))
          (atCall field .next s)) := rfl

theorem delete_apply (field : TableField K V) (k : K) (s : Session SharedTables) :
    Query.onTables ((access field).delete k) s =
      (((field.get (atCall field .delete s)).delete k).1,
        afterCall field .delete s
          (.delete k ((field.get (atCall field .delete s)).delete k).1)
          (field.set (atCall field .delete s)
            ((field.get (atCall field .delete s)).delete k).2)) := rfl

/-- Every call goes into the history, with the tables as it found them. -/
theorem history_afterCall (field : TableField K V) (kind : CallKind)
    (s : Session SharedTables) (event : StoreCall K V) (tables : MemoryTables) :
    (afterCall field kind s event tables).tables.history.toList =
      s.tables.history.toList ++ [⟨atCall field kind s, field.event event⟩] := by
  change (Array.push _ _).toList = _
  rw [Array.toList_push]

/-- An enumeration that is started either is refused or has all keys of that moment to
visit. -/
theorem iterate_cases (field : TableField K V) (s : Session SharedTables) :
    ∃ (tables : MemoryTables) (s' : Session SharedTables),
      (∃ cause, Query.onTables (access field).iterate s = (.error cause, s') ∧
        s'.tables.history.toList = s.tables.history.toList ++
          [⟨tables, field.event (.iterate (.error cause))⟩]) ∨
      (Query.onTables (access field).iterate s =
          (.ok ((field.get tables).rows.keys.map .key), s') ∧
        s'.tables.history.toList = s.tables.history.toList ++
          [⟨tables, field.event (.iterate (.ok ()))⟩]) := by
  refine ⟨atCall field .iterate s, (Query.onTables (access field).iterate s).2, ?_⟩
  rw [iterate_apply]
  cases h : (field.get (atCall field .iterate s)).iterate with
  | error cause => exact .inl ⟨cause, rfl, history_afterCall ..⟩
  | ok cursor =>
      cases MemoryStore.eq_keys_of_iterate h
      exact .inr ⟨rfl, history_afterCall ..⟩

/-- Working through an enumeration of a shared table is a walk over the keys that it still has
to visit, whatever edits are made on the way; the walk goes into the history, and the
handler sees its rows in their order. -/
theorem foldRows_walk (field : TableField K V) {f : β → RowResult K V → Query SharedTables β}
    {g : β → RowResult K V → β} (hf : Handles f g) (keys : List K) (b : β)
    (s : Session SharedTables) :
    ∃ moments rows, field.Walk keys moments rows ∧
      ((access field).foldRows f (keys.map .key) b s).1 = rows.foldl g b ∧
      ((access field).foldRows f (keys.map .key) b s).2.tables.history.toList =
        s.tables.history.toList ++ moments := by
  induction hn : keys.length using Nat.strongRecOn generalizing keys b s with
  | ind n ih =>
      rw [TableAccess.foldRows_eq, Query.bind_apply, next_apply]
      cases hnext : (field.get (atCall field .next s)).next (keys.map .key) with
      | none =>
          exact ⟨[⟨atCall field .next s, field.event (.next none)⟩], [],
            .finish (Cursor.absent_of_next_eq_none hnext), rfl, history_afterCall ..⟩
      | some answer =>
          obtain ⟨r, rest⟩ := answer
          obtain ⟨skipped, k, slot, later, rfl, absent, found, rfl, rfl⟩ :=
            Cursor.exists_of_next_eq_some hnext
          simp only [Option.map_some, Query.bind_apply]
          generalize hs' : afterCall field .next s (.next (some (slot.row k)))
            (atCall field .next s) = s'
          obtain ⟨value, frame⟩ := hf b (slot.row k) s'
          obtain ⟨moments, rows, walk, result, history⟩ :=
            ih later.length (by simp only [List.length_append, List.length_cons] at hn; omega)
              later (g b (slot.row k)) (f b (slot.row k) s').2 rfl
          rw [value]
          refine ⟨_, _, .step absent found walk, result, history.trans ?_⟩
          rw [frame, ← hs', history_afterCall, List.append_assoc]
          rfl

end SharedTables

end TrafficStats
