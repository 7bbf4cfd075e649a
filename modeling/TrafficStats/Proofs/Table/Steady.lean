import TrafficStats.Proofs.Shared.Walk
import TrafficStats.Table.Naming
import TrafficStats.Unnamed.Charge

/-!
# Tables that stay as they are

If nobody else edits the tables, and a query does not either, what it answers can be said
from their contents. `Query.Ensures` states what holds of the answer of a query as long as
a condition on the tables lasts, and that the condition does last. `TableAccess.Shows`
says what a table answers meanwhile: how it answers reads, and which rows an enumeration
delivers. Working through an enumeration then comes to working through these rows
(`Shows.foldRows`), whatever the handler does to the session besides.
-/

namespace TrafficStats

variable {σ K V α β : Type} {steady : σ → Prop}

namespace Query

/-- Asked while `steady` holds of the tables, a query gives an answer of which `post` holds,
and leaves tables of which `steady` holds. -/
def Ensures (steady : σ → Prop) (q : Query σ α) (post : α → Prop) : Prop :=
  ∀ s : Session σ, steady s.tables → post (q s).1 ∧ steady (q s).2.tables

namespace Ensures

variable {q : Query σ α} {f : α → Query σ β} {post post' : α → Prop} {goal : β → Prop}

theorem mono (h : Ensures steady q post) (weaker : ∀ a, post a → post' a) :
    Ensures steady q post' := by
  intro s hs
  obtain ⟨answer, still⟩ := h s hs
  exact ⟨weaker _ answer, still⟩

theorem pure {a : α} (h : post a) : Ensures steady (Pure.pure a : Query σ α) post :=
  fun _ hs => ⟨h, hs⟩

theorem bind (first : Ensures steady q post) (next : ∀ a, post a → Ensures steady (f a) goal) :
    Ensures steady (q >>= f) goal := by
  intro s hs
  obtain ⟨answer, still⟩ := first s hs
  rw [bind_apply]
  exact next _ answer _ still

theorem map {g : α → β} (h : Ensures steady q fun a => goal (g a)) :
    Ensures steady (g <$> q) goal := h

theorem bind_pure {a : α} (h : Ensures steady q (· = a)) (g : α → β) :
    Ensures steady (q >>= fun answer => Pure.pure (g answer)) (· = g a) := by
  apply h.bind
  rintro answer rfl
  exact .pure rfl

theorem quiet_bind (quiet : ∀ s, (q s).2.tables = s.tables)
    (next : ∀ a, Ensures steady (f a) goal) : Ensures steady (q >>= f) goal := by
  have unmoved : Ensures steady q fun _ => True := by
    intro s hs
    rw [quiet]
    exact ⟨trivial, hs⟩
  exact unmoved.bind fun a _ => next a

end Ensures

theorem tables_raise (sink : AlertSink) (alert : Alert) (s : Session σ) :
    (raise sink alert s).2.tables = s.tables := by
  cases sink <;> rfl

end Query

open Query RowResult

namespace TableAccess

/-- While `steady` holds, an enumeration delivers the given rows and then ends. -/
def Delivers (steady : σ → Prop) (table : TableAccess σ K V) :
    List (RowResult K V) → Cursor K V → Prop
  | [], c => Ensures steady (onTables (table.next c)) (· = none)
  | r :: rows, c => Ensures steady (onTables (table.next c)) fun answer =>
      ∃ rest, answer = some (r, rest) ∧ Delivers steady table rows rest

/-- What a table answers while `steady` holds: `read` to reads, and to enumerations either a
refusal or all of the given rows. -/
structure Shows (steady : σ → Prop) (table : TableAccess σ K V)
    (read : K → Except StoreError (Option V)) (rows : Except StoreError (List (RowResult K V))) :
    Prop where
  read : ∀ k, Ensures steady (onTables (table.read k)) (· = read k)
  refuses : ∀ e, rows = .error e → Ensures steady (onTables table.iterate) (· = .error e)
  delivers : ∀ delivered, rows = .ok delivered →
    Ensures steady (onTables table.iterate) fun answer =>
      ∃ c, answer = .ok c ∧ Delivers steady table delivered c

/-- An invariant of all handlers of rows, which may speak of the rows so far and of those still
to come, holds at the end of all rows. -/
theorem Delivers.foldRows_split {table : TableAccess σ K V} {f : β → RowResult K V → Query σ β}
    {rows : List (RowResult K V)} (inv : List (RowResult K V) → β → Prop)
    (step : ∀ done r later b, done ++ r :: later = rows → inv done b →
      Ensures steady (f b r) (inv (done ++ [r])))
    {later : List (RowResult K V)} {c : Cursor K V} (h : Delivers steady table later c)
    {done : List (RowResult K V)} (split : done ++ later = rows) {b : β} (hb : inv done b) :
    Ensures steady (table.foldRows f c b) (inv rows) := by
  induction later generalizing done c b with
  | nil =>
      rw [List.append_nil] at split
      rw [foldRows_eq, ← split]
      refine Ensures.bind h fun answer ended => ?_
      rw [ended]
      exact .pure hb
  | cons r later ih =>
      rw [foldRows_eq]
      refine Ensures.bind h fun answer delivered => ?_
      obtain ⟨rest, rfl, onward⟩ := delivered
      have split' : (done ++ [r]) ++ later = rows := by
        rw [List.append_assoc]
        exact split
      exact (step done r later b split hb).bind fun b' hb' => ih onward split' hb'

theorem Delivers.foldRows {table : TableAccess σ K V} {f : β → RowResult K V → Query σ β}
    (inv : List (RowResult K V) → β → Prop)
    (step : ∀ done r b, inv done b → Ensures steady (f b r) (inv (done ++ [r])))
    {rows : List (RowResult K V)} {c : Cursor K V} (h : Delivers steady table rows c)
    (done : List (RowResult K V)) {b : β} (hb : inv done b) :
    Ensures steady (table.foldRows f c b) (inv (done ++ rows)) :=
  h.foldRows_split inv (fun done r _ b _ => step done r b) rfl hb

end TableAccess

/-- The answer of a query that works through a table which shows the given rows: it reports a
refusal, and is computed from the rows otherwise. -/
def answerFrom (name : TableName) (rows : Except StoreError (List (RowResult K V)))
    (ofRows : List (RowResult K V) → α) : Except QueryError α :=
  (rows.map ofRows).mapError (QueryError.tableUnavailable name)

/-! ### Names -/

/-- The name that an answer of the table of names gives; a failed lookup gives none. -/
def NameField.named? : Except StoreError (Option NameField) → Option String
  | .ok field => field.bind name?
  | .error _ => none

namespace TableAccess.Shows

variable {names : TableAccess σ UInt32 NameField}
variable {read : UInt32 → Except StoreError (Option NameField)}
variable {rows : Except StoreError (List (RowResult UInt32 NameField))}

theorem resolve (h : names.Shows steady read rows) (ifaceIndex : UInt32) :
    Ensures steady (names.resolve ifaceIndex) (· = NameField.named? (read ifaceIndex)) := by
  refine (h.read ifaceIndex).bind fun answer eq => ?_
  rw [eq]
  cases read ifaceIndex with
  | ok field => exact .pure rfl
  | error e => exact .quiet_bind (fun _ => rfl) fun _ => .pure rfl

end TableAccess.Shows

namespace NameMemo

/-- Every name that is remembered is the present one. -/
def Agrees (memo : NameMemo) (name? : UInt32 → Option String) : Prop :=
  ∀ ifaceIndex remembered, memo.lookup ifaceIndex = some remembered →
    remembered = name? ifaceIndex

theorem agrees_nil (name? : UInt32 → Option String) : Agrees [] name? := by
  intro ifaceIndex remembered found
  cases found

theorem Agrees.cons {memo : NameMemo} {name? : UInt32 → Option String}
    (h : memo.Agrees name?) (ifaceIndex : UInt32) :
    Agrees ((ifaceIndex, name? ifaceIndex) :: memo) name? := by
  intro other remembered found
  rw [List.lookup_cons] at found
  split at found
  · rename_i same
    cases found
    rw [eq_of_beq same]
  · exact h other remembered found

/-- A memo of present names answers with the present name and goes on to agree. -/
theorem Agrees.ensures_resolve {memo : NameMemo} {name? : UInt32 → Option String}
    {names : TableAccess σ UInt32 NameField} (h : memo.Agrees name?) {ifaceIndex : UInt32}
    (looked : Ensures steady (names.resolve ifaceIndex) (· = name? ifaceIndex)) :
    Ensures steady (memo.resolve names ifaceIndex) fun answer =>
      answer.1 = name? ifaceIndex ∧ answer.2.Agrees name? := by
  unfold resolve
  split
  · rename_i remembered found
    exact .pure ⟨h ifaceIndex remembered found, h⟩
  · refine looked.bind fun name eq => ?_
    rw [eq]
    exact .pure ⟨rfl, h.cons ifaceIndex⟩

end NameMemo

/-! ### Trackers -/

namespace Tracker

theorem tables_record (t : Tracker) (ifaceIndex : UInt32) (bytes : Int64) (s : Session σ) :
    (t.record ifaceIndex bytes s).2.tables = s.tables := by
  simp only [record, deliver, bind_apply]
  cases (t.add ifaceIndex bytes).2 with
  | none => rfl
  | some alert => exact tables_raise _ alert _

theorem ensures_record (t : Tracker) (ifaceIndex : UInt32) (bytes : Int64) :
    Ensures steady (t.record ifaceIndex bytes) fun _ => True := by
  intro s hs
  rw [tables_record]
  exact ⟨trivial, hs⟩

/-- Charging a row leaves the tables as they are. -/
theorem ensures_recordRow (t : Tracker) (ifaceIndex : UInt32)
    {table : TableAccess σ K RawCounters} {read : K → Except StoreError (Option RawCounters)}
    {rows : Except StoreError (List (RowResult K RawCounters))} (h : table.Shows steady read rows)
    (rowId : K → RowId) (k : K) :
    Ensures steady (t.recordRow ifaceIndex table rowId k) fun _ => True := by
  have skipped : Ensures steady (t.skipRow ifaceIndex (rowId k) : Query σ Tracker)
      fun _ => True := .quiet_bind (fun _ => rfl) fun _ => .pure trivial
  unfold recordRow
  split
  · exact skipped
  · refine (h.read k).bind fun answer _ => ?_
    match answer with
    | .ok none => exact skipped
    | .error _ => exact skipped
    | .ok (some raw) =>
        refine .quiet_bind (fun _ => rfl) fun _ => ?_
        simp only
        split
        · exact ensures_record _ _ _
        · exact .pure trivial

end Tracker

end TrafficStats
