import TrafficStats.Proofs.Report.Rows
import TrafficStats.Proofs.Report.Steps

/-!
# The rows that a report leaves out

The unnamed rows of a table that stays as it is are charged to the tracker of the reading, one
after the other, and nothing else is (`leaves_read`). What this comes to is a function of the
tracker and the rows: `CounterTable.chargeAll`.
-/

namespace TrafficStats

variable {σ ω K : Type} {steady : σ → Prop}

open Query RowResult

namespace CounterTable

/-- The rows that can be read, but whose interface has no name. -/
def hidden (source : CounterTable σ K) (name? : UInt32 → Option String)
    (rows : List (K × RawCounters)) : List (K × RawCounters) :=
  rows.filter fun row => (name? (source.ifaceIndex row.1)).isNone

/-- What charging a row does to a tracker if the row is still as it is given, and the calls that
tell of it. -/
def charge (source : CounterTable σ K) (t : Tracker) (row : K × RawCounters) :
    Tracker × List TrackerCall :=
  t.charge (source.ifaceIndex row.1) (source.rowId row.1)
    (if t.state = .suppressed then none else some row.2)

/-- What charging rows one after the other does. -/
def chargeAll (source : CounterTable σ K) (t : Tracker) :
    List (K × RawCounters) → Tracker × List TrackerCall
  | [] => (t, [])
  | row :: rows =>
    let first := source.charge t row
    let later := chargeAll source first.1 rows
    (later.1, first.2 ++ later.2)

variable (source : CounterTable σ K) (name? : UInt32 → Option String) (t : Tracker)
variable (rows : List (K × RawCounters)) (row : K × RawCounters)

theorem hidden_concat_named {iface : String} (h : name? (source.ifaceIndex row.1) = some iface) :
    source.hidden name? (rows ++ [row]) = source.hidden name? rows := by
  simp [hidden, h]

theorem hidden_concat_unnamed (h : name? (source.ifaceIndex row.1) = none) :
    source.hidden name? (rows ++ [row]) = source.hidden name? rows ++ [row] := by
  simp [hidden, h]

theorem chargeAll_concat :
    source.chargeAll t (rows ++ [row]) =
      ((source.charge (source.chargeAll t rows).1 row).1,
        (source.chargeAll t rows).2 ++ (source.charge (source.chargeAll t rows).1 row).2) := by
  induction rows generalizing t with
  | nil => simp [chargeAll]
  | cons first rows ih => simp only [List.cons_append, chargeAll, ih, List.append_assoc]

end CounterTable

/-! ### The rows that were handed to a tracker -/

namespace TrackerCall

/-- The row that was handed to a tracker in a call, with the index of its interface. -/
def handed? : TrackerCall → Option (UInt32 × RowId)
  | .row ifaceIndex rowId _ => some (ifaceIndex, rowId)
  | .record .. => none

def handed (calls : List TrackerCall) : List (UInt32 × RowId) :=
  calls.filterMap handed?

theorem handed_append (calls more : List TrackerCall) :
    handed (calls ++ more) = handed calls ++ handed more :=
  List.filterMap_append

theorem handed_charge (t : Tracker) (ifaceIndex : UInt32) (rowId : RowId)
    (reading : Option RawCounters) :
    handed (t.charge ifaceIndex rowId reading).2 = [(ifaceIndex, rowId)] := by
  cases reading with
  | none => rfl
  | some raw =>
      simp only [Tracker.charge]
      split <;> rfl

theorem handed_chargeAll (source : CounterTable σ K) (t : Tracker)
    (rows : List (K × RawCounters)) :
    handed (source.chargeAll t rows).2 =
      rows.map fun row => (source.ifaceIndex row.1, source.rowId row.1) := by
  induction rows generalizing t with
  | nil => rfl
  | cons row rows ih =>
      rw [CounterTable.chargeAll, handed_append, ih, CounterTable.charge, handed_charge]
      rfl

end TrackerCall

/-! ### Reading -/

/-- A memo of present names comes by the present name. -/
theorem NameMemo.Looked.agrees {name? : UInt32 → Option String} {memo memo' : NameMemo}
    {ifaceIndex : UInt32} {name : Option String} {moments : List ω}
    (h : Looked (fun i name (_ : List ω) => name = name? i) memo ifaceIndex name memo' moments)
    (agrees : memo.Agrees name?) : name = name? ifaceIndex ∧ memo'.Agrees name? := by
  cases h with
  | remembered known => exact ⟨agrees _ _ known, agrees⟩
  | asked new answered =>
      subst answered
      exact ⟨rfl, agrees.cons ifaceIndex⟩

/-- A row that is still there is charged with its counters. -/
theorem Tracker.Reread.eq_of_there {state : TrackerState} {reading : Option RawCounters}
    {raw : RawCounters} {moments : List ω}
    (h : Reread (fun answer (_ : List ω) => answer = .ok (some raw)) state reading moments) :
    reading = if state = .suppressed then none else some raw := by
  cases h with
  | silent suppressed => rw [if_pos suppressed]
  | answered active read =>
      rw [if_neg active, read]
      rfl

namespace CounterTable

variable (source : CounterTable σ K)

theorem leaves_charge {row : K × RawCounters} (there : Ensures steady
      (onTables (source.access.read row.1)) (· = .ok (some row.2))) (t : Tracker) :
    Leaves (fun _ => ([] : List ω)) steady
      (t.recordRow (source.ifaceIndex row.1) source.access source.rowId row.1)
      fun t' _ calls => (t', calls) = source.charge t row := by
  have reads := Leaves.of_ensures (ω := ω) there (.onTables _)
  have reads' : Leaves (fun _ => ([] : List ω)) steady (onTables (source.access.read row.1))
      fun answer moments calls => calls = [] ∧
        (fun answer (_ : List ω) => answer = .ok (some row.2)) answer moments := reads
  refine (t.leaves_recordRow (source.ifaceIndex row.1) reads' source.rowId).mono ?_
  rintro t' moments calls ⟨reading, reread, charged⟩
  rw [charged, reread.eq_of_there]
  rfl

/-- Applying the charge of a row to rows that are still there, one after the other. -/
theorem leaves_foldlM_charge {rows : List (K × RawCounters)}
    (there : ∀ row ∈ rows, Ensures steady (onTables (source.access.read row.1))
      (· = .ok (some row.2))) (t : Tracker) :
    Leaves (fun _ => ([] : List ω)) steady
      (rows.foldlM (fun t row =>
        t.recordRow (source.ifaceIndex row.1) source.access source.rowId row.1) t)
      fun t' _ calls => (t', calls) = source.chargeAll t rows := by
  induction rows generalizing t with
  | nil => exact .pure rfl
  | cons row rows ih =>
      rw [List.foldlM_cons]
      refine (source.leaves_charge (there row List.mem_cons_self) t).bind ?_
      intro t' _ calls charged
      refine (ih (fun other h => there other (List.mem_cons_of_mem _ h)) t').mono ?_
      intro t'' _ calls' later
      rw [chargeAll, ← charged, ← later]

end CounterTable

namespace Report

variable {source : CounterTable σ K} {names : TableAccess σ UInt32 NameField}
variable {read : K → Except StoreError (Option RawCounters)}
variable {rows : List (RowResult K RawCounters)} {name? : UInt32 → Option String}

/-- The unnamed rows until now were charged, and nothing else was. -/
structure ChargedInOrder (source : CounterTable σ K) (name? : UInt32 → Option String) (t : Tracker)
    (done : List (RowResult K RawCounters)) (p : Progress) (calls : List TrackerCall) :
    Prop where
  memo : p.memo.Agrees name?
  charged : (p.tracker, calls) = source.chargeAll t (source.hidden name? (readable done))

theorem RowTaken.charges {t : Tracker} {done : List (RowResult K RawCounters)} {p p' : Progress}
    {r : RowResult K RawCounters} {moments : List ω} {calls calls' : List TrackerCall}
    (h : RowTaken source (fun i name (_ : List ω) => name = name? i)
      (fun k answer (_ : List ω) => answer = read k) p r p' moments calls')
    (present : ∀ row, r = .ok row → read row.1 = .ok (some row.2))
    (before : ChargedInOrder source name? t done p calls) :
    ChargedInOrder source name? t (done ++ [r]) p' (calls ++ calls') := by
  obtain ⟨memo, charged⟩ := before
  rw [Prod.ext_iff] at charged
  obtain ⟨tracker, traced⟩ := charged
  cases h with
  | unreadable e =>
      refine ⟨memo, ?_⟩
      rw [readable_append, readable_cons_error, readable_nil, List.append_nil, List.append_nil]
      exact Prod.ext tracker traced
  | @reported k raw iface memo' moments looked =>
      obtain ⟨name, memo'⟩ := looked.agrees memo
      refine ⟨memo', ?_⟩
      rw [readable_append, readable_cons_ok, readable_nil,
        source.hidden_concat_named name? _ (k, raw) name.symm, List.append_nil]
      exact Prod.ext tracker traced
  | @charged k raw memo' reading tracker' calls' moments moments' looked reread charge =>
      obtain ⟨name, memo'⟩ := looked.agrees memo
      have read := present (k, raw) rfl
      simp only [read] at reread
      refine ⟨memo', ?_⟩
      rw [readable_append, readable_cons_ok, readable_nil,
        source.hidden_concat_unnamed name? _ (k, raw) name.symm, CounterTable.chargeAll_concat,
        ← tracker, ← traced, CounterTable.charge, ← reread.eq_of_there, ← charge]

/-- The unnamed rows until now were charged, and the enumeration still delivers the others. -/
def ChargedAhead (steady : σ → Prop) (source : CounterTable σ K) (name? : UInt32 → Option String)
    (rows : List (RowResult K RawCounters)) (t : Tracker) (c : Cursor K RawCounters)
    (p : Progress) (calls : List TrackerCall) : Prop :=
  ∃ done later, done ++ later = rows ∧ source.access.Delivers steady later c ∧
    ChargedInOrder source name? t done p calls

/-- At the next step of the enumeration either all rows were charged, or the next one is delivered
and charged if it has to be. -/
theorem ChargedAhead.step (shows : source.access.Shows steady read (.ok rows))
    (present : ∀ row ∈ readable rows, read row.1 = .ok (some row.2))
    (named : ∀ i, Ensures steady (names.resolve i) (· = name? i)) {t : Tracker}
    {c : Cursor K RawCounters} {p : Progress} {calls : List TrackerCall}
    (before : ChargedAhead steady source name? rows t c p calls) :
    Leaves (fun _ => ([] : List ω)) steady (onTables (source.access.next c))
      fun answer _ calls' =>
        (answer = none → (p.tracker, calls ++ calls') =
          source.chargeAll t (source.hidden name? (readable rows))) ∧
        ∀ r rest, answer = some (r, rest) →
          Leaves (fun _ => ([] : List ω)) steady (readRow source names p r) fun p' _ calls'' =>
            ChargedAhead steady source name? rows t rest p' (calls ++ calls' ++ calls'') := by
  obtain ⟨done, later, split, delivers, charged⟩ := before
  cases later with
  | nil =>
      rw [List.append_nil] at split
      refine (Leaves.of_ensures delivers (.onTables _)).mono ?_
      rintro _ moments _ ⟨rfl, rfl⟩
      refine ⟨fun _ => ?_, nofun⟩
      rw [List.append_nil, charged.charged, split]
  | cons r later =>
      refine (Leaves.of_ensures delivers (.onTables _)).mono ?_
      rintro _ moments _ ⟨rfl, rest, rfl, onward⟩
      refine ⟨nofun, ?_⟩
      rintro r rest answered
      cases answered
      have there : ∀ row, r = .ok row → read row.1 = .ok (some row.2) := by
        rintro row rfl
        apply present row
        rw [mem_readable, ← split]
        exact List.mem_append_right _ List.mem_cons_self
      have split' : (done ++ [r]) ++ later = rows := by
        rw [List.append_assoc]
        exact split
      have taken := leaves_readRow (ω := ω) (fun i => .of_ensures (named i) (.resolve names i))
        (fun k => .of_ensures (shows.read k) (.onTables _)) p r
      refine taken.mono ?_
      intro p' moments' calls' taken
      rw [List.append_nil]
      exact ⟨done ++ [r], later, split', onward, taken.charges there charged⟩

/-- Reading the report of a table that stays as it is charges the unnamed rows in their order. -/
theorem leaves_read (shows : source.access.Shows steady read (.ok rows))
    (present : ∀ row ∈ readable rows, read row.1 = .ok (some row.2))
    (named : ∀ i, Ensures steady (names.resolve i) (· = name? i)) (t : Tracker) :
    Leaves (fun _ => ([] : List ω)) steady (Report.read source names t) fun outcome _ calls =>
      (outcome.2, calls) = source.chargeAll t (source.hidden name? (readable rows)) := by
  refine (Leaves.of_ensures (shows.delivers rows rfl) (.onTables _)).bind ?_
  rintro answer moments _ ⟨rfl, c, rfl, delivers⟩
  have start : ChargedAhead steady source name? rows t c ⟨[], #[], 0, t⟩ [] :=
    ⟨[], rows, rfl, delivers, NameMemo.agrees_nil name?, rfl⟩
  refine (Leaves.foldRows (fun c p _ calls => ChargedAhead steady source name? rows t c p calls)
    (fun p _ calls => (p.tracker, calls) =
      source.chargeAll t (source.hidden name? (readable rows)))
    (fun _ _ _ _ => ChargedAhead.step shows present named) moments [] start).bind ?_
  intro p moments' calls charged
  refine (leaves_finish p).mono ?_
  rintro _ _ _ ⟨rfl, rfl, rfl⟩
  rw [List.append_nil]
  exact charged

end Report

end TrafficStats
