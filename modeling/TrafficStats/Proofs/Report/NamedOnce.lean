import Mathlib.Control.Monad.Basic
import TrafficStats.Accounting
import TrafficStats.Proofs.Cleanup.Stages
import TrafficStats.Proofs.Report.Hidden

/-!
# One name for each index

While a report is read, other processes may write and remove the names of interfaces. A reading
takes no notice of it: it asks for the name of an index when it comes to the first row of it, and
abides by the answer until it ends, whether that was a name or not
(`readings_nameIndicesOnce`). The invariant is that the memo knows just the indices of the rows
until now, and that whatever names agree with the memo explain all that was done. Beside it, the
rows until now are kept as the beginning of a walk, so that those of a report are the rows of a
whole one.
-/

namespace TrafficStats

open Query RowResult SharedTables TrackerCall

variable {σ ω K : Type}

/-! ### What a history tells -/

namespace Moment

/-- The index whose name was asked for in a moment, with the name that the answer gave. -/
def nameRead? (m : Moment) : Option (UInt32 × Option String) :=
  match m.call with
  | .ifaceNames (.read ifaceIndex answer) => some (ifaceIndex, NameField.named? answer)
  | _ => none

/-- The row of the device table that an enumeration delivered in a moment. -/
def deviceRow? (m : Moment) : Option (RowResult UInt32 RawCounters) :=
  match m.call with
  | .device (.next answer) => answer
  | _ => none

end Moment

/-- `row?` finds in a history the rows that enumerations of a counter table delivered. -/
structure TableField.FindsRows [Ranked K] (field : TableField K RawCounters)
    (row? : Moment → Option (RowResult K RawCounters)) : Prop where
  next : ∀ tables answer, row? ⟨tables, field.event (.next answer)⟩ = answer
  iterate : ∀ tables answer, row? ⟨tables, field.event (.iterate answer)⟩ = none
  read : ∀ tables k answer, row? ⟨tables, field.event (.read k answer)⟩ = none
  name : ∀ tables i answer, row? ⟨tables, .ifaceNames (.read i answer)⟩ = none
  unnamed : ∀ tables call, Moment.nameRead? ⟨tables, field.event call⟩ = none

theorem TableField.findsRows_detail : TableField.detail.FindsRows Moment.detailRow? :=
  ⟨fun _ _ => rfl, fun _ _ => rfl, fun _ _ _ => rfl, fun _ _ _ => rfl, fun _ _ => rfl⟩

theorem TableField.findsRows_device : TableField.device.FindsRows Moment.deviceRow? :=
  ⟨fun _ _ => rfl, fun _ _ => rfl, fun _ _ _ => rfl, fun _ _ _ => rfl, fun _ _ => rfl⟩

namespace SharedTables

/-- The moments until now, oldest first. -/
def past (s : SharedTables) : List Moment := s.history.toList

/-- A call that only looks at a table is one moment, whatever is done to the tables before. -/
theorem leaves_look {α V : Type} [Ranked K] (field : TableField K V) (kind : CallKind)
    (answer : MemoryStore K V → α) (event : α → StoreCall K V) :
    Leaves past (fun _ => True) (onTables (look field kind answer event)) fun a told calls =>
      calls = [] ∧ ∃ tables, a = answer (field.get tables) ∧
        told = [⟨tables, field.event (event a)⟩] := by
  intro s _
  refine ⟨[⟨atCall field kind s, _⟩], [], ?_, (List.append_nil _).symm, ⟨rfl, _, rfl, rfl⟩, trivial⟩
  exact Array.toList_push

variable [Ranked K] {table : TableAccess SharedTables K RawCounters}
variable {field : TableField K RawCounters}

theorem leaves_iterate (shared : table = access field) :
    Leaves past (fun _ => True) (onTables table.iterate) fun answer told calls => calls = [] ∧
      ∃ tables, answer = (field.get tables).iterate ∧
        told = [⟨tables, field.event (.iterate (answer.map fun _ => ()))⟩] := by
  rw [shared]
  exact leaves_look field .iterate _ _

theorem leaves_next (shared : table = access field) (c : Cursor K RawCounters) :
    Leaves past (fun _ => True) (onTables (table.next c)) fun answer told calls => calls = [] ∧
      ∃ tables, answer = (field.get tables).next c ∧
        told = [⟨tables, field.event (.next (answer.map Prod.fst))⟩] := by
  rw [shared]
  exact leaves_look field .next _ _

/-- What one reading of a row adds to a history. -/
def RowRead (field : TableField K RawCounters) (k : K)
    (answer : Except StoreError (Option RawCounters)) (told : List Moment) : Prop :=
  ∃ tables, told = [⟨tables, field.event (.read k answer)⟩]

theorem leaves_rowRead (shared : table = access field) (k : K) :
    Leaves past (fun _ => True) (onTables (table.read k)) fun answer told calls =>
      calls = [] ∧ RowRead field k answer told := by
  rw [shared]
  refine (leaves_look field .read _ _).mono ?_
  rintro answer told calls ⟨quiet, tables, -, eq⟩
  exact ⟨quiet, tables, eq⟩

/-- What one lookup of a name adds to a history. -/
def NameAsked (ifaceIndex : UInt32) (name : Option String) (told : List Moment) : Prop :=
  ∃ tables answer, told = [⟨tables, .ifaceNames (.read ifaceIndex answer)⟩] ∧
    name = NameField.named? answer

theorem leaves_resolve (ifaceIndex : UInt32) :
    Leaves past (fun _ => True) ((access .ifaceNames).resolve ifaceIndex)
      fun name told calls => calls = [] ∧ NameAsked ifaceIndex name told := by
  refine (leaves_look .ifaceNames .read (·.read ifaceIndex) (.read ifaceIndex)).bind ?_
  rintro answer _ _ ⟨rfl, tables, -, rfl⟩
  cases answer with
  | ok field => exact .pure ⟨rfl, tables, _, rfl, rfl⟩
  | error e =>
      exact .unmoved_bind (fun _ => ⟨rfl, rfl⟩) fun _ => .pure ⟨rfl, tables, _, rfl, rfl⟩

end SharedTables

namespace TableField.FindsRows

variable [Ranked K] {field : TableField K RawCounters}
variable {row? : Moment → Option (RowResult K RawCounters)} {k : K}
variable {answer : Except StoreError (Option RawCounters)} {told : List Moment}

theorem filterMap_row? (finds : field.FindsRows row?) (h : RowRead field k answer told) :
    told.filterMap row? = [] := by
  obtain ⟨tables, rfl⟩ := h
  simp [finds.read]

theorem filterMap_nameRead? (finds : field.FindsRows row?) (h : RowRead field k answer told) :
    told.filterMap Moment.nameRead? = [] := by
  obtain ⟨tables, rfl⟩ := h
  simp [finds.unnamed]

end TableField.FindsRows

/-! ### Memos -/

namespace NameMemo.Looked

variable {asked : UInt32 → Option String → List ω → Prop} {memo memo' : NameMemo}
variable {ifaceIndex : UInt32} {name : Option String} {moments : List ω}

/-- Names that agree with a memo agreed with it before, and with the name that was looked up. -/
theorem agrees_before (h : Looked asked memo ifaceIndex name memo' moments)
    {name? : UInt32 → Option String} (agrees : memo'.Agrees name?) :
    memo.Agrees name? ∧ name = name? ifaceIndex := by
  cases h with
  | remembered known => exact ⟨agrees, agrees _ _ known⟩
  | asked new _ =>
      refine ⟨?_, agrees _ _ (by rw [List.lookup_cons_self])⟩
      intro other remembered known
      apply agrees other remembered
      have differs : (other == ifaceIndex) = false := by
        apply beq_eq_false_iff_ne.mpr
        rintro rfl
        rw [new] at known
        cases known
      rw [List.lookup_cons, differs]
      exact known

theorem isSome_lookup (h : Looked asked memo ifaceIndex name memo' moments) (other : UInt32) :
    (memo'.lookup other).isSome ↔ (memo.lookup other).isSome ∨ other = ifaceIndex := by
  cases h with
  | remembered known =>
      constructor
      · exact .inl
      · rintro (h | rfl)
        · exact h
        · rw [known]
          rfl
  | asked new _ =>
      rw [List.lookup_cons]
      by_cases same : other = ifaceIndex
      · simp [same]
      · simp [beq_eq_false_iff_ne.mpr same, same]

/-- The name is asked for if the memo does not know it. -/
theorem filterMap_nameRead? {moments : List Moment}
    (h : Looked NameAsked memo ifaceIndex name memo' moments) :
    moments.filterMap Moment.nameRead? =
      if (memo.lookup ifaceIndex).isSome then [] else [(ifaceIndex, name)] := by
  cases h with
  | remembered known => rw [known]; rfl
  | asked new answered =>
      obtain ⟨tables, answer, rfl, rfl⟩ := answered
      rw [new]
      rfl

theorem filterMap_eq_nil {α : Type} {told? : Moment → Option α}
    (names : ∀ tables i answer, told? ⟨tables, .ifaceNames (.read i answer)⟩ = none)
    {moments : List Moment} (h : Looked NameAsked memo ifaceIndex name memo' moments) :
    moments.filterMap told? = [] := by
  cases h with
  | remembered => rfl
  | asked _ answered =>
      obtain ⟨tables, answer, rfl, -⟩ := answered
      simp [names]

end NameMemo.Looked

/-- The distinct elements of a list with one more element, in the order of their first
occurrences. -/
theorem eraseDups_concat {α : Type} [DecidableEq α] (l : List α) (a : α) :
    (l ++ [a]).eraseDups = l.eraseDups ++ if a ∈ l then [] else [a] := by
  rw [List.eraseDups_append]
  split
  · rename_i known
    simp [List.removeAll, known]
  · rename_i new
    simp [List.removeAll, new, List.eraseDups_cons]

/-! ### Reading -/

namespace Report

variable {source : CounterTable σ K} {rows : List (RowResult K RawCounters)}
variable {reads : List (UInt32 × Option String)} {calls : List TrackerCall}

/-- The names of a reading explain what it asked for, what it reported of the rows and which of
them it handed to the tracker. -/
structure Explained (source : CounterTable σ K) (name? : UInt32 → Option String)
    (rows : List (RowResult K RawCounters)) (reads : List (UInt32 × Option String))
    (calls : List TrackerCall) (report : Report) : Prop where
  reads : reads = ((readable rows).map fun row => source.ifaceIndex row.1).eraseDups.map
    fun i => (i, name? i)
  report : report = source.report name? rows
  handed : handed calls = (source.hidden name? (readable rows)).map fun row =>
    (source.ifaceIndex row.1, source.rowId row.1)

/-- The memo knows the indices of the rows until now, and all names that agree with it explain
what was done. -/
structure NamedSoFar (source : CounterTable σ K) (rows : List (RowResult K RawCounters))
    (reads : List (UInt32 × Option String)) (p : Progress) (calls : List TrackerCall) : Prop where
  known : ∀ i, (p.memo.lookup i).isSome ↔
    i ∈ (readable rows).map fun row => source.ifaceIndex row.1
  explained : ∀ name?, p.memo.Agrees name? →
    Explained source name? rows reads calls ⟨p.records.toList, p.skippedRows⟩

theorem namedSoFar_start (t : Tracker) : NamedSoFar source [] [] ⟨[], #[], 0, t⟩ [] :=
  ⟨fun _ => by simp, fun _ _ => ⟨rfl, rfl, rfl⟩⟩

/-- One more row is named as the others of its index, or by asking for its name. -/
theorem NamedSoFar.looked {p : Progress} (h : NamedSoFar source rows reads p calls)
    {k : K} (raw : RawCounters) {name : Option String} {memo : NameMemo} {moments : List Moment}
    (looked : NameMemo.Looked NameAsked p.memo (source.ifaceIndex k) name memo moments) :
    (∀ i, (memo.lookup i).isSome ↔
      i ∈ (readable (rows ++ [.ok (k, raw)])).map fun row => source.ifaceIndex row.1) ∧
    ∀ name?, memo.Agrees name? → name = name? (source.ifaceIndex k) ∧
      Explained source name? rows reads calls ⟨p.records.toList, p.skippedRows⟩ ∧
      reads ++ moments.filterMap Moment.nameRead? =
        ((readable (rows ++ [.ok (k, raw)])).map fun row => source.ifaceIndex row.1).eraseDups.map
          fun i => (i, name? i) := by
  rw [readable_append, readable_cons_ok, readable_nil, List.map_append, List.map_singleton]
  constructor
  · intro i
    rw [looked.isSome_lookup, h.known, List.mem_append, List.mem_singleton]
  · intro name? agrees
    obtain ⟨agrees, rfl⟩ := looked.agrees_before agrees
    have explained := h.explained name? agrees
    refine ⟨rfl, explained, ?_⟩
    rw [eraseDups_concat, List.map_append, ← explained.reads, looked.filterMap_nameRead?]
    by_cases known : (p.memo.lookup (source.ifaceIndex k)).isSome
    · rw [if_pos known, if_pos ((h.known _).mp known)]
      rfl
    · rw [if_neg known, if_neg fun mem => known ((h.known _).mpr mem)]
      rfl

/-- Where neither a lookup of a name nor a reading of a row is found in a history, nothing is
found of the taking of a row. -/
theorem RowTaken.filterMap_eq_nil {α : Type} {told? : Moment → Option α}
    (names : ∀ tables i answer, told? ⟨tables, .ifaceNames (.read i answer)⟩ = none)
    {told : K → Except StoreError (Option RawCounters) → List Moment → Prop}
    (reads : ∀ k answer moments, told k answer moments → moments.filterMap told? = [])
    {p p' : Progress} {r : RowResult K RawCounters} {moments : List Moment}
    (taken : RowTaken source NameAsked told p r p' moments calls) :
    moments.filterMap told? = [] := by
  cases taken with
  | unreadable e => rfl
  | reported looked => exact looked.filterMap_eq_nil names
  | charged looked reread =>
      rw [List.filterMap_append, looked.filterMap_eq_nil names, List.nil_append]
      cases reread with
      | silent => rfl
      | answered _ read => exact reads _ _ _ read

/-- Taking a row keeps the invariant. -/
theorem RowTaken.named {told : K → Except StoreError (Option RawCounters) → List Moment → Prop}
    (unnamed : ∀ k answer moments, told k answer moments →
      moments.filterMap Moment.nameRead? = [])
    {p p' : Progress} {r : RowResult K RawCounters} {moments : List Moment}
    {calls' : List TrackerCall} (taken : RowTaken source NameAsked told p r p' moments calls')
    (before : NamedSoFar source rows reads p calls) :
    NamedSoFar source (rows ++ [r]) (reads ++ moments.filterMap Moment.nameRead?) p'
      (calls ++ calls') := by
  cases taken with
  | unreadable e =>
      have same : readable (rows ++ [.error e]) = readable rows := by
        rw [readable_append, readable_cons_error, readable_nil, List.append_nil]
      refine ⟨?_, ?_⟩
      · rw [same]
        exact before.known
      · intro name? agrees
        obtain ⟨asked, reported, handed⟩ := before.explained name? agrees
        rw [List.filterMap_nil, List.append_nil, List.append_nil]
        refine ⟨?_, ?_, ?_⟩
        · rw [same]
          exact asked
        · rw [CounterTable.report_concat_error, ← reported]
        · rw [same]
          exact handed
  | @reported k raw iface memo moments looked =>
      obtain ⟨known, explains⟩ := before.looked raw looked
      refine ⟨known, ?_⟩
      intro name? agrees
      obtain ⟨named, ⟨-, reported, handed⟩, asked⟩ := explains name? agrees
      refine ⟨asked, ?_, ?_⟩
      · rw [CounterTable.report_concat_ok, ← reported, CounterTable.record?, ← named,
          Array.toList_push]
        rfl
      · rw [List.append_nil, readable_append, readable_cons_ok, readable_nil,
          source.hidden_concat_named name? _ (k, raw) named.symm]
        exact handed
  | @charged k raw memo reading tracker calls' moments moments' looked reread charge =>
      obtain ⟨known, explains⟩ := before.looked raw looked
      refine ⟨known, ?_⟩
      intro name? agrees
      obtain ⟨named, ⟨-, reported, handed⟩, asked⟩ := explains name? agrees
      have silent : moments'.filterMap Moment.nameRead? = [] := by
        cases reread with
        | silent => rfl
        | answered _ read => exact unnamed _ _ _ read
      rw [List.filterMap_append, silent, List.append_nil]
      refine ⟨asked, ?_, ?_⟩
      · rw [CounterTable.report_concat_ok, ← reported, CounterTable.record?, ← named]
        exact congrArg (Report.mk · p.skippedRows) (List.append_nil _).symm
      · have one : TrackerCall.handed calls' = [(source.ifaceIndex k, source.rowId k)] := by
          rw [← handed_charge p.tracker _ _ reading, ← charge]
        rw [handed_append, handed, one, readable_append, readable_cons_ok, readable_nil,
          source.hidden_concat_unnamed name? _ (k, raw) named.symm, List.map_append]
        rfl

end Report

/-- What a reading promises of names: for each index among the rows that were delivered and could
be read, it asks once, in the order in which the indices come up; every row of an index has the
name that it was told then, and if it was told none, all rows of the index go to the tracker and
none into the report. -/
structure NamesIndicesOnce (source : CounterTable σ K) (rows : List (RowResult K RawCounters))
    (reads : List (UInt32 × Option String)) (calls : List TrackerCall)
    (answer : Except QueryError Report) (name? : UInt32 → Option String) : Prop where
  reads : reads = ((readable rows).map fun row => source.ifaceIndex row.1).eraseDups.map
    fun i => (i, name? i)
  report : answer = .ok ⟨(readable rows).filterMap fun row =>
      (name? (source.ifaceIndex row.1)).map fun name => source.record row.1 name row.2.clamped,
      unreadable rows⟩ ∨
    rows = [] ∧ ∃ e, answer = .error (.tableUnavailable source.name e)
  handed : handed calls = ((readable rows).filter fun row =>
      (name? (source.ifaceIndex row.1)).isNone).map fun row =>
    (source.ifaceIndex row.1, source.rowId row.1)

/-- At the end, the names are those that the memo knows. -/
theorem Report.NamedSoFar.namesIndicesOnce {source : CounterTable σ K}
    {rows : List (RowResult K RawCounters)} {reads : List (UInt32 × Option String)}
    {p : Report.Progress} {calls : List TrackerCall}
    (h : Report.NamedSoFar source rows reads p calls) :
    ∃ name?, NamesIndicesOnce source rows reads calls (.ok ⟨p.records.toList, p.skippedRows⟩)
      name? := by
  have agrees : p.memo.Agrees fun i => (p.memo.lookup i).join := by
    intro i remembered known
    exact (congrArg Option.join known).symm
  obtain ⟨asked, reported, handed⟩ := h.explained _ agrees
  exact ⟨_, asked, .inl (congrArg Except.ok reported), handed⟩

namespace Report

variable [Ranked K] {source : CounterTable SharedTables K} {field : TableField K RawCounters}
variable {row? : Moment → Option (RowResult K RawCounters)}

/-- The invariant of a reading, of what was added to the history until now. -/
def NamedIn (source : CounterTable SharedTables K)
    (row? : Moment → Option (RowResult K RawCounters)) (p : Progress) (moments : List Moment)
    (calls : List TrackerCall) : Prop :=
  NamedSoFar source (moments.filterMap row?) (moments.filterMap Moment.nameRead?) p calls

/-- The next step of the enumeration keeps the invariant, and so does what is made of the row
that it delivers. -/
theorem NamedIn.step (shared : source.access = access field) (finds : field.FindsRows row?)
    (c : Cursor K RawCounters) {p : Progress} {moments : List Moment} {calls : List TrackerCall}
    (before : NamedIn source row? p moments calls)
    (walked : field.WalkedTo moments (moments.filterMap row?) c) :
    Leaves past (fun _ => True) (onTables (source.access.next c)) fun answer moments' calls' =>
      (answer = none → NamedIn source row? p (moments ++ moments') (calls ++ calls') ∧
        field.Enumerated (moments ++ moments') ((moments ++ moments').filterMap row?)) ∧
      ∀ r rest, answer = some (r, rest) →
        Leaves past (fun _ => True) (readRow source (access .ifaceNames) p r)
          fun p' moments'' calls'' => NamedIn source row? p' (moments ++ moments' ++ moments'')
              (calls ++ calls' ++ calls'') ∧
            field.WalkedTo (moments ++ moments' ++ moments'')
              ((moments ++ moments' ++ moments'').filterMap row?) rest := by
  refine (leaves_next shared c).mono ?_
  rintro answer _ _ ⟨rfl, tables, answered, rfl⟩
  constructor
  · rintro rfl
    simp only [NamedIn, List.filterMap_append, List.filterMap_cons, List.filterMap_nil,
      finds.next, finds.unnamed, Option.map_none, List.append_nil]
    exact ⟨before, walked.finish answered.symm⟩
  · rintro r rest rfl
    refine (leaves_readRow leaves_resolve (leaves_rowRead shared) p r).mono ?_
    intro p' moments' calls' taken
    have named := taken.named (fun _ _ _ => finds.filterMap_nameRead?) before
    have undelivered := taken.filterMap_eq_nil finds.name fun _ _ _ => finds.filterMap_row?
    simp only [NamedIn, List.filterMap_append, List.filterMap_cons, List.filterMap_nil,
      finds.next, finds.unnamed, Option.map_some, List.append_nil, undelivered]
    exact ⟨named, (walked.step answered.symm).append moments'⟩

/-- What a reading did, as the additions to the history and the calls on its tracker tell it: it
keeps to one name for each index among the rows that it was delivered, and these are the rows of
one enumeration that was walked to its end, unless the table could not be enumerated. -/
def NamesRows (source : CounterTable SharedTables K) (field : TableField K RawCounters)
    (row? : Moment → Option (RowResult K RawCounters)) (moments : List Moment)
    (calls : List TrackerCall) (answer : Except QueryError Report) : Prop :=
  (∃ name?, NamesIndicesOnce source (moments.filterMap row?)
    (moments.filterMap Moment.nameRead?) calls answer name?) ∧
  ∀ report, answer = .ok report → field.Enumerated moments (moments.filterMap row?)

/-- A reading of shared tables keeps the promise, whatever is done to the tables meanwhile. -/
theorem leaves_read_named (source : CounterTable SharedTables K)
    (shared : source.access = access field) (finds : field.FindsRows row?) (t : Tracker) :
    Leaves past (fun _ => True) (Report.read source (access .ifaceNames) t)
      fun outcome moments calls => NamesRows source field row? moments calls outcome.1 := by
  refine (leaves_iterate shared).bind ?_
  rintro answer moments _ ⟨rfl, tables, answered, rfl⟩
  cases answer with
  | error e =>
      refine .pure ⟨⟨fun _ => none, ?_⟩, nofun⟩
      simp only [List.append_nil, List.filterMap_cons, List.filterMap_nil, finds.iterate,
        finds.unnamed]
      exact ⟨rfl, .inr ⟨rfl, e, rfl⟩, rfl⟩
  | ok c =>
      have started : NamedIn source row? ⟨[], #[], 0, t⟩
          [⟨tables, field.event (.iterate (.ok ()))⟩] [] := by
        simp only [NamedIn, List.filterMap_cons, List.filterMap_nil, finds.iterate, finds.unnamed]
        exact namedSoFar_start t
      have opened : field.WalkedTo [⟨tables, field.event (.iterate (.ok ()))⟩]
          ([⟨tables, field.event (.iterate (.ok ()))⟩].filterMap row?) c := by
        simp only [List.filterMap_cons, List.filterMap_nil, finds.iterate]
        exact .start answered.symm
      refine (Leaves.foldRows
        (fun c p moments calls => NamedIn source row? p moments calls ∧
          field.WalkedTo moments (moments.filterMap row?) c)
        (fun p moments calls => NamedIn source row? p moments calls ∧
          field.Enumerated moments (moments.filterMap row?))
        (fun c _ _ _ before => NamedIn.step shared finds c before.1 before.2) _ []
        ⟨started, opened⟩).bind ?_
      rintro p moments' calls ⟨named, walked⟩
      refine (leaves_finish p).mono ?_
      rintro _ _ _ ⟨rfl, rfl, rfl⟩
      rw [List.append_nil, List.append_nil]
      exact ⟨named.namesIndicesOnce, fun _ _ => walked⟩

end Report

/-- What a reading did that began in a session and came to an outcome. -/
def KeepsNames (source : CounterTable SharedTables K) [Ranked K]
    (field : TableField K RawCounters) (row? : Moment → Option (RowResult K RawCounters))
    (s : Session SharedTables)
    (outcome : (Except QueryError Report × Tracker) × Session SharedTables) : Prop :=
  ∃ moments calls, outcome.2.tables.past = s.tables.past ++ moments ∧
    outcome.2.calls.toList = s.calls.toList ++ calls ∧
    Report.NamesRows source field row? moments calls outcome.1.1

/-- Readings keep to one name for each index, whatever other processes do to the tables between
the calls. -/
theorem readings_nameIndicesOnce {a : Accounting SharedTables} (shared : a.tables = tableSet)
    (t : Tracker) (s : Session SharedTables) :
    KeepsNames (.detail a.tables.detail a.policy) .detail Moment.detailRow? s
        (a.detailReportWith t s) ∧
      KeepsNames (.device a.tables.device) .device Moment.deviceRow? s
        (a.deviceReportWith t s) := by
  rw [Accounting.detailReportWith, Accounting.deviceReportWith, shared]
  obtain ⟨moments, calls, told, traced, named, -⟩ := Report.leaves_read_named
    (.detail (access .detail) a.policy) rfl TableField.findsRows_detail t s trivial
  obtain ⟨moments', calls', told', traced', named', -⟩ := Report.leaves_read_named
    (.device (access .device)) rfl TableField.findsRows_device t s trivial
  exact ⟨⟨moments, calls, told, traced, named⟩, moments', calls', told', traced', named'⟩

/-- Two interfaces with two detail rows and a device row each. Between the detail rows, the one
with a name is given another one, and the one without a name is given one. -/
def renamedMeanwhile : SharedTables :=
  let tables : MemoryTables :=
    { MemoryTables.empty with
      detail := .ofList [(⟨1, 0, 5⟩, ⟨1, 1, 1, 1⟩), (⟨1, 0, 7⟩, ⟨2, 1, 2, 1⟩),
        (⟨2, 0, 5⟩, ⟨3, 1, 3, 1⟩), (⟨2, 0, 7⟩, ⟨4, 1, 4, 1⟩)]
      device := .ofList [(5, ⟨4, 2, 4, 2⟩), (7, ⟨6, 2, 6, 2⟩)]
      ifaceNames := .ofList [(5, .ofName "wlan0")] }
  let renamed : List TableEdit :=
    [.ifaceNames (.insert 5 (.ofName "eth0")), .ifaceNames (.insert 7 (.ofName "rmnet0"))]
  { SharedTables.quiet tables with pending := [⟨.detail, .next, 3, renamed⟩] }

/-- In the detail report both rows of the first interface have its earlier name, and both of the
other one are left out. The device report that is read next has the later names. -/
theorem readings_nameIndicesOnce_renamedMeanwhile :
    let a : Accounting SharedTables := .new tableSet
    let s : Session SharedTables := .start renamedMeanwhile
    let outcome := a.detailReportWith (.new 12 .keep) s
    let next := a.deviceReportWith outcome.1.2 outcome.2
    KeepsNames (.detail a.tables.detail a.policy) .detail Moment.detailRow? s outcome ∧
      outcome.1.1 = .ok ⟨[⟨"wlan0", 1, .default, 0, ⟨1, 1, 1, 1⟩⟩,
        ⟨"wlan0", 2, .default, 0, ⟨3, 1, 3, 1⟩⟩], 0⟩ ∧
      outcome.2.raised .keep = [⟨7, 12⟩] ∧
      KeepsNames (.device a.tables.device) .device Moment.deviceRow? outcome.2 next ∧
      next.1.1 = .ok ⟨[⟨"eth0", uidAll, .all, 0, ⟨4, 2, 4, 2⟩⟩,
        ⟨"rmnet0", uidAll, .all, 0, ⟨6, 2, 6, 2⟩⟩], 0⟩ :=
  ⟨(readings_nameIndicesOnce (a := .new tableSet) rfl _ _).1, by decide +kernel,
    by decide +kernel, (readings_nameIndicesOnce (a := .new tableSet) rfl _ _).2,
    by decide +kernel⟩

end TrafficStats
