import TrafficStats.Proofs.Cleanup.Mapping
import TrafficStats.Proofs.Cleanup.Quiet
import TrafficStats.Proofs.Shared.Undisturbed

/-!
# Operations that fail

An operation of the service fails if a table that it rests on refuses a call, and for no other
reason: unreadable rows, names that cannot be looked up and deletes that are refused never make
it fail. `Query.FailsWith` states for which errors a query fails, and that a query that fails
has done nothing that could be noticed but in the log. An operation of several calls fails before
the first of them that changes anything (`failsWithoutTrace`).
-/

namespace TrafficStats

open Query RowResult SharedTables

variable {σ α β : Type} {steady : σ → Prop}

namespace Query

/-- Asked while `steady` holds of the tables, a query fails with the errors of which `reason`
holds; then it leaves tables of which `steady` holds, and has called no tracker and raised no
alert. -/
def FailsWith (steady : σ → Prop) (q : Query σ (Except QueryError α))
    (reason : QueryError → Prop) : Prop :=
  ∀ s : Session σ, steady s.tables → ∀ e, ((q s).1 = .error e ↔ reason e) ∧
    ((q s).1 = .error e → steady (q s).2.tables ∧ (q s).2.calls = s.calls ∧
      ∀ sink, (q s).2.raised sink = s.raised sink)

namespace FailsWith

variable {q : Query σ (Except QueryError α)} {reason : QueryError → Prop}

theorem error (cause : QueryError) :
    FailsWith steady (pure (.error cause) : Query σ (Except QueryError α)) (· = cause) := by
  intro s hs e
  refine ⟨?_, fun _ => ⟨hs, rfl, fun _ => rfl⟩⟩
  rw [pure_apply, Except.error.injEq]
  exact eq_comm

theorem never (succeeds : ∀ s : Session σ, steady s.tables → ∃ a, (q s).1 = .ok a) :
    FailsWith steady q fun _ => False := by
  intro s hs e
  obtain ⟨a, ok⟩ := succeeds s hs
  rw [ok]
  exact ⟨⟨nofun, False.elim⟩, nofun⟩

theorem congr {reason' : QueryError → Prop} (h : FailsWith steady q reason)
    (same : ∀ e, reason e ↔ reason' e) : FailsWith steady q reason' := by
  intro s hs e
  rw [← same]
  exact h s hs e

/-- A query that goes on after a call that leaves tables, trackers and alerts as they are. -/
theorem after {f : β → Query σ (Except QueryError α)} {first : Query σ β} {post : β → Prop}
    (known : Ensures steady first post) (quiet : Quiet first)
    (rest : ∀ b, post b → FailsWith steady (f b) reason) :
    FailsWith steady (first >>= f) reason := by
  intro s hs e
  obtain ⟨answer, still⟩ := known s hs
  obtain ⟨calls, raised⟩ := quiet s
  obtain ⟨fails, trace⟩ := rest _ answer _ still e
  rw [bind_apply]
  refine ⟨fails, fun failed => ?_⟩
  obtain ⟨still', calls', raised'⟩ := trace failed
  exact ⟨still', calls'.trans calls, fun sink => (raised' sink).trans (raised sink)⟩

/-- A query that passes on the failure of its first part, and fails for no other reason. -/
theorem passOn {first : Query σ (Except QueryError β)}
    {f : Except QueryError β → Query σ (Except QueryError α)} (h : FailsWith steady first reason)
    (failed : ∀ e, f (.error e) = pure (.error e))
    (succeeds : ∀ b s, ∃ a, (f (.ok b) s).1 = .ok a) : FailsWith steady (first >>= f) reason := by
  intro s hs e
  obtain ⟨fails, trace⟩ := h s hs e
  rw [bind_apply]
  cases answer : (first s).1 with
  | error cause =>
      rw [answer, Except.error.injEq] at fails trace
      rw [failed, pure_apply, Except.error.injEq]
      exact ⟨fails, trace⟩
  | ok b =>
      rw [answer] at fails
      obtain ⟨a, ok⟩ := succeeds b (first s).2
      rw [ok]
      exact ⟨⟨nofun, fun reasoned => absurd (fails.mpr reasoned) nofun⟩, nofun⟩

end FailsWith

end Query

/-- The error of an operation on a table that was marked unavailable. -/
def RefusedBy {K V : Type} [Ranked K] (name : TableName) (store : MemoryStore K V)
    (e : QueryError) : Prop :=
  store.unavailable = true ∧ e = .tableUnavailable name .markedUnavailable

variable {K V : Type} [Ranked K] {tables : MemoryTables}

/-- An operation that begins with an enumeration fails if the table is unavailable, and otherwise
as what follows fails. -/
theorem failsWith_iterate (field : TableField K V) (name : TableName)
    {f : Except StoreError (Cursor K V) → Query SharedTables (Except QueryError α)}
    {reason : QueryError → Prop}
    (refused : ∀ e, f (.error e) = pure (.error (.tableUnavailable name e)))
    (rest : ∀ c, (field.get tables).iterate = .ok c →
      FailsWith (Undisturbed tables) (f (.ok c)) reason) :
    FailsWith (Undisturbed tables) (onTables (access field).iterate >>= f) fun e =>
      RefusedBy name (field.get tables) e ∨ (field.get tables).unavailable = false ∧ reason e := by
  refine .after (ensures_look field .iterate _ _) (.onTables _) ?_
  rintro answer rfl
  cases available : (field.get tables).unavailable with
  | true =>
      have failed : (field.get tables).iterate = .error .markedUnavailable := by
        simp [MemoryStore.iterate, available]
      rw [failed, refused]
      refine (FailsWith.error _).congr fun e => ?_
      simp [RefusedBy, available]
  | false =>
      have started : (field.get tables).iterate = .ok ((field.get tables).rows.keys.map .key) := by
        simp [MemoryStore.iterate, available]
      rw [started]
      refine (rest _ started).congr fun e => ?_
      simp [RefusedBy, available]

/-- An enumeration that starts can always be worked through. -/
theorem failsWith_iterate_only (field : TableField K V) (name : TableName)
    {f : Except StoreError (Cursor K V) → Query SharedTables (Except QueryError α)}
    (refused : ∀ e, f (.error e) = pure (.error (.tableUnavailable name e)))
    (succeeds : ∀ c s, ∃ a, (f (.ok c) s).1 = .ok a) :
    FailsWith (Undisturbed tables) (onTables (access field).iterate >>= f)
      (RefusedBy name (field.get tables)) := by
  have rest (c : Cursor K V) (_ : (field.get tables).iterate = .ok c) :
      FailsWith (Undisturbed tables) (f (.ok c)) fun _ => False := .never fun s _ => succeeds c s
  exact (failsWith_iterate field name refused rest).congr fun e => by simp

/-! ### Totals and reports -/

section Tables

variable (field : TableField K RawCounters)

theorem failsWith_ofRows (name : TableName) (keep : K → Query SharedTables Bool) :
    FailsWith (Undisturbed tables) (Total.ofRows name (access field) keep)
      (RefusedBy name (field.get tables)) :=
  failsWith_iterate_only field name (fun _ => rfl) fun _ _ => ⟨_, rfl⟩

omit [Ranked K] in
theorem Report.exists_finish (source : CounterTable σ K) (p : Progress) (s : Session σ) :
    ∃ report, (finish source p s).1.1 = .ok report := by
  unfold finish
  split <;> exact ⟨_, rfl⟩

theorem failsWith_read {source : CounterTable SharedTables K}
    (shared : source.access = access field) (names : TableAccess SharedTables UInt32 NameField)
    (t : Tracker) :
    FailsWith (Undisturbed tables) (Prod.fst <$> Report.read source names t)
      (RefusedBy source.name (field.get tables)) := by
  unfold Report.read
  rw [map_bind, shared]
  refine failsWith_iterate_only field source.name (fun _ => rfl) fun c s => ?_
  exact Report.exists_finish source _ _

end Tables

omit [Ranked K] in
/-- A reading that fails leaves the tracker as it was. -/
theorem Report.tracker_of_error (source : CounterTable σ K)
    (names : TableAccess σ UInt32 NameField) (t : Tracker) {s : Session σ} {e : QueryError}
    (failed : (Report.read source names t s).1.1 = .error e) :
    (Report.read source names t s).1.2 = t := by
  unfold Report.read at failed ⊢
  rw [bind_apply] at failed ⊢
  cases answer : (onTables source.access.iterate s).1 with
  | error cause => rfl
  | ok c =>
      rw [answer] at failed
      obtain ⟨report, finished⟩ := exists_finish source _ _
      exact absurd (finished.symm.trans failed) nofun

/-- The counters of an interface cannot be told if its row cannot be read. -/
theorem failsWith_forIndex (ifaceIndex : UInt32) :
    FailsWith (Undisturbed tables) (Total.forIndex (access .device) ifaceIndex) fun e =>
      ∃ cause, tables.device.read ifaceIndex = .error cause ∧
        e = .tableUnavailable .device cause := by
  refine .after (ensures_look .device .read _ _) (.onTables _) ?_
  intro answer eq
  have read : tables.device.read ifaceIndex = answer := eq.symm
  rw [read]
  match answer with
  | .error cause =>
      refine (FailsWith.error _).congr fun e => ?_
      simp
  | .ok none => exact (FailsWith.never fun _ _ => ⟨_, rfl⟩).congr fun e => by simp
  | .ok (some raw) => exact (FailsWith.never fun _ _ => ⟨_, rfl⟩).congr fun e => by simp

/-! ### Cleanup and registration -/

/-- A pass fails before it deletes anything. -/
theorem failsWith_pass :
    FailsWith (Undisturbed tables) (Cleanup.pass (access .cookieTags) (access .detail)) fun e =>
      RefusedBy .cookieTags tables.cookieTags e ∨
        tables.cookieTags.unavailable = false ∧ RefusedBy .detail tables.detail e := by
  refine failsWith_iterate .cookieTags .cookieTags (fun _ => rfl) fun c started => ?_
  have delivers :
      (access .cookieTags).Delivers (Undisturbed tables) tables.cookieTags.allRows c := by
    rw [MemoryStore.eq_keys_of_iterate started, Rows.keys, List.map_map]
    exact delivers_entries .cookieTags fun entry h => (Rows.get?_eq_some_iff _ _ _).mpr h
  have listed := delivers.foldRows Cleanup.Listed (fun _ r _ h => Cleanup.ensures_listTag h r) []
    (b := ⟨#[], 0⟩) ⟨rfl, rfl⟩
  refine .after listed (.foldRows _ Cleanup.quiet_listTag _ _) fun listing _ => ?_
  exact failsWith_iterate_only .detail .detail (fun _ => rfl) fun _ _ => ⟨_, rfl⟩

namespace Accounting

variable {a : Accounting SharedTables}

theorem failsWith_registerIndex (shared : a.tables = tableSet) (ifaceIndex : UInt32)
    (name : String) :
    FailsWith (Undisturbed tables) (a.registerIndex ifaceIndex name)
      (RefusedBy .ifaceNames tables.ifaceNames) := by
  unfold registerIndex
  rw [shared]
  have written (s : Session SharedTables) (hs : Undisturbed tables s.tables) :
      (onTables (tableSet.ifaceNames.put ifaceIndex (.ofName name)) s).1 =
        (tables.ifaceNames.put ifaceIndex (.ofName name)).1 := by
    simp only [tableSet, onTables, access, call, hs.before_eq]
    rw [hs.tables]
    rfl
  cases available : tables.ifaceNames.unavailable with
  | true =>
      have refused : Ensures (Undisturbed tables)
          (onTables (tableSet.ifaceNames.put ifaceIndex (.ofName name)))
          (· = .error .markedUnavailable) := by
        intro s hs
        have answer := written s hs
        rw [MemoryStore.put, available] at answer
        refine ⟨answer, ?_⟩
        simp only [tableSet, onTables, access, call, hs.before_eq]
        obtain ⟨rfl, pending⟩ := hs
        have same : (TableField.ifaceNames.get s.tables.tables).put ifaceIndex (.ofName name) =
            (.error .markedUnavailable, s.tables.tables.ifaceNames) := by
          rw [MemoryStore.put]
          exact if_pos available
        rw [same]
        exact ⟨rfl, pending⟩
      refine .after refused (.onTables _) ?_
      rintro answer rfl
      refine (FailsWith.error _).congr fun e => ?_
      simp [RefusedBy, available]
  | false =>
      refine (FailsWith.never fun s hs => ⟨(), ?_⟩).congr fun e => by simp [RefusedBy, available]
      rw [bind_apply, written s hs, MemoryStore.put, available]
      rfl

/-- Registration fails for a name that the host does not have, and if nothing can be written. -/
theorem failsWith_register (shared : a.tables = tableSet) (host : Host) (name : String) :
    FailsWith (Undisturbed tables) (a.register host name) fun e =>
      host.index? name = none ∧ e = .unknownInterface name ∨
        host.index? name ≠ none ∧ RefusedBy .ifaceNames tables.ifaceNames e := by
  unfold register
  cases host.index? name with
  | none => exact (FailsWith.error _).congr fun e => by simp
  | some ifaceIndex =>
      refine FailsWith.congr ?_ fun e => (by simp : RefusedBy .ifaceNames tables.ifaceNames e ↔ _)
      exact (failsWith_registerIndex shared ifaceIndex name).passOn (fun _ => rfl)
        fun _ _ => ⟨_, rfl⟩

/-- For which errors the operations of a service fail over tables that nobody else edits, each
of them without a trace. A report that fails leaves the tracker that it was handed as it was. -/
structure FailsWithoutTrace (a : Accounting SharedTables) (tables : MemoryTables) (host : Host) :
    Prop where
  detailReport : FailsWith (Undisturbed tables) a.detailReport (RefusedBy .detail tables.detail)
  detailReportWith : ∀ t, FailsWith (Undisturbed tables) (Prod.fst <$> a.detailReportWith t)
    (RefusedBy .detail tables.detail)
  detailTracker : ∀ t s e, (a.detailReportWith t s).1.1 = .error e →
    (a.detailReportWith t s).1.2 = t
  deviceReport : FailsWith (Undisturbed tables) a.deviceReport (RefusedBy .device tables.device)
  deviceReportWith : ∀ t, FailsWith (Undisturbed tables) (Prod.fst <$> a.deviceReportWith t)
    (RefusedBy .device tables.device)
  deviceTracker : ∀ t s e, (a.deviceReportWith t s).1.1 = .error e →
    (a.deviceReportWith t s).1.2 = t
  totalForOwner : ∀ uid, FailsWith (Undisturbed tables) (a.totalForOwner uid)
    (RefusedBy .detail tables.detail)
  totalForName : ∀ name, FailsWith (Undisturbed tables) (a.totalForName name)
    (RefusedBy .device tables.device)
  totalForNamed : FailsWith (Undisturbed tables) a.totalForNamed (RefusedBy .device tables.device)
  totalForIndex : ∀ ifaceIndex, FailsWith (Undisturbed tables) (a.totalForIndex ifaceIndex)
    fun e => ∃ cause, tables.device.read ifaceIndex = .error cause ∧
      e = .tableUnavailable .device cause
  cleanTags : FailsWith (Undisturbed tables) a.cleanTags fun e =>
    RefusedBy .cookieTags tables.cookieTags e ∨
      tables.cookieTags.unavailable = false ∧ RefusedBy .detail tables.detail e
  registerIndex : ∀ ifaceIndex name,
    FailsWith (Undisturbed tables) (a.registerIndex ifaceIndex name)
      (RefusedBy .ifaceNames tables.ifaceNames)
  register : ∀ name, FailsWith (Undisturbed tables) (a.register host name) fun e =>
    host.index? name = none ∧ e = .unknownInterface name ∨
      host.index? name ≠ none ∧ RefusedBy .ifaceNames tables.ifaceNames e

/-- Whatever rows there are and whichever deletes are refused, an operation fails only if a table
that it needs is unavailable, a row that it was asked for cannot be read, or the host does not
have an interface. -/
theorem failsWithoutTrace (shared : a.tables = tableSet) (tables : MemoryTables) (host : Host) :
    a.FailsWithoutTrace tables host := by
  obtain ⟨_, policy, sink, threshold⟩ := a
  cases shared
  constructor
  case detailReport => exact failsWith_read .detail rfl _ _
  case detailReportWith => exact fun t => failsWith_read .detail rfl _ t
  case detailTracker => exact fun t s e failed => Report.tracker_of_error _ _ t failed
  case deviceReport => exact failsWith_read .device rfl _ _
  case deviceReportWith => exact fun t => failsWith_read .device rfl _ t
  case deviceTracker => exact fun t s e failed => Report.tracker_of_error _ _ t failed
  case totalForOwner => exact fun uid => failsWith_ofRows .detail .detail _
  case totalForName => exact fun name => failsWith_ofRows .device .device _
  case totalForNamed => exact failsWith_ofRows .device .device _
  case totalForIndex => exact fun ifaceIndex => failsWith_forIndex ifaceIndex
  case cleanTags => exact failsWith_pass
  case registerIndex => exact fun ifaceIndex name => failsWith_registerIndex rfl ifaceIndex name
  case register => exact fun name => failsWith_register rfl host name

/-- A stale tag, and a detail table that is unavailable. -/
def detailLost : MemoryTables :=
  { MemoryTables.empty with
    detail := MemoryStore.empty.setUnavailable true
    cookieTags := .ofList [(1, ⟨10, 7⟩)] }

/-- The pass fails after it has listed the stale tag, and leaves it; a total over the device
table has an answer all the same. -/
theorem failsWithoutTrace_detailLost :
    FailsWithoutTrace (.new tableSet) detailLost [("lo", 1)] ∧
      ((new tableSet).cleanTags (.start (.quiet detailLost))).1 =
        .error (.tableUnavailable .detail .markedUnavailable) ∧
      ((new tableSet).cleanTags (.start (.quiet detailLost))).2.tables.tables.cookieTags.rows.keys
        = [1] ∧
      ((new tableSet).totalForNamed (.start (.quiet detailLost))).1 = .ok .zero :=
  ⟨failsWithoutTrace rfl _ _, by decide +kernel, by decide +kernel, by decide +kernel⟩

end Accounting

end TrafficStats
