import TrafficStats.Proofs.Total.Device

/-!
# Totals while names cannot be read

A lookup that fails gives no name, like an interface that has none. While the table of names
is unavailable no device row has a name, so a total that chooses its rows by their names is
zero. It is no less complete for that: only rows of the device table count as skipped. A row
whose name cannot be read, be it for the whole table or for its own field alone, is not among
the traffic that such a total is about.
-/

namespace TrafficStats

open SharedTables

/-- A total to which no row counts is zero. -/
theorem MemoryStore.totalOf_of_forall_eq_false {K : Type} [Ranked K]
    (store : MemoryStore K RawCounters) {kept : K → Bool} (none : ∀ k, kept k = false) :
    store.totalOf kept = ⟨0, store.malformedRows⟩ := by
  have unkept : (store.liveRows.filter fun row => kept row.1) = [] := by
    rw [List.filter_eq_nil_iff]
    intro row _
    simp [none row.1]
  rw [totalOf, Total.keptCounters, unkept]
  rfl

namespace MemoryTables

/-- The same tables, but for whether the table of names is available. -/
def setNamesLost (tables : MemoryTables) (lost : Bool) : MemoryTables :=
  { tables with ifaceNames := tables.ifaceNames.setUnavailable lost }

/-- No interface has a name that can be read. -/
theorem interfaceName?_setNamesLost (tables : MemoryTables) (ifaceIndex : UInt32) :
    (tables.setNamesLost true).interfaceName? ifaceIndex = none := rfl

end MemoryTables

namespace SharedTables

variable {tables : MemoryTables}

/-- Without the device table there is no total, whichever rows it would choose. -/
theorem gives_ofNames_refused (unavailable : tables.device.unavailable = true)
    (chosen : Option String → Bool) :
    Gives tables
      (Total.ofRows .device (access .device) fun i => do
        pure (chosen (← (access .ifaceNames).resolve i)))
      (.error (.tableUnavailable .device .markedUnavailable)) := by
  have decides : ∀ i, Gives tables
      (do pure (chosen (← (access .ifaceNames).resolve i)) : Query SharedTables Bool)
      (chosen (tables.interfaceName? i)) := fun i => (gives_resolve i).bind_pure chosen
  have shown : (access .device).Shows (Undisturbed tables) tables.device.read tables.device.dump :=
    shows_access .device
  refine (Total.ensures_ofRows shown .device decides).mono fun answer eq => ?_
  rw [eq, answerFrom_dump, unavailable]
  rfl

end SharedTables

/-- How a total that chooses device rows by their names depends on whether names can be read:
without the device table it fails either way; otherwise it is the sum over the chosen rows
with the names, and zero without them, and skips the same rows. -/
structure AllOrNothing (tables : MemoryTables) (chosen : Option String → Bool)
    (q : Query SharedTables (Except QueryError Total)) : Prop where
  refused : tables.device.unavailable = true → ∀ lost,
    Gives (tables.setNamesLost lost) q (.error (.tableUnavailable .device .markedUnavailable))
  whole : tables.device.unavailable = false →
    Gives (tables.setNamesLost false) q
      (.ok (tables.device.totalOf fun i => chosen ((tables.setNamesLost false).interfaceName? i)))
  nothing : tables.device.unavailable = false →
    Gives (tables.setNamesLost true) q (.ok ⟨0, tables.device.malformedRows⟩)
  -- A complete total is the whole one, unless names could not be read for it; then it is zero.
  complete : ∀ lost t, Gives (tables.setNamesLost lost) q (.ok t) → t.isComplete = true →
    ∃ full, Gives (tables.setNamesLost false) q (.ok full) ∧ full.isComplete = true ∧
      t.counters = if lost then 0 else full.counters

/-- A total that chooses rows by their names, where no name is not chosen. -/
theorem ofNames_allOrNothing (tables : MemoryTables) {chosen : Option String → Bool}
    (unnamed : chosen none = false) :
    AllOrNothing tables chosen
      (Total.ofRows .device (access .device) fun i => do
        pure (chosen (← (access .ifaceNames).resolve i))) := by
  generalize hq : (Total.ofRows .device (access .device) fun i => do
    pure (chosen (← (access .ifaceNames).resolve i))) = q
  have refused (unavailable : tables.device.unavailable = true) (lost : Bool) :
      Gives (tables.setNamesLost lost) q
        (.error (.tableUnavailable .device .markedUnavailable)) := by
    have same : (tables.setNamesLost lost).device.unavailable = true := unavailable
    rw [← hq]
    exact gives_ofNames_refused same chosen
  have answered (available : tables.device.unavailable = false) (lost : Bool) :
      Gives (tables.setNamesLost lost) q (.ok (tables.device.totalOf fun i =>
        chosen ((tables.setNamesLost lost).interfaceName? i))) := by
    have same : (tables.setNamesLost lost).device.unavailable = false := available
    rw [← hq]
    exact gives_ofNames same chosen
  have whole (available : tables.device.unavailable = false) := answered available false
  have nothing (available : tables.device.unavailable = false) :
      Gives (tables.setNamesLost true) q (.ok ⟨0, tables.device.malformedRows⟩) := by
    have total := answered available true
    rwa [MemoryStore.totalOf_of_forall_eq_false] at total
    intro i
    rw [tables.interfaceName?_setNamesLost, unnamed]
  refine ⟨refused, whole, nothing, ?_⟩
  intro lost t gives complete
  cases unavailable : tables.device.unavailable with
  | true =>
      have clash := gives.answer_eq.symm.trans (refused unavailable lost).answer_eq
      cases clash
  | false =>
      refine ⟨_, whole unavailable, ?_⟩
      cases lost with
      | false =>
          have same := Except.ok.inj
            (gives.answer_eq.symm.trans (whole unavailable).answer_eq)
          rw [← same]
          exact ⟨complete, rfl⟩
      | true =>
          have same := Except.ok.inj
            (gives.answer_eq.symm.trans (nothing unavailable).answer_eq)
          rw [same] at complete ⊢
          exact ⟨complete, rfl⟩

variable {a : Accounting SharedTables}

/-- The totals of a name and of all named interfaces are of this kind, whatever is in the
tables. -/
theorem namedTotals_allOrNothing (shared : a.tables = tableSet) (tables : MemoryTables) :
    (∀ name, AllOrNothing tables (fun resolved => resolved = some name) (a.totalForName name)) ∧
      AllOrNothing tables Option.isSome a.totalForNamed := by
  constructor
  · intro name
    show AllOrNothing tables _ (Total.forName a.tables.device a.tables.ifaceNames name)
    rw [shared]
    exact ofNames_allOrNothing tables (by simp)
  · show AllOrNothing tables _ (Total.forNamed a.tables.device a.tables.ifaceNames)
    rw [shared]
    exact ofNames_allOrNothing tables rfl

def oneNamed : MemoryTables :=
  { MemoryTables.empty with
    device := .ofList [(5, ⟨10, 1, 10, 1⟩)]
    ifaceNames := .ofList [(5, .ofName "wlan0")] }

/-- Its traffic is in the totals while its name can be read, and only then. -/
theorem namedTotals_allOrNothing_oneNamed :
    (∀ name, AllOrNothing oneNamed (fun resolved => resolved = some name)
        ((Accounting.new tableSet).totalForName name)) ∧
      AllOrNothing oneNamed Option.isSome (Accounting.new tableSet).totalForNamed ∧
      oneNamed.device.totalOf
          (fun i => ((oneNamed.setNamesLost false).interfaceName? i).isSome) =
        ⟨⟨10, 1, 10, 1⟩, 0⟩ := by
  have kind := namedTotals_allOrNothing (a := .new tableSet) rfl oneNamed
  exact ⟨kind.1, kind.2, by decide +kernel⟩

/-- That a complete total stays what it is once names can be read. -/
def StaysWhole (tables : MemoryTables) (q : Query SharedTables (Except QueryError Total)) :
    Prop :=
  ∀ lost t full, Gives (tables.setNamesLost lost) q (.ok t) → t.isComplete = true →
    Gives (tables.setNamesLost false) q (.ok full) → t.counters = full.counters

/-- While names cannot be read, both totals of that interface are complete and zero. -/
theorem not_staysWhole_oneNamed :
    ¬ StaysWhole oneNamed ((Accounting.new tableSet).totalForName "wlan0") ∧
      ¬ StaysWhole oneNamed (Accounting.new tableSet).totalForNamed := by
  have ofName : AllOrNothing oneNamed (fun resolved => resolved = some "wlan0")
      ((Accounting.new tableSet).totalForName "wlan0") := ofNames_allOrNothing oneNamed (by simp)
  have ofNamed : AllOrNothing oneNamed Option.isSome (Accounting.new tableSet).totalForNamed :=
    ofNames_allOrNothing oneNamed rfl
  constructor
  · intro stays
    have same := stays true _ _ (ofName.nothing rfl) (by decide) (ofName.whole rfl)
    revert same
    decide +kernel
  · intro stays
    have same := stays true _ _ (ofNamed.nothing rfl) (by decide) (ofNamed.whole rfl)
    revert same
    decide +kernel

end TrafficStats
