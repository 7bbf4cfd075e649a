import TrafficStats.Proofs.Shared.Undisturbed
import TrafficStats.Proofs.Total.Records

/-!
# Totals of owners and the report of the detail table

The total of an owner holds all rows of the owner, while the report leaves out those whose
interface has no name. So the total is what the owner's records amount to, and what the
unnamed rows hold besides.

The number that stands for all owners is an owner number like any other to the kernel. A
row that it owns is in the total of all owners only, for there is no total of that owner
alone. Apart from such rows the total of all owners is the sum of the totals of the
owners that have a row.
-/

namespace TrafficStats

open SharedTables Report

/-- Whether a row counts for an owner; all rows do for the number that stands for all. -/
def countsFor (uid : UInt32) (k : DetailKey) : Bool :=
  uid = uidAll ∨ k.uid = uid

namespace MemoryTables

variable (tables : MemoryTables)

def detailReport (policy : DetailKey → TrafficSet) : Report :=
  tables.reportOf (.detail (access .detail) policy) tables.detail

def totalOfOwner (uid : UInt32) : Total :=
  tables.detail.totalOf (countsFor uid)

def isNamed (k : DetailKey) : Bool :=
  (tables.interfaceName? k.ifaceIndex).isSome

/-- What the records of an owner amount to. -/
theorem mass_filter_uid (policy : DetailKey → TrafficSet) (uid : UInt32) :
    mass ((tables.detailReport policy).records.filter fun r => uid = uidAll ∨ r.uid = uid) =
      Counters.sum (Total.keptCounters (fun k => tables.isNamed k && countsFor uid k)
        tables.detail.liveRows) := by
  refine mass_filter_records (CounterTable.keepsCounters_detail _ policy) ?_ _
  show ∀ row : DetailKey × RawCounters,
      (((CounterTable.detail (access .detail) policy).record? tables.interfaceName? row).any
        fun r => uid = uidAll ∨ r.uid = uid) = (tables.isNamed row.1 && countsFor uid row.1)
  intro row
  rw [CounterTable.record?, isNamed]
  show ((tables.interfaceName? row.1.ifaceIndex).map _).any _ = _
  cases tables.interfaceName? row.1.ifaceIndex with
  | none => rfl
  | some name => rfl

/-- The total of an owner, as the report has it and as it leaves it out. -/
theorem totalOfOwner_eq_add (policy : DetailKey → TrafficSet) (uid : UInt32) :
    (tables.totalOfOwner uid).counters =
      mass ((tables.detailReport policy).records.filter fun r => uid = uidAll ∨ r.uid = uid) +
        Counters.sum (Total.keptCounters (fun k => !tables.isNamed k && countsFor uid k)
          tables.detail.liveRows) := by
  rw [mass_filter_uid]
  exact Total.sum_keptCounters_split _ _ _

def owners : Finset UInt32 :=
  (tables.detail.liveRows.map fun row => row.1.uid).toFinset

def ownedBy (uid : UInt32) : Counters :=
  Counters.sum (Total.keptCounters (fun k => k.uid = uid) tables.detail.liveRows)

theorem ownedBy_eq_zero {uid : UInt32} (h : uid ∉ tables.owners) : tables.ownedBy uid = 0 := by
  have none : (tables.detail.liveRows.filter fun row => row.1.uid = uid) = [] := by
    rw [List.filter_eq_nil_iff]
    intro row hrow owned
    apply h
    rw [owners, List.mem_toFinset, ← of_decide_eq_true owned]
    exact List.mem_map_of_mem hrow
  rw [ownedBy, Total.keptCounters, none]
  rfl

theorem totalOfOwner_of_ne {uid : UInt32} (ne : uid ≠ uidAll) :
    (tables.totalOfOwner uid).counters = tables.ownedBy uid := by
  have own : countsFor uid = fun k => decide (k.uid = uid) := by
    funext k
    simp [countsFor, ne]
  rw [totalOfOwner, own]
  rfl

/-- All rows count for all owners, the number that stands for all among them. -/
theorem totalOfOwner_uidAll_eq_sum :
    (tables.totalOfOwner uidAll).counters =
      ∑ uid ∈ insert uidAll tables.owners, tables.ownedBy uid := by
  have covers : ∀ row ∈ tables.detail.liveRows, row.1.uid ∈ insert uidAll tables.owners := by
    intro row hrow
    have owner : row.1.uid ∈ tables.owners :=
      List.mem_toFinset.mpr (List.mem_map_of_mem hrow)
    exact Finset.mem_insert_of_mem owner
  have all : (tables.detail.liveRows.filter fun row => countsFor uidAll row.1) =
      tables.detail.liveRows := by
    rw [List.filter_eq_self]
    intro row _
    simp [countsFor]
  rw [totalOfOwner, MemoryStore.totalOf, Total.keptCounters, all]
  exact Counters.sum_map_eq_sum_fibers _ _ covers

/-- The total of all owners is the sum of the totals of the others, and what is owned by the
number that stands for all. -/
theorem totalOfOwner_uidAll :
    (tables.totalOfOwner uidAll).counters =
      ∑ uid ∈ tables.owners.erase uidAll, (tables.totalOfOwner uid).counters +
        tables.ownedBy uidAll := by
  have others : ∀ uid ∈ tables.owners.erase uidAll,
      (tables.totalOfOwner uid).counters = tables.ownedBy uid := by
    intro uid huid
    exact tables.totalOfOwner_of_ne (Finset.ne_of_mem_erase huid)
  rw [totalOfOwner_uidAll_eq_sum,
    ← Finset.sum_erase_add _ _ (Finset.mem_insert_self uidAll tables.owners),
    Finset.erase_insert_eq_erase, Finset.sum_congr rfl others]

end MemoryTables

variable {tables : MemoryTables} {a : Accounting SharedTables}

theorem gives_detailReport (shared : a.tables = tableSet)
    (available : tables.detail.unavailable = false) :
    Gives tables a.detailReport (.ok (tables.detailReport a.policy)) := by
  show Gives tables (Prod.fst <$> Report.read (.detail a.tables.detail a.policy)
    a.tables.ifaceNames a.newTracker) _
  rw [shared]
  exact gives_read .detail rfl available _

theorem gives_totalForOwner (shared : a.tables = tableSet)
    (available : tables.detail.unavailable = false) (uid : UInt32) :
    Gives tables (a.totalForOwner uid) (.ok (tables.totalOfOwner uid)) := by
  show Gives tables (Total.forOwner a.tables.detail uid) _
  rw [shared]
  exact gives_ofRows .detail available fun k => .pure rfl

/-! ### Totals and records of owners -/

/-- How a report of the detail table and the totals by owner go together: a total is the sum
over the live rows that count for the owner, and comes to what the owner's records amount to
and what the rows hold besides whose interface has no name. -/
structure OwnerTotalsAgree (tables : MemoryTables) (report : Report) (ofOwner : UInt32 → Total) :
    Prop where
  ofOwner_eq : ∀ uid, (ofOwner uid).counters =
    Counters.sum (Total.keptCounters (countsFor uid) tables.detail.liveRows)
  ofOwner_eq_add : ∀ uid, (ofOwner uid).counters =
    mass (report.records.filter fun r => uid = uidAll ∨ r.uid = uid) +
      Counters.sum (Total.keptCounters (fun k => !tables.isNamed k && countsFor uid k)
        tables.detail.liveRows)
  skippedRows : report.skippedRows = tables.detail.malformedRows ∧
    ∀ uid, (ofOwner uid).skippedRows = tables.detail.malformedRows

/-- While nobody edits the tables, the service answers with the present names, and with a
detail report and totals by owner that go together. -/
def OwnerAnswersAgree (tables : MemoryTables) (a : Accounting SharedTables) : Prop :=
  ∃ report ofOwner, Gives tables a.detailReport (.ok report) ∧
    (∀ uid, Gives tables (a.totalForOwner uid) (.ok (ofOwner uid))) ∧
    (∀ ifaceIndex, Gives tables (a.resolve ifaceIndex) (tables.interfaceName? ifaceIndex)) ∧
    OwnerTotalsAgree tables report ofOwner

/-- They do as long as the detail table is available, whatever is in the tables and whichever
owners are in the foreground. -/
theorem ownerTotals_agree (shared : a.tables = tableSet)
    (available : tables.detail.unavailable = false) : OwnerAnswersAgree tables a := by
  have names : ∀ ifaceIndex,
      Gives tables (a.resolve ifaceIndex) (tables.interfaceName? ifaceIndex) := by
    intro ifaceIndex
    show Gives tables (a.tables.ifaceNames.resolve ifaceIndex) _
    rw [shared]
    exact gives_resolve ifaceIndex
  refine ⟨tables.detailReport a.policy, tables.totalOfOwner, gives_detailReport shared available,
    gives_totalForOwner shared available, names, ?_⟩
  exact {
    ofOwner_eq := fun _ => rfl
    ofOwner_eq_add := tables.totalOfOwner_eq_add a.policy
    skippedRows := ⟨rfl, fun _ => rfl⟩ }

/-- Rows of two owners, one of them in the foreground, a row on an interface without a name,
one that is over the clamping bound and one that cannot be read. -/
def partlyNamed : MemoryTables :=
  { MemoryTables.empty with
    detail := (MemoryStore.ofList [(⟨10, 0, 5⟩, ⟨100, 1, 200, 2⟩), (⟨10, 7, 5⟩, ⟨50, 1, 50, 1⟩),
      (⟨10, 7, 9⟩, ⟨7, 1, 7, 1⟩), (⟨20, 0, 9⟩, ⟨0x8000000000000000, 1, 0, 0⟩)]).insertMalformed
        ⟨10, 8, 5⟩ "value size 16"
    ifaceNames := .ofList [(5, .ofName "wlan0")] }

/-- The row without a name is in the total of its owner alone. -/
theorem ownerTotals_agree_partlyNamed :
    OwnerAnswersAgree partlyNamed ⟨tableSet, foregroundPolicy [10], .log, 1⟩ ∧
      ((Accounting.new tableSet).totalForOwner 10 (.start (.quiet partlyNamed))).1 =
        .ok ⟨⟨157, 3, 257, 4⟩, 1⟩ ∧
      mass ((partlyNamed.detailReport (foregroundPolicy [10])).records.filter
        fun r => r.uid = 10) = ⟨150, 2, 250, 3⟩ :=
  ⟨ownerTotals_agree rfl rfl, by decide +kernel, by decide +kernel⟩

/-! ### The total of all owners -/

/-- How the total of all owners splits: an owner's total is the sum over the owner's rows, and
the total of all is the sum over the owners that have a row. What the number that stands for
all owns itself is in the total of all only. -/
structure SplitsByOwner (tables : MemoryTables) (ofOwner : UInt32 → Total) : Prop where
  ofOwner_eq : ∀ uid, uid ≠ uidAll → (ofOwner uid).counters = tables.ownedBy uid
  all_eq_sum_add : (ofOwner uidAll).counters =
    ∑ uid ∈ tables.owners.erase uidAll, (ofOwner uid).counters + tables.ownedBy uidAll
  all_eq_sum : uidAll ∉ tables.owners →
    (ofOwner uidAll).counters = ∑ uid ∈ tables.owners, (ofOwner uid).counters

/-- While nobody edits the tables, the service answers with totals that split by owner. -/
def OwnerAnswersSplit (tables : MemoryTables) (a : Accounting SharedTables) : Prop :=
  ∃ ofOwner, (∀ uid, Gives tables (a.totalForOwner uid) (.ok (ofOwner uid))) ∧
    SplitsByOwner tables ofOwner

/-- They do as long as the detail table is available, whatever is in the tables. -/
theorem allOwners_split (shared : a.tables = tableSet)
    (available : tables.detail.unavailable = false) : OwnerAnswersSplit tables a := by
  have all_eq_sum (absent : uidAll ∉ tables.owners) : (tables.totalOfOwner uidAll).counters =
      ∑ uid ∈ tables.owners, (tables.totalOfOwner uid).counters := by
    rw [tables.totalOfOwner_uidAll, tables.ownedBy_eq_zero absent,
      Finset.erase_eq_of_notMem absent, Counters.add_zero]
  refine ⟨tables.totalOfOwner, gives_totalForOwner shared available, ?_⟩
  exact {
    ofOwner_eq := fun _ => tables.totalOfOwner_of_ne
    all_eq_sum_add := tables.totalOfOwner_uidAll
    all_eq_sum }

/-- A row of the number that stands for all owners, next to a row of an owner. -/
def ownedByReserved : MemoryTables :=
  { MemoryTables.empty with
    detail := .ofList [(⟨uidAll, 0, 5⟩, ⟨10, 1, 10, 1⟩), (⟨1, 0, 5⟩, ⟨1, 1, 1, 1⟩)] }

/-- The totals split where the reserved number owns a row, and where it owns none. -/
theorem allOwners_split_ownedByReserved :
    (OwnerAnswersSplit ownedByReserved (.new tableSet) ∧
      ownedByReserved.owners = {1, uidAll} ∧
      ownedByReserved.ownedBy uidAll = ⟨10, 1, 10, 1⟩) ∧
    OwnerAnswersSplit partlyNamed (.new tableSet) ∧ uidAll ∉ partlyNamed.owners := by
  refine ⟨⟨allOwners_split rfl rfl, ?_, ?_⟩, allOwners_split rfl rfl, ?_⟩
  · decide +kernel
  · decide +kernel
  · decide +kernel

/-- The sum over all owners that have a row is not the total of all there: it has the row of
the owner twice. -/
theorem allOwners_ne_sum :
    ownedByReserved.detail.unavailable = false ∧
      ¬ ∃ ofOwner : UInt32 → Total,
        (∀ uid, Gives ownedByReserved ((Accounting.new tableSet).totalForOwner uid)
          (.ok (ofOwner uid))) ∧
        (ofOwner uidAll).counters = ∑ uid ∈ ownedByReserved.owners, (ofOwner uid).counters := by
  refine ⟨rfl, ?_⟩
  rintro ⟨ofOwner, gives, adds⟩
  have known : ofOwner = ownedByReserved.totalOfOwner := by
    funext uid
    have answer : Gives ownedByReserved ((Accounting.new tableSet).totalForOwner uid)
        (.ok (ownedByReserved.totalOfOwner uid)) := gives_totalForOwner rfl rfl uid
    exact Except.ok.inj ((gives uid).answer_eq.symm.trans answer.answer_eq)
  rw [known] at adds
  revert adds
  decide +kernel

end TrafficStats
