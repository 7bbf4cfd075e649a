import TrafficStats.Proofs.Cleanup.Mapping

/-!
# What the service answers over given rows

`Accounting.Answers` describes a service as a function of the rows of its tables: totals are
sums over the rows that match, a report has the records of the rows in some order, a cleanup
keeps the tags for which there is a detail row, and a name that is registered is kept. The
service answers so over every kind of tables that has the rows (`answers_of_holds`).
-/

namespace TrafficStats

variable {σ : Type} {steady : σ → Prop} {rows : TableRows}

open Query

namespace TableAccess

variable {K V : Type}

/-- The mapping from keys to values that reads of a table tell. -/
def Tells (table : TableAccess σ K V) (f : K → Option V) (s : σ) : Prop :=
  ∀ k, (table.read k s).1 = .ok (f k)

end TableAccess

namespace TableRows

/-- The account of a cleanup: all tags are examined, and those without a detail row deleted. -/
def cleanupReport (rows : TableRows) : CleanupReport :=
  ⟨rows.cookieTags.length, (Cleanup.unused (Cleanup.live rows.detail) rows.cookieTags).length,
    0, 0, 0⟩

/-- The tag of a cookie, if there is a detail row for it. -/
def tagInUse? (rows : TableRows) (cookie : UInt64) : Option SocketTag :=
  (rows.cookieTags.lookup cookie).filter fun tag => tag ∈ Cleanup.live rows.detail

/-- The name fields of interfaces when a name is registered. -/
def namesWith (rows : TableRows) (ifaceIndex : UInt32) (name : String) :
    UInt32 → Option NameField :=
  Function.update (fun i => rows.ifaceNames.lookup i) ifaceIndex (some (.ofName name))

end TableRows

/-- What a service answers in a session over tables that have the given rows. -/
structure Accounting.Answers (a : Accounting σ) (rows : TableRows) (s : Session σ) : Prop where
  resolve : ∀ ifaceIndex, (a.resolve ifaceIndex s).1 = rows.name? ifaceIndex
  totalForOwner : ∀ uid, (a.totalForOwner uid s).1 = .ok (.keeping (countsFor uid) rows.detail)
  totalForName : ∀ name, (a.totalForName name s).1 =
    .ok (.keeping (fun ifaceIndex => rows.name? ifaceIndex = some name) rows.device)
  totalForNamed : (a.totalForNamed s).1 =
    .ok (.keeping (fun ifaceIndex => (rows.name? ifaceIndex).isSome) rows.device)
  totalForIndex : ∀ ifaceIndex, (a.totalForIndex ifaceIndex s).1 =
    .ok ((rows.device.lookup ifaceIndex).elim 0 RawCounters.clamped)
  detailReport : ∀ t, Report.ReadFrom (.detail a.tables.detail a.policy) rows.name? rows.detail t
    (a.detailReportWith t s).1
  deviceReport : ∀ t, Report.ReadFrom (.device a.tables.device) rows.name? rows.device t
    (a.deviceReportWith t s).1
  cleanTags : (a.cleanTags s).1 = .ok rows.cleanupReport
  tagsLeft : a.tables.cookieTags.Tells rows.tagInUse? (a.cleanTags s).2.tables
  names : a.tables.ifaceNames.Tells (fun i => rows.ifaceNames.lookup i) s.tables
  registerIndex : ∀ ifaceIndex name, (a.registerIndex ifaceIndex name s).1 = .ok ()
  namesLeft : ∀ ifaceIndex name, a.tables.ifaceNames.Tells (rows.namesWith ifaceIndex name)
    (a.registerIndex ifaceIndex name s).2.tables

namespace TableSet.Holds

variable {a : Accounting σ}

theorem resolve (h : a.tables.Holds steady rows) (ifaceIndex : UInt32) :
    Ensures steady (a.tables.ifaceNames.resolve ifaceIndex) (· = rows.name? ifaceIndex) := by
  obtain ⟨order, -, shows⟩ := h.ifaceNames
  exact shows.resolve ifaceIndex

theorem totalForOwner (h : a.tables.Holds steady rows) (uid : UInt32) :
    Ensures steady (a.totalForOwner uid) (· = .ok (.keeping (countsFor uid) rows.detail)) :=
  h.detail.ofRows .detail fun _ => .pure rfl

/-- A total may choose the rows by the names of their interfaces. -/
theorem ofNames (h : a.tables.Holds steady rows) (chosen : Option String → Bool) :
    Ensures steady
      (Total.ofRows .device a.tables.device fun i => do
        pure (chosen (← a.tables.ifaceNames.resolve i)))
      (· = .ok (.keeping (fun ifaceIndex => chosen (rows.name? ifaceIndex)) rows.device)) := by
  apply h.device.ofRows .device
  intro ifaceIndex
  exact (h.resolve ifaceIndex).bind_pure chosen

theorem totalForName (h : a.tables.Holds steady rows) (name : String) :
    Ensures steady (a.totalForName name)
      (· = .ok (.keeping (fun ifaceIndex => rows.name? ifaceIndex = some name) rows.device)) :=
  h.ofNames fun resolved => resolved = some name

theorem totalForNamed (h : a.tables.Holds steady rows) :
    Ensures steady a.totalForNamed
      (· = .ok (.keeping (fun ifaceIndex => (rows.name? ifaceIndex).isSome) rows.device)) :=
  h.ofNames Option.isSome

theorem totalForIndex (h : a.tables.Holds steady rows) (ifaceIndex : UInt32) :
    Ensures steady (a.totalForIndex ifaceIndex)
      (· = .ok ((rows.device.lookup ifaceIndex).elim 0 RawCounters.clamped)) := by
  obtain ⟨order, -, shows⟩ := h.device
  refine (shows.read ifaceIndex).bind fun answer eq => ?_
  rw [eq]
  cases rows.device.lookup ifaceIndex with
  | none => exact .pure rfl
  | some raw => exact .pure rfl

theorem detailReport (h : a.tables.Holds steady rows) (distinct : rows.Distinct) (t : Tracker) :
    Ensures steady (a.detailReportWith t)
      (Report.ReadFrom (.detail a.tables.detail a.policy) rows.name? rows.detail t) := by
  have distinctRows : Function.Injective
      (CounterTable.detail a.tables.detail a.policy).rowId := fun _ _ same => RowId.detail.inj same
  exact TableAccess.Holds.read h.detail distinct.detail distinctRows h.resolve t

theorem deviceReport (h : a.tables.Holds steady rows) (distinct : rows.Distinct) (t : Tracker) :
    Ensures steady (a.deviceReportWith t)
      (Report.ReadFrom (.device a.tables.device) rows.name? rows.device t) := by
  have distinctRows : Function.Injective (CounterTable.device a.tables.device).rowId :=
    fun _ _ same => RowId.device.inj same
  exact TableAccess.Holds.read h.device distinct.device distinctRows h.resolve t

theorem cleanTags (h : a.tables.Holds steady rows) (distinct : rows.Distinct) :
    Leads steady a.cleanTags fun answer s =>
      answer = .ok rows.cleanupReport ∧ a.tables.cookieTags.Tells rows.tagInUse? s := by
  obtain ⟨held, keeps, starts⟩ := h.keepsTags
  have passed := Cleanup.leads_pass h.cookieTags distinct.cookieTags h.detail keeps starts
  intro s hs
  obtain ⟨answer, left⟩ := passed s hs
  exact ⟨answer, fun cookie => keeps.read _ cookie _ left⟩

theorem names (h : a.tables.Holds steady rows) {s : σ} (hs : steady s) :
    a.tables.ifaceNames.Tells (fun i => rows.ifaceNames.lookup i) s := by
  obtain ⟨held, keeps, starts⟩ := h.keepsNames
  exact fun i => keeps.read _ i s (starts s hs)

theorem registerIndex (h : a.tables.Holds steady rows) (ifaceIndex : UInt32) (name : String) :
    Leads steady (a.registerIndex ifaceIndex name) fun answer s =>
      answer = .ok () ∧ a.tables.ifaceNames.Tells (rows.namesWith ifaceIndex name) s := by
  obtain ⟨held, keeps, starts⟩ := h.keepsNames
  have written : Leads steady (onTables (a.tables.ifaceNames.put ifaceIndex (.ofName name)))
      fun answer s => answer = .ok () ∧ held (rows.namesWith ifaceIndex name) s :=
    fun s hs => keeps.put _ ifaceIndex (.ofName name) s.tables (starts _ hs)
  refine written.bind fun answer => ?_
  rintro s ⟨rfl, left⟩
  exact ⟨rfl, fun i => keeps.read _ i _ left⟩

end TableSet.Holds

/-- Over tables of any kind that have the given rows, the service answers as the rows say. -/
theorem answers_of_holds {a : Accounting σ} (h : a.tables.Holds steady rows)
    (distinct : rows.Distinct) {s : Session σ} (hs : steady s.tables) : a.Answers rows s where
  resolve ifaceIndex := (h.resolve ifaceIndex s hs).1
  totalForOwner uid := (h.totalForOwner uid s hs).1
  totalForName name := (h.totalForName name s hs).1
  totalForNamed := (h.totalForNamed s hs).1
  totalForIndex ifaceIndex := (h.totalForIndex ifaceIndex s hs).1
  detailReport t := (h.detailReport distinct t s hs).1
  deviceReport t := (h.deviceReport distinct t s hs).1
  cleanTags := (h.cleanTags distinct s hs).1
  tagsLeft := (h.cleanTags distinct s hs).2
  names := h.names hs
  registerIndex ifaceIndex name := (h.registerIndex ifaceIndex name s hs).1
  namesLeft ifaceIndex name := (h.registerIndex ifaceIndex name s hs).2

end TrafficStats
