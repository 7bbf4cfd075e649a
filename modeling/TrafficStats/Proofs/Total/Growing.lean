import TrafficStats.Proofs.Shared.Schedule
import TrafficStats.Proofs.Total.Device
import TrafficStats.Proofs.Total.Gathered
import TrafficStats.Proofs.Total.Owners

/-!
# Totals while rows are added and raised

An enumeration is no snapshot. While the probe adds rows to a counter table and raises rows
of it, a total adds up rows that were read at different moments. Each of them was read after
the beginning and before the end, so the total lies between the total of the table at the
beginning and that of the table at the end.
-/

namespace TrafficStats

open Counters MemoryStore MemoryTables Query SharedTables Total

variable {K : Type} [Ranked K]

/-- Allowed edits do nothing to a table but add a row or raise one. -/
def OnlyRaises (allowed : MemoryTables → TableEdit → Bool) (field : TableField K RawCounters) :
    Prop :=
  ∀ tables e, allowed tables e = true → field.get (e.apply tables) = field.get tables ∨
    ∃ k raw, (field.get tables).raises k raw = true ∧
      field.get (e.apply tables) = (field.get tables).insert k raw

namespace Total

variable {allowed : MemoryTables → TableEdit → Bool} {field : TableField K RawCounters}
variable {start : MemoryStore K RawCounters} {keep : K → Query SharedTables Bool} {kept : K → Bool}
variable {steady : MemoryTables → Prop}

/-- A decision about rows that stays the same as long as `steady` holds of the tables. -/
def Decides (allowed : MemoryTables → TableEdit → Bool) (steady : MemoryTables → Prop)
    (keep : K → Query SharedTables Bool) (kept : K → Bool) : Prop :=
  ∀ k (pre : MemoryTables → Prop), Preserved allowed pre → (∀ tables, pre tables → steady tables) →
    Among allowed pre (keep k) fun answer tables => answer = kept k ∧ pre tables

/-- What is known of the tables while a total is worked through. -/
def Working (steady : MemoryTables → Prop) (field : TableField K RawCounters)
    (start : MemoryStore K RawCounters) (kept : K → Bool) (ahead : List K) (t : Total)
    (tables : MemoryTables) : Prop :=
  steady tables ∧ ∃ rows, Gathered start ahead rows (field.get tables) ∧
    t = ofKept kept (rows.map .ok)

theorem preserved_working (raises : OnlyRaises allowed field) (lasts : Preserved allowed steady)
    (start : MemoryStore K RawCounters) (kept : K → Bool) (ahead : List K) (t : Total) :
    Preserved allowed (Working steady field start kept ahead t) := by
  rintro tables e edit ⟨still, rows, gathered, eq⟩
  refine ⟨lasts tables e edit still, rows, ?_, eq⟩
  rcases raises tables e edit with same | ⟨k, raw, grows, stored⟩
  · rw [same]
    exact gathered
  · rw [stored]
    exact gathered.raise (gathered.sound.insert k raw) (raisedTo_insert grows)

/-- A total passes by no key: the rows that it has not read are still there. -/
theorem Working.eq_nil_of_absent {skipped later : List K} {t : Total} {tables : MemoryTables}
    (working : Working steady field start kept (skipped ++ later) t tables)
    (absent : ∀ k ∈ skipped, (field.get tables).rows.get? k = none) : skipped = [] := by
  cases skipped with
  | nil => rfl
  | cons k skipped =>
      obtain ⟨-, rows, gathered, -⟩ := working
      exact absurd (absent k List.mem_cons_self) (gathered.present k (by simp))

omit [Ranked K] in
theorem looks_addRow (name : TableName) (looks : ∀ k, Looks (keep k)) (t : Total)
    (r : RowResult K RawCounters) : Looks (addRow name keep t r) := by
  cases r with
  | error e => exact .of_quiet fun _ => rfl
  | ok row =>
      refine (looks row.1).bind fun answer => ?_
      cases answer with
      | true => exact .of_quiet fun _ => rfl
      | false => exact .of_quiet fun _ => rfl

/-- Taking the next row into a total. -/
theorem among_addRow (name : TableName) (raises : OnlyRaises allowed field)
    (lasts : Preserved allowed steady) (decides : Decides allowed steady keep kept)
    (start : MemoryStore K RawCounters) (k : K) (raw : RawCounters) (later : List K) (t : Total) :
    Among allowed
      (fun tables => Working steady field start kept (k :: later) t tables ∧
        (field.get tables).rows.get? k = some (.live raw))
      (addRow name keep t (.ok (k, raw))) (Working steady field start kept later) := by
  generalize added : (⟨t.counters + if kept k then raw.clamped else 0, t.skippedRows⟩ : Total) = t'
  have taken : ∀ tables, Working steady field start kept (k :: later) t tables ∧
      (field.get tables).rows.get? k = some (.live raw) →
        Working steady field start kept later t' tables := by
    rintro tables ⟨⟨still, rows, gathered, rfl⟩, found⟩
    refine ⟨still, rows ++ [(k, raw)], gathered.read found, ?_⟩
    rw [List.map_append, List.map_singleton, ofKept_concat_ok, added]
  have decided := decides k _ (preserved_working raises lasts start kept later t')
    fun tables working => working.1
  refine (decided.mono_pre taken).bind fun answer => ?_
  cases answer with
  | true =>
      refine .pure ?_
      rintro tables ⟨keeps, working⟩
      rw [← added, ← keeps] at working
      exact working
  | false =>
      refine .pure ?_
      rintro tables ⟨keeps, working⟩
      rw [← added, ← keeps] at working
      simpa using working

/-- Adding up the rows that are ahead, one after the other. -/
theorem among_foldRows (name : TableName) (lawful : field.Lawful)
    (raises : OnlyRaises allowed field) (lasts : Preserved allowed steady)
    (looks : ∀ k, Looks (keep k)) (decides : Decides allowed steady keep kept)
    (start : MemoryStore K RawCounters) (keys : List K) (t : Total) :
    Among allowed (Working steady field start kept keys t)
      ((access field).foldRows (addRow name keep) (keys.map .key) t)
      (Working steady field start kept []) := by
  have walks := looks_addRow name looks
  refine .foldRows lawful (preserved_working raises lasts start kept) ?_ ?_ walks keys t
  · intro keys t tables working absent
    rw [← List.append_nil keys] at working
    obtain rfl := working.eq_nil_of_absent absent
    exact working
  · intro skipped k later slot t
    cases slot with
    | malformed reason =>
        refine .of_false (walks t _) ?_
        rintro tables ⟨⟨-, rows, gathered, -⟩, -, found⟩
        obtain ⟨v, readable⟩ := gathered.sound.live k _ found
        cases readable
    | live raw =>
        refine (among_addRow name raises lasts decides start k raw later t).mono_pre ?_
        rintro tables ⟨working, absent, found⟩
        obtain rfl := working.eq_nil_of_absent absent
        exact ⟨working, found⟩

/-- A total over a table whose rows are only raised meanwhile adds up rows that lie between
those of the beginning and those of the end. -/
theorem among_ofRows (name : TableName) (lawful : field.Lawful) (raises : OnlyRaises allowed field)
    (lasts : Preserved allowed steady) (looks : ∀ k, Looks (keep k))
    (decides : Decides allowed steady keep kept) (sound : start.Sound) :
    Among allowed (fun tables => field.get tables = start ∧ steady tables)
      (ofRows name (access field) keep) fun answer tables =>
        ∃ t, answer = .ok t ∧ Working steady field start kept [] t tables := by
  have beforehand : ∀ tables, field.get tables = start ∧ steady tables →
      Working steady field start kept start.rows.keys zero tables := by
    rintro tables ⟨same, still⟩
    refine ⟨still, [], ?_, rfl⟩
    rw [same]
    exact .begin sound (.refl start)
  have started := Among.iterate lawful
    (preserved_working raises lasts start kept start.rows.keys zero)
  refine (started.mono_pre beforehand).bind fun answer => ?_
  cases answer with
  | error e =>
      refine .pure ?_
      rintro tables ⟨refused, -, rows, gathered, -⟩
      rw [gathered.sound.iterate_eq] at refused
      cases refused
  | ok c =>
      have opened : ∀ tables, .ok c = (field.get tables).iterate ∧
          Working steady field start kept start.rows.keys zero tables →
            ∃ keys : { keys // c = keys.map Pending.key },
              Working steady field start kept keys.1 zero tables := by
        rintro tables ⟨answered, still, rows, gathered, -⟩
        rw [gathered.sound.iterate_eq] at answered
        exact ⟨⟨_, Except.ok.inj answered⟩, still, [], .begin gathered.sound gathered.raised, rfl⟩
      have walks := looks_addRow name looks
      refine .mono_pre (.exists_pre (.map (.foldRows lawful walks c zero)) ?_) opened
      rintro ⟨keys, rfl⟩
      have added := among_foldRows name lawful raises lasts looks decides start keys zero
      exact .map (added.mono fun t tables working => ⟨t, rfl, working⟩)

end Total

/-- The edits that other processes make while a query is carried out, as they are scheduled. -/
def editsDuring {α : Type} (q : Query SharedTables α) (tables : MemoryTables)
    (schedule : List Intervention) : List TableEdit :=
  Intervention.editsBefore (q (.start ⟨tables, schedule, #[]⟩)).2.tables.history.toList schedule

/-- What the kept rows of a table sum up to. -/
def keptTotal (field : TableField K RawCounters) (kept : MemoryTables → K → Bool)
    (tables : MemoryTables) : Total :=
  (field.get tables).totalOf (kept tables)

/-- A total that is asked for while other processes act as scheduled, and that is to hold the rows
of a table that are kept. If all edits are of an allowed kind, it is complete, and each of its
counters lies between what the kept rows of the tables before and those of the tables after it sum
up to, where the latter is a number in the signed range. While nobody acts, these sums are what the
same query answers. -/
def Bracketed (allowed : MemoryTables → TableEdit → Bool) (tables : MemoryTables)
    (schedule : List Intervention) (q : Query SharedTables (Except QueryError Total))
    (field : TableField K RawCounters) (kept : MemoryTables → K → Bool) : Prop :=
  let outcome := q (.start ⟨tables, schedule, #[]⟩)
  let final := outcome.2.tables.tables
  Allows allowed tables (editsDuring q tables schedule) →
    final = tables.edit (editsDuring q tables schedule) ∧
    Gives tables q (.ok (keptTotal field kept tables)) ∧
    Gives final q (.ok (keptTotal field kept final)) ∧
    ∃ t, outcome.1 = .ok t ∧ t.isComplete = true ∧ ∀ counter ∈ Counters.fields,
      exactSum counter (keptCounters (kept final) (field.get final).liveRows) ≤
          0x7FFFFFFFFFFFFFFF →
        counter (keptTotal field kept tables).counters ≤ counter t.counters ∧
          counter t.counters ≤ counter (keptTotal field kept final).counters

/-- A total over a table of which rows are only added and raised. -/
theorem bracketed_ofRows {allowed : MemoryTables → TableEdit → Bool} {name : TableName}
    {field : TableField K RawCounters} {keep : K → Query SharedTables Bool}
    {kept : MemoryTables → K → Bool} {steady : MemoryTables → Prop} {tables : MemoryTables}
    (lawful : field.Lawful) (raises : OnlyRaises allowed field) (lasts : Preserved allowed steady)
    (looks : ∀ k, Looks (keep k)) (decides : Decides allowed steady keep (kept tables))
    (gives : ∀ now, (field.get now).unavailable = false → steady now →
      Gives now (ofRows name (access field) keep) (.ok (keptTotal field kept now)))
    (same : ∀ now, steady now → kept now = kept tables)
    (sound : (field.get tables).Sound) (before : steady tables) (schedule : List Intervention) :
    Bracketed allowed tables schedule (ofRows name (access field) keep) field kept := by
  intro all
  have among := among_ofRows name lawful raises lasts looks decides sound
  obtain ⟨moments, passes⟩ := among.looks (.start ⟨tables, schedule, #[]⟩)
  have history : _ = moments := passes.history
  rw [editsDuring, history] at all ⊢
  obtain ⟨t, answered, still, rows, gathered, rfl⟩ := among.answer _ _ passes all ⟨rfl, before⟩
  refine ⟨passes.tables, gives tables sound.available before,
    gives _ gathered.sound.available still, _, answered, ?_⟩
  rw [ofKept_map_ok]
  refine ⟨rfl, ?_⟩
  intro counter hcounter fits
  have isField := isField_of_mem hcounter
  obtain ⟨above, below⟩ := gathered.between
  rw [same _ still] at fits
  have fits' := Int.le_trans (below.exactSum_le _ isField) fits
  rw [keptTotal, keptTotal, same _ still]
  exact ⟨above.counter_le _ isField fits', below.counter_le _ isField fits⟩

namespace MemoryTables

/-- Whether an edit only adds or raises a row, if it concerns the detail table. -/
def raisesDetail (tables : MemoryTables) : TableEdit → Bool
  | .detail (.insert k raw) => tables.detail.raises k raw
  | .detail _ => false
  | _ => true

/-- Whether an edit only adds or raises a row, if it concerns the device table, and leaves the
names alone. -/
def raisesDevice (tables : MemoryTables) : TableEdit → Bool
  | .device (.insert k raw) => tables.device.raises k raw
  | .device _ => false
  | .ifaceNames _ => false
  | _ => true

theorem onlyRaises_raisesDetail : OnlyRaises raisesDetail .detail := by
  intro tables e allowed
  cases e with
  | detail e =>
      cases e with
      | insert k raw => exact .inr ⟨k, raw, allowed, rfl⟩
      | _ => cases allowed
  | _ => exact .inl rfl

theorem onlyRaises_raisesDevice : OnlyRaises raisesDevice .device := by
  intro tables e allowed
  cases e with
  | device e =>
      cases e with
      | insert k raw => exact .inr ⟨k, raw, allowed, rfl⟩
      | _ => cases allowed
  | _ => exact .inl rfl

theorem preserved_ifaceNames (names : MemoryStore UInt32 NameField) :
    Preserved raisesDevice fun tables => tables.ifaceNames = names := by
  intro tables e allowed same
  cases e with
  | ifaceNames e => cases allowed
  | _ => exact same

end MemoryTables

/-- A name is looked up as it is at that moment. -/
theorem among_resolve {allowed : MemoryTables → TableEdit → Bool} {pre : MemoryTables → Prop}
    (preserved : Preserved allowed pre) (ifaceIndex : UInt32) :
    Among allowed pre ((access .ifaceNames).resolve ifaceIndex) fun answer tables =>
      answer = tables.interfaceName? ifaceIndex ∧ pre tables := by
  refine (Among.read TableField.lawful_ifaceNames preserved ifaceIndex).bind fun answer => ?_
  cases answer with
  | ok field =>
      refine .pure ?_
      rintro tables ⟨answered, before⟩
      have read : tables.ifaceNames.read ifaceIndex = .ok field := answered.symm
      refine ⟨?_, before⟩
      rw [interfaceName?, read]
      rfl
  | error e =>
      refine (Among.of_quiet fun _ => rfl).bind fun _ => .pure ?_
      rintro tables ⟨answered, before⟩
      have read : tables.ifaceNames.read ifaceIndex = .error e := answered.symm
      refine ⟨?_, before⟩
      rw [interfaceName?, read]
      rfl

/-- If the names stay the same, so does what is decided by them. -/
theorem decides_ofNames (tables : MemoryTables) (chosen : Option String → Bool) :
    Decides raisesDevice (fun now => now.ifaceNames = tables.ifaceNames)
      (fun i => do pure (chosen (← (access .ifaceNames).resolve i)))
      fun i => chosen (tables.interfaceName? i) := by
  intro i pre preserved fixed
  refine (among_resolve preserved i).bind fun name => .pure ?_
  rintro now ⟨rfl, before⟩
  refine ⟨?_, before⟩
  rw [interfaceName?, fixed now before]
  rfl

variable {a : Accounting SharedTables}

/-- Totals that are taken while the probe writes: a total of an owner while rows are added to
the detail table and raised, and totals of interfaces by name while rows are added to the
device table and raised and the names stay the same. -/
structure TotalsBracketed (a : Accounting SharedTables) (tables : MemoryTables)
    (schedule : List Intervention) : Prop where
  ofOwner : tables.detail.unavailable = false → tables.detail.malformedRows = 0 → ∀ uid,
    Bracketed raisesDetail tables schedule (a.totalForOwner uid) .detail fun _ => countsFor uid
  ofName : tables.device.unavailable = false → tables.device.malformedRows = 0 → ∀ name,
    Bracketed raisesDevice tables schedule (a.totalForName name) .device fun now i =>
      now.interfaceName? i = some name
  named : tables.device.unavailable = false → tables.device.malformedRows = 0 →
    Bracketed raisesDevice tables schedule a.totalForNamed .device fun now i =>
      (now.interfaceName? i).isSome

theorem bracketed_totalForOwner (shared : a.tables = tableSet) {tables : MemoryTables}
    (sound : tables.detail.Sound) (schedule : List Intervention) (uid : UInt32) :
    Bracketed raisesDetail tables schedule (a.totalForOwner uid) .detail fun _ =>
      countsFor uid := by
  have given : ∀ now : MemoryTables, now.detail.unavailable = false → True →
      Gives now (a.totalForOwner uid) (.ok (now.totalOfOwner uid)) :=
    fun now available _ => gives_totalForOwner shared available uid
  have asked : a.totalForOwner uid =
      ofRows .detail (access .detail) fun k => pure (uid = uidAll ∨ k.uid = uid) := by
    show Total.forOwner a.tables.detail uid = _
    rw [shared]
    rfl
  rw [asked] at given ⊢
  refine bracketed_ofRows TableField.lawful_detail onlyRaises_raisesDetail ?_ ?_ ?_ given ?_ sound
    trivial schedule
  · intro tables e _ _
    trivial
  · intro k
    exact .of_quiet fun _ => rfl
  · intro k pre _ _
    exact .pure fun tables before => ⟨rfl, before⟩
  · intro now _
    rfl

/-- A total that chooses rows by names. -/
theorem bracketed_ofNames {tables : MemoryTables} (sound : tables.device.Sound)
    (schedule : List Intervention) (chosen : Option String → Bool) :
    Bracketed raisesDevice tables schedule
      (ofRows .device (access .device) fun i => do
        pure (chosen (← (access .ifaceNames).resolve i)))
      .device fun now i => chosen (now.interfaceName? i) := by
  refine bracketed_ofRows TableField.lawful_device onlyRaises_raisesDevice
    (preserved_ifaceNames tables.ifaceNames) ?_ (decides_ofNames tables chosen) ?_ ?_ sound rfl
    schedule
  · intro i
    have looked := among_resolve (preserved_ifaceNames tables.ifaceNames) i
    exact looked.looks.bind fun _ => .of_quiet fun _ => rfl
  · intro now available _
    exact gives_ofNames available chosen
  · intro now names
    funext i
    rw [interfaceName?, names]
    rfl

/-- They are bracketed, whatever is in the tables and whenever which rows are written. -/
theorem totals_bracketed (shared : a.tables = tableSet) (tables : MemoryTables)
    (schedule : List Intervention) : TotalsBracketed a tables schedule := by
  refine ⟨?_, ?_, ?_⟩
  · intro available wellFormed uid
    exact bracketed_totalForOwner shared (sound_of_malformedRows available wellFormed) schedule uid
  · intro available wellFormed name
    show Bracketed _ _ _ (Total.forName a.tables.device a.tables.ifaceNames name) _ _
    rw [shared]
    exact bracketed_ofNames (sound_of_malformedRows available wellFormed) schedule
      fun resolved => resolved = some name
  · intro available wellFormed
    show Bracketed _ _ _ (Total.forNamed a.tables.device a.tables.ifaceNames) _ _
    rw [shared]
    exact bracketed_ofNames (sound_of_malformedRows available wellFormed) schedule Option.isSome

/-- Two rows of one owner, two interfaces of one name, and the name of a third interface. -/
def twoOfEach : MemoryTables :=
  { MemoryTables.empty with
    detail := .ofList [(⟨10, 0, 5⟩, ⟨100, 1, 0, 0⟩), (⟨10, 1, 5⟩, ⟨200, 2, 0, 0⟩)]
    device := .ofList [(5, ⟨100, 1, 0, 0⟩), (6, ⟨200, 2, 0, 0⟩)]
    ifaceNames := .ofList [(5, .ofName "wlan0"), (6, .ofName "wlan0"), (7, .ofName "rmnet0")] }

/-- Before the second row of a table is visited, both rows are raised and a third one is
added. -/
def raisedMeanwhile : List Intervention :=
  [⟨.detail, .next, 2, [.detail (.insert ⟨10, 0, 5⟩ ⟨150, 2, 0, 0⟩),
      .detail (.insert ⟨10, 1, 5⟩ ⟨250, 3, 0, 0⟩), .detail (.insert ⟨10, 2, 5⟩ ⟨7, 1, 0, 0⟩)]⟩,
    ⟨.device, .next, 2, [.device (.insert 5 ⟨150, 2, 0, 0⟩), .device (.insert 6 ⟨250, 3, 0, 0⟩),
      .device (.insert 7 ⟨7, 1, 0, 0⟩)]⟩]

/-- What the example shows of a total: that the edits made meanwhile are allowed, that the sums
are in the signed range, that it has the first row as it was and the second as it is then, and what
the kept rows sum up to before the edits and after them. -/
structure Rises (allowed : MemoryTables → TableEdit → Bool)
    (q : Query SharedTables (Except QueryError Total)) (field : TableField K RawCounters)
    (kept : MemoryTables → K → Bool) (last : Counters) : Prop where
  allows : Allows allowed twoOfEach (editsDuring q twoOfEach raisedMeanwhile)
  fits : ∀ counter ∈ Counters.fields,
    exactSum counter (keptCounters (kept (twoOfEach.edit (editsDuring q twoOfEach raisedMeanwhile)))
        (field.get (twoOfEach.edit (editsDuring q twoOfEach raisedMeanwhile))).liveRows) ≤
      0x7FFFFFFFFFFFFFFF
  first : keptTotal field kept twoOfEach = ⟨⟨300, 3, 0, 0⟩, 0⟩
  answer : (q (.start ⟨twoOfEach, raisedMeanwhile, #[]⟩)).1 = .ok ⟨⟨350, 4, 0, 0⟩, 0⟩
  last : keptTotal field kept (twoOfEach.edit (editsDuring q twoOfEach raisedMeanwhile)) =
    ⟨last, 0⟩

/-- The third interface is in the last total of all names, but not in that of the one name. -/
theorem totals_bracketed_twoOfEach :
    TotalsBracketed (.new tableSet) twoOfEach raisedMeanwhile ∧
      Rises raisesDetail ((Accounting.new tableSet).totalForOwner 10) .detail
        (fun _ => countsFor 10) ⟨407, 6, 0, 0⟩ ∧
      Rises raisesDevice ((Accounting.new tableSet).totalForName "wlan0") .device
        (fun now i => now.interfaceName? i = some "wlan0") ⟨400, 5, 0, 0⟩ ∧
      Rises raisesDevice (Accounting.new tableSet).totalForNamed .device
        (fun now i => (now.interfaceName? i).isSome) ⟨407, 6, 0, 0⟩ := by
  refine ⟨totals_bracketed rfl twoOfEach raisedMeanwhile, ⟨?_, ?_, ?_, ?_, ?_⟩,
    ⟨?_, ?_, ?_, ?_, ?_⟩, ⟨?_, ?_, ?_, ?_, ?_⟩⟩
  all_goals decide +kernel

end TrafficStats
