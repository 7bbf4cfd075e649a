import TrafficStats.Proofs.Table.Registered

/-!
# Reading a report once more

A reading that reaches its end leaves a tracker that is silent or has the present reading of
every unnamed row. Read once more, rows that have not changed have not grown, so nothing is added to
such a tracker (`ensures_read_settled`).
-/

namespace TrafficStats

open Query RowResult

variable {σ K : Type} {steady : σ → Prop}

namespace Tracker

/-- A row that is read as it was last read has not grown. -/
theorem growth?_of_lastReading {t : Tracker} {row : RowId} {raw : RawCounters}
    (same : t.lastReading row = raw.clamped.totalBytes) : t.growth? row raw = none := by
  have still : growth raw.clamped.totalBytes raw.clamped.totalBytes = 0 := by
    rw [growth, if_pos (Int64.le_refl _), Int64.sub_self]
  rw [growth?, same, still]
  rfl

theorem ensures_takeReading_lastReading (t : Tracker) (ifaceIndex : UInt32) (row : RowId)
    (raw : RawCounters) :
    Ensures steady (t.takeReading ifaceIndex row raw) fun t' => ∀ row',
      t'.lastReading row' = if row' = row then raw.clamped.totalBytes else t.lastReading row' := by
  refine .quiet_bind (fun _ => rfl) fun _ => ?_
  simp only
  split
  · intro s hs
    obtain ⟨-, still⟩ := ensures_record (t.noteReading row raw.clamped.totalBytes) ifaceIndex
      (growth (t.lastReading row) raw.clamped.totalBytes) s hs
    refine ⟨fun row' => ?_, still⟩
    rw [(record_spec _ _ _ s).1, add_fst]
    exact t.lastReading_noteReading row row' _
  · exact .pure fun row' => t.lastReading_noteReading row row' _

/-- After a row was charged, the tracker has its reading, unless it was silent before. -/
theorem ensures_recordRow_lastReading (t : Tracker) (ifaceIndex : UInt32)
    {table : TableAccess σ K RawCounters} {k : K} {raw : RawCounters}
    (read : Ensures steady (onTables (table.read k)) (· = .ok (some raw))) (rowId : K → RowId) :
    Ensures steady (t.recordRow ifaceIndex table rowId k) fun t' =>
      t.state = .suppressed ∧ t' = t ∨ t.state ≠ .suppressed ∧ ∀ row', t'.lastReading row' =
        if row' = rowId k then raw.clamped.totalBytes else t.lastReading row' := by
  unfold recordRow
  split
  · rename_i silent
    exact .quiet_bind (fun _ => rfl) fun _ => .pure (.inl ⟨silent, rfl⟩)
  · rename_i active
    apply read.bind
    rintro answer rfl
    exact (t.ensures_takeReading_lastReading ifaceIndex (rowId k) raw).mono
      fun _ reads => .inr ⟨active, reads⟩

end Tracker

namespace CounterTable

variable (source : CounterTable σ K) (name? : UInt32 → Option String)

/-- A tracker that is silent, or has the present reading of every unnamed row. -/
def Settled (rows : List (K × RawCounters)) (t : Tracker) : Prop :=
  t.state = .suppressed ∨ ∀ row ∈ rows, name? (source.ifaceIndex row.1) = none →
    t.lastReading (source.rowId row.1) = row.2.clamped.totalBytes

variable {source name?} {rows : List (K × RawCounters)} {t : Tracker}

/-- Such a tracker is owed nothing that would change its state. -/
theorem Settled.addAll_chargeable (h : source.Settled name? rows t) :
    t.state.addAll t.threshold (source.chargeable name? t rows) = t.state := by
  rcases h with silent | known
  · rw [silent, TrackerState.addAll_suppressed]
  · have nothing : source.chargeable name? t rows = [] := by
      refine List.filterMap_eq_nil_iff.mpr fun row mem => ?_
      unfold chargeable?
      split
      · rfl
      · rename_i unnamed
        exact Tracker.growth?_of_lastReading (known row mem unnamed)
    rw [nothing]
    rfl

/-- Another named row owes nothing. -/
theorem Settled.spared (h : source.Settled name? rows t) {row : K × RawCounters}
    (isNamed : (name? (source.ifaceIndex row.1)).isSome) :
    source.Settled name? (rows ++ [row]) t := by
  refine h.imp_right fun known other mem unnamed => ?_
  rcases List.mem_append.mp mem with mem | mem
  · exact known other mem unnamed
  · rw [List.mem_singleton.mp mem] at unnamed
    rw [unnamed] at isNamed
    cases isNamed

/-- Charging another row settles the tracker with it, and unsettles it with no other row. -/
theorem Settled.ensures_charged (h : source.Settled name? rows t)
    (distinct : Function.Injective source.rowId) {row : K × RawCounters}
    (new : row.1 ∉ rows.map Prod.fst)
    (read : Ensures steady (onTables (source.access.read row.1)) (· = .ok (some row.2))) :
    Ensures steady (t.recordRow (source.ifaceIndex row.1) source.access source.rowId row.1)
      (source.Settled name? (rows ++ [row])) := by
  refine (t.ensures_recordRow_lastReading _ read source.rowId).mono fun t' outcome => ?_
  rcases outcome with ⟨silent, rfl⟩ | ⟨active, reads⟩
  · exact .inl silent
  · have known := h.resolve_left active
    refine .inr fun other mem unnamed => ?_
    rw [reads]
    rcases List.mem_append.mp mem with mem | mem
    · have differs : source.rowId other.1 ≠ source.rowId row.1 := by
        intro same
        exact new (distinct same ▸ List.mem_map_of_mem mem)
      rw [if_neg differs]
      exact known other mem unnamed
    · rw [List.mem_singleton.mp mem, if_pos rfl]

end CounterTable

namespace Report

variable {source : CounterTable σ K} {names : TableAccess σ UInt32 NameField}
variable {name? : UInt32 → Option String} {t : Tracker}

/-- A reading that reaches the end of its table settles the tracker, and leaves one that was
settled before in its state. -/
theorem ensures_read_settled (distinct : Function.Injective source.rowId)
    {rows : List (K × RawCounters)} (has : source.access.HasReadable steady rows)
    (named : ∀ i, Ensures steady (names.resolve i) (· = name? i)) (t : Tracker) :
    Ensures steady (Report.read source names t) fun outcome =>
      source.Settled name? rows outcome.2 ∧
        (source.Settled name? rows t → outcome.2.state = t.state) := by
  obtain ⟨read, delivered, shows, perm, nodup, present⟩ := has
  have nodup' := (perm.map Prod.fst).nodup_iff.mpr nodup
  have present' : ∀ row ∈ readable delivered, read row.1 = .ok (some row.2) :=
    fun row mem => present row (perm.mem_iff.mp mem)
  have settles := ensures_read_tracker (t := t) shows nodup' present' named
    (source.Settled name?) (.inr nofun) (fun _ _ _ isNamed h => h.spared isNamed)
    fun _ _ _ _ new read h => h.ensures_charged distinct new read
  have charges := ensures_read_charged distinct shows nodup' present' named t
  have same (t' : Tracker) :
      source.Settled name? (readable delivered) t' ↔ source.Settled name? rows t' := by
    simp only [CounterTable.Settled, perm.mem_iff]
  intro s hs
  obtain ⟨after, still⟩ := settles s hs
  obtain ⟨charged, -⟩ := charges s hs
  refine ⟨⟨(same _).mp after, fun before => ?_⟩, still⟩
  exact charged.state.trans ((same t).mpr before).addAll_chargeable

end Report

end TrafficStats
