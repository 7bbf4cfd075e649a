import TrafficStats.Proofs.Unnamed.Alerts
import TrafficStats.Proofs.Unnamed.Readings

/-!
# No row is counted twice

A tracker that is charged with rows only, and not with bytes from elsewhere, has added up
what these rows have counted: every reading adds the growth of its row since the last
one, however often and in whatever order the rows are read. `Counted` is the invariant
that says so in exact numbers; the signed arithmetic of the tracker never leaves its range
on the way. It is kept by every reading and therefore holds in every such run.
-/

namespace TrafficStats

variable {σ : Type}

/-- The growth that a tracker computes is the exact one. -/
theorem Tracker.toInt_growth {last bytes : Int64} {l b : Nat} (hl : last.toInt = l)
    (hb : bytes.toInt = b) : (growth last bytes).toInt = exactGrowth l b := by
  have bound := bytes.toInt_lt
  unfold growth exactGrowth
  by_cases h : last ≤ bytes
  · have hle : l ≤ b := by
      rw [Int64.le_iff_toInt_le, hl, hb] at h
      omega
    rw [if_pos h, if_pos hle, Int64.toInt_sub, hl, hb, Int.bmod_eq_of_le (by omega) (by omega)]
    omega
  · have less : ¬ l ≤ b := by
      rw [Int64.le_iff_toInt_le, hl, hb] at h
      omega
    rw [if_neg h, if_neg less, hb]

/-- Adding to an exact sum either brings it to the threshold, which raises an alert, or leaves it
exact. -/
theorem Tracker.add_exact_cases (t : Tracker) (ifaceIndex : UInt32) {total bytes : Int64}
    {before grown after : Nat} (adding : t.state = .accumulating total)
    (hbefore : total.toInt = before) (hgrown : bytes.toInt = grown)
    (hafter : after = before + grown) :
    (t.threshold.toInt ≤ after ∧ ∃ undercount : Int64,
        undercount.toInt = min after 0x7FFFFFFFFFFFFFFF ∧
        t.add ifaceIndex bytes = ({ t with state := .suppressed }, some ⟨ifaceIndex, undercount⟩)) ∨
      (after < t.threshold.toInt ∧ ∃ total' : Int64, total'.toInt = after ∧
        t.add ifaceIndex bytes = ({ t with state := .accumulating total' }, none)) := by
  have bound := t.threshold.toInt_lt
  have cut : (saturatingAdd total bytes).toInt = min after 0x7FFFFFFFFFFFFFFF := by
    rw [toInt_saturatingAdd, hbefore, hgrown]
    omega
  obtain ⟨silent, -⟩ | ⟨total', adding', outcome⟩ := t.add_cases ifaceIndex bytes
  · rw [adding] at silent
    cases silent
  · rw [adding] at adding'
    cases adding'
    rw [Int64.le_iff_toInt_le, cut] at outcome
    obtain ⟨reaches, eq⟩ | ⟨remains, eq⟩ := outcome
    · exact .inl ⟨by omega, _, cut, eq⟩
    · exact .inr ⟨by omega, _, by omega, eq⟩

/-- What adding growth to an exact sum comes to: the sum stays exact unless it reaches the
threshold, and then the alert carries it, cut off at the end of the signed range. -/
theorem Tracker.add_exact (t : Tracker) (ifaceIndex : UInt32) {total bytes : Int64}
    {before growth after : Nat} (adding : t.state = .accumulating total)
    (hbefore : total.toInt = before) (hgrowth : bytes.toInt = growth)
    (hafter : after = before + growth) :
    (∀ total', (t.add ifaceIndex bytes).1.state = .accumulating total' → total'.toInt = after) ∧
      ((t.add ifaceIndex bytes).1.state = .suppressed → t.threshold.toInt ≤ after) ∧
      ∀ raised, (t.add ifaceIndex bytes).2 = some raised ↔ t.threshold.toInt ≤ after ∧
        raised.ifaceIndex = ifaceIndex ∧
        raised.undercount.toInt = min after 0x7FFFFFFFFFFFFFFF := by
  obtain ⟨reaches, undercount, cut, eq⟩ | ⟨remains, total', exact', eq⟩ :=
    t.add_exact_cases ifaceIndex adding hbefore hgrowth hafter
  · rw [eq]
    refine ⟨nofun, fun _ => reaches, ?_⟩
    intro raised
    constructor
    · intro h
      cases h
      exact ⟨reaches, rfl, cut⟩
    · rintro ⟨-, index, undercount'⟩
      obtain ⟨index', undercount''⟩ := raised
      rw [← cut, Int64.toInt_inj] at undercount'
      rw [← index, ← undercount']
  · rw [eq]
    refine ⟨?_, nofun, ?_⟩
    · intro total'' h
      cases h
      exact exact'
    · intro raised
      constructor
      · exact nofun
      · intro h
        omega

namespace TrackerCall

/-- The row that a call read, and what the reading came to. -/
def reading? : TrackerCall → Option (RowId × Nat)
  | .row _ r (some raw) => some (r, raw.reading)
  | _ => none

def readings (calls : List TrackerCall) : List (RowId × Nat) :=
  calls.filterMap reading?

/-- The call that comes first, if it adds bytes. -/
def recordNext : List TrackerCall → Option (UInt32 × Int64 × Option Alert)
  | .record ifaceIndex bytes alert :: _ => some (ifaceIndex, bytes, alert)
  | _ => none

@[simp] theorem readings_concat_unread (calls : List TrackerCall) (ifaceIndex : UInt32)
    (row : RowId) : readings (calls ++ [.row ifaceIndex row none]) = readings calls := by
  simp [readings, reading?]

@[simp] theorem readings_concat_read (calls : List TrackerCall) (ifaceIndex : UInt32)
    (row : RowId) (raw : RawCounters) :
    readings (calls ++ [.row ifaceIndex row (some raw)]) =
      readings calls ++ [(row, raw.reading)] := by
  simp [readings, reading?]

@[simp] theorem readings_concat_record (calls : List TrackerCall) (ifaceIndex : UInt32)
    (bytes : Int64) (alert : Option Alert) :
    readings (calls ++ [.record ifaceIndex bytes alert]) = readings calls := by
  simp [readings, reading?]

/-- What comes right after is not changed by a row that comes later. -/
theorem recordNext_append_row (later more : List TrackerCall) (ifaceIndex : UInt32)
    (row : RowId) (reading : Option RawCounters) :
    recordNext (later ++ .row ifaceIndex row reading :: more) = recordNext later := by
  cases later with
  | nil => rfl
  | cons call later =>
      cases call with
      | record => rfl
      | row => rfl

end TrackerCall

open TrackerCall

/-- A reading that comes after some calls is charged exactly: if its row grew, the growth is
recorded right away, and it raises an alert if what all rows have counted reaches the
threshold by now; if the row did not grow, nothing is recorded. -/
def ChargedExactly (threshold : Int64) (before : List TrackerCall) (ifaceIndex : UInt32)
    (row : RowId) (raw : RawCounters) (later : List TrackerCall) : Prop :=
  let growth := exactGrowth (latest row (readings before)) raw.reading
  let total := exactTotal (readings before ++ [(row, raw.reading)])
  (growth = 0 ∧ recordNext later = none) ∨
    (0 < growth ∧ ∃ bytes alert, recordNext later = some (ifaceIndex, bytes, alert) ∧
      bytes.toInt = growth ∧
      ∀ raised, alert = some raised ↔ threshold.toInt ≤ total ∧
        raised.ifaceIndex = ifaceIndex ∧ raised.undercount.toInt = min total 0x7FFFFFFFFFFFFFFF)

/-- What is true of the calls of a context without records from elsewhere, and of the tracker
to which they lead. -/
structure Counted (threshold : Int64) (calls : List TrackerCall) (t : Tracker) : Prop where
  latest : ∀ row, (t.lastReading row).toInt = latest row (readings calls)
  adding : ∀ total, t.state = .accumulating total → total.toInt = exactTotal (readings calls)
  silent : t.state = .suppressed → threshold.toInt ≤ exactTotal (readings calls)
  charged : ∀ before ifaceIndex row raw later,
    calls = before ++ .row ifaceIndex row (some raw) :: later →
      ChargedExactly threshold before ifaceIndex row raw later

namespace Counted

variable {threshold : Int64} {calls : List TrackerCall} {t : Tracker}

theorem start (threshold : Int64) (sink : AlertSink) :
    Counted threshold [] (.new threshold sink) := by
  refine ⟨?_, ?_, ?_, ?_⟩
  · intro row
    rfl
  · intro total adding
    cases adding
    rfl
  · intro silent
    cases silent
  · intro before ifaceIndex row raw later split
    simp at split

/-- How earlier readings were charged is not changed by one more row. -/
theorem charged_concat_row (h : Counted threshold calls t) {ifaceIndex : UInt32} {row : RowId}
    {reading : Option RawCounters}
    (last : ∀ raw, reading = some raw → ChargedExactly threshold calls ifaceIndex row raw []) :
    ∀ before ifaceIndex' row' raw' later,
      calls ++ [.row ifaceIndex row reading] =
          before ++ .row ifaceIndex' row' (some raw') :: later →
        ChargedExactly threshold before ifaceIndex' row' raw' later := by
  intro before ifaceIndex' row' raw' later split
  rcases concat_split split with ⟨rfl, eq, rfl⟩ | ⟨later', rfl, eq⟩
  · cases eq
    exact last raw' rfl
  · rw [ChargedExactly, recordNext_append_row]
    exact h.charged before ifaceIndex' row' raw' later' eq

/-- Nor is it changed by one more reading and the record of its growth. -/
theorem charged_concat_record (h : Counted threshold calls t) {ifaceIndex : UInt32}
    {row : RowId} {raw : RawCounters} {bytes : Int64} {alert : Option Alert}
    (last : ChargedExactly threshold calls ifaceIndex row raw [.record ifaceIndex bytes alert]) :
    ∀ before ifaceIndex' row' raw' later,
      calls ++ [.row ifaceIndex row (some raw)] ++ [.record ifaceIndex bytes alert] =
          before ++ .row ifaceIndex' row' (some raw') :: later →
        ChargedExactly threshold before ifaceIndex' row' raw' later := by
  intro before ifaceIndex' row' raw' later split
  rcases concat_split split with ⟨-, eq, -⟩ | ⟨later', rfl, front⟩
  · cases eq
  · rcases concat_split front with ⟨rfl, eq, rfl⟩ | ⟨later'', rfl, eq⟩
    · cases eq
      exact last
    · rw [ChargedExactly, List.append_assoc, List.singleton_append, recordNext_append_row]
      exact h.charged before ifaceIndex' row' raw' later'' eq

theorem unread (h : Counted threshold calls t) (ifaceIndex : UInt32) (row : RowId) :
    Counted threshold (calls ++ [.row ifaceIndex row none]) t := by
  have same := readings_concat_unread calls ifaceIndex row
  refine ⟨?_, ?_, ?_, h.charged_concat_row ?_⟩
  · rw [same]
    exact h.latest
  · rw [same]
    exact h.adding
  · rw [same]
    exact h.silent
  · intro raw absent
    cases absent

variable (row : RowId) (raw : RawCounters)

/-- What the row of a reading grew by, in the arithmetic of the tracker. -/
theorem toInt_growth (h : Counted threshold calls t) :
    (Tracker.growth (t.lastReading row) raw.clamped.totalBytes).toInt =
      exactGrowth (TrafficStats.latest row (readings calls)) raw.reading :=
  Tracker.toInt_growth (h.latest row) raw.toInt_totalBytes

theorem latest_noteReading (h : Counted threshold calls t) (row' : RowId) :
    ((t.noteReading row raw.clamped.totalBytes).lastReading row').toInt =
      TrafficStats.latest row' (readings calls ++ [(row, raw.reading)]) := by
  rw [Tracker.lastReading_noteReading, latest_concat]
  split
  · exact raw.toInt_totalBytes
  · exact h.latest row'

theorem still (h : Counted threshold calls t) (ifaceIndex : UInt32)
    (active : t.state ≠ .suppressed)
    (same : ¬ 0 < Tracker.growth (t.lastReading row) raw.clamped.totalBytes) :
    Counted threshold (calls ++ [.row ifaceIndex row (some raw)])
      (t.noteReading row raw.clamped.totalBytes) := by
  have growth := h.toInt_growth row raw
  have none : exactGrowth (TrafficStats.latest row (readings calls)) raw.reading = 0 := by
    rw [Int64.lt_iff_toInt_lt, growth, Int64.toInt_zero] at same
    omega
  refine ⟨?_, ?_, ?_, h.charged_concat_row ?_⟩
  · rw [readings_concat_read]
    exact h.latest_noteReading row raw
  · intro total adding
    rw [readings_concat_read, exactTotal_concat, none]
    exact h.adding total adding
  · intro silent
    exact absurd silent active
  · intro raw' eq
    cases eq
    exact .inl ⟨none, rfl⟩

/-- A reading of a row that grew, with the record of its growth. -/
theorem grown (h : Counted threshold calls t) (settings : t.threshold = threshold)
    (ifaceIndex : UInt32) (active : t.state ≠ .suppressed) {noted : Tracker} {bytes : Int64}
    (hbytes : bytes = Tracker.growth (t.lastReading row) raw.clamped.totalBytes)
    (grown : 0 < bytes) (hnoted : noted = t.noteReading row raw.clamped.totalBytes) :
    Counted threshold (calls ++ [.row ifaceIndex row (some raw),
        .record ifaceIndex bytes (noted.add ifaceIndex bytes).2])
      (noted.add ifaceIndex bytes).1 := by
  cases hstate : t.state with
  | suppressed => exact absurd hstate active
  | accumulating total =>
      have growth : bytes.toInt =
          exactGrowth (TrafficStats.latest row (readings calls)) raw.reading := by
        rw [hbytes]
        exact h.toInt_growth row raw
      have adding : noted.state = .accumulating total := by
        rw [hnoted]
        exact hstate
      have same : noted.threshold = threshold := by
        rw [hnoted]
        exact settings
      obtain ⟨exact', reached, raises⟩ := noted.add_exact ifaceIndex adding
        (h.adding total hstate) growth (exactTotal_concat (readings calls) row raw.reading)
      rw [same] at reached raises
      have now : readings (calls ++ [.row ifaceIndex row (some raw)] ++
          [.record ifaceIndex bytes (noted.add ifaceIndex bytes).2]) =
            readings calls ++ [(row, raw.reading)] := by
        rw [readings_concat_record, readings_concat_read]
      rw [List.append_cons]
      refine ⟨?_, ?_, ?_, h.charged_concat_record ?_⟩
      · intro row'
        rw [now, Tracker.add_fst, hnoted]
        exact h.latest_noteReading row raw row'
      · rw [now]
        exact exact'
      · rw [now]
        exact reached
      · rw [Int64.lt_iff_toInt_lt, growth, Int64.toInt_zero] at grown
        exact .inr ⟨by omega, bytes, _, rfl, growth, raises⟩

/-- As long as no alert was raised, the tracker holds what all rows have counted. -/
theorem exists_total (h : Counted threshold calls t) (watched : Watched threshold calls t.state)
    (quiet : alerts calls = []) :
    ∃ total, t.state = .accumulating total ∧ total.toInt = exactTotal (readings calls) := by
  cases hstate : t.state with
  | accumulating total => exact ⟨total, rfl, h.adding total hstate⟩
  | suppressed => exact absurd quiet (watched.suppressed_iff.mp hstate)

/-- With a positive threshold, this lasts as long as the sum is below it. -/
theorem alerts_eq_nil_iff (h : Counted threshold calls t)
    (watched : Watched threshold calls t.state) (positive : 0 < threshold) :
    alerts calls = [] ↔ exactTotal (readings calls) < threshold.toInt := by
  constructor
  · intro quiet
    obtain ⟨total, adding, exact'⟩ := h.exists_total watched quiet
    have below := watched.lt_of_accumulating positive adding
    rwa [Int64.lt_iff_toInt_lt, exact'] at below
  · intro below
    by_contra raises
    have reached := h.silent (watched.suppressed_iff.mpr raises)
    omega

end Counted

/-- Without records from elsewhere, every context counts exactly. -/
theorem Tracked.counted {threshold : Int64} {sink : AlertSink} {calls : List TrackerCall}
    {t : Tracker} (h : Tracked false (.new threshold sink) calls t) :
    Counted threshold calls t := by
  induction h with
  | start => exact .start threshold sink
  | record _ _ _ allowed _ => cases allowed
  | unread ifaceIndex row _ ih => exact ih.unread ifaceIndex row
  | still ifaceIndex row raw _ active same ih => exact ih.still row raw ifaceIndex active same
  | grown ifaceIndex row raw prior active hbytes grown hnoted ih =>
      exact ih.grown row raw prior.settings_eq.1 ifaceIndex active hbytes grown hnoted

/-- The first reading that brings the sum to the threshold raises the alert. -/
theorem ChargedExactly.alert_of_reaches {threshold : Int64} {before later : List TrackerCall}
    {ifaceIndex : UInt32} {row : RowId} {raw : RawCounters}
    (h : ChargedExactly threshold before ifaceIndex row raw later)
    (below : exactTotal (readings before) < threshold.toInt)
    (reaches : threshold.toInt ≤ exactTotal (readings before ++ [(row, raw.reading)])) :
    ∃ bytes undercount,
      recordNext later = some (ifaceIndex, bytes, some ⟨ifaceIndex, undercount⟩) ∧
        undercount.toInt =
          min (exactTotal (readings before ++ [(row, raw.reading)])) 0x7FFFFFFFFFFFFFFF := by
  rcases h with ⟨none, -⟩ | ⟨-, bytes, alert, next, -, raises⟩
  · rw [exactTotal_concat, none] at reaches
    omega
  · generalize hsum : exactTotal (readings before ++ [(row, raw.reading)]) = sum at *
    generalize hcut : Int64.ofInt (min sum 0x7FFFFFFFFFFFFFFF) = undercount
    have cut : undercount.toInt = min sum 0x7FFFFFFFFFFFFFFF := by
      rw [← hcut, Int64.toInt_ofInt_of_le (by omega) (by omega)]
      omega
    have raised := (raises ⟨ifaceIndex, undercount⟩).mpr ⟨reaches, rfl, cut⟩
    exact ⟨bytes, undercount, by rw [next, raised], cut⟩

/-- What a context without records from elsewhere promises: its calls are those of its steps; as
long as no alert was raised, the tracker holds what all rows have counted; with a positive
threshold this lasts as long as the sum is below it, and the first reading that brings the sum
to it raises the alert; every reading is charged with the exact growth of its row; and of rows
that only grow, the sum is that of their latest readings. -/
def CountsExactly (a : Accounting σ) (threshold : Int64) (sink : AlertSink) (s : Session σ)
    (earlier context : List (TrackerStep σ)) : Prop :=
  let before := TrackerStep.runNew a threshold sink earlier s
  let now := TrackerStep.runNew a threshold sink (earlier ++ context) s
  ∃ calls, now.2.calls.toList = before.2.calls.toList ++ calls ∧
    TrackerStep.Noted a context before.1 before.2 calls ∧
    now.2.raised sink = before.2.raised sink ++ alerts calls ∧
    (alerts calls = [] → ∃ total, now.1.state = .accumulating total ∧
      total.toInt = exactTotal (readings calls)) ∧
    (0 < threshold → (alerts calls = [] ↔ exactTotal (readings calls) < threshold.toInt)) ∧
    (∀ front ifaceIndex row raw later,
      calls = front ++ .row ifaceIndex row (some raw) :: later →
        ChargedExactly threshold front ifaceIndex row raw later ∧
        (exactTotal (readings front) < threshold.toInt →
          threshold.toInt ≤ exactTotal (readings front ++ [(row, raw.reading)]) →
          ∃ bytes undercount,
            recordNext later = some (ifaceIndex, bytes, some ⟨ifaceIndex, undercount⟩) ∧
            undercount.toInt = min (exactTotal (readings front ++ [(row, raw.reading)]))
              0x7FFFFFFFFFFFFFFF)) ∧
    ((∀ row, (readingsOf row (readings calls)).Pairwise (· ≤ ·)) →
      exactTotal (readings calls) =
        ∑ row ∈ ((readings calls).map Prod.fst).toFinset, latest row (readings calls))

/-- Every context without records from elsewhere keeps that promise, whatever happens to the
tables. -/
theorem countsExactly (a : Accounting σ) (threshold : Int64) (sink : AlertSink) (s : Session σ)
    {earlier context : List (TrackerStep σ)} (begins : TrackerStep.Begins earlier)
    (noReset : ∀ step ∈ context, step.isReset = false)
    (noRecord : ∀ step ∈ context, step.isRecord = false) :
    CountsExactly a threshold sink s earlier context := by
  have allowed : ∀ step ∈ context, step.isRecord = true → false = true := by
    intro step hstep isRecord
    rw [← noRecord step hstep, isRecord]
  obtain ⟨calls, tracked, trace, raised⟩ := TrackerStep.exists_tracked a false threshold sink s
    begins noReset allowed
  have watched := tracked.watched
  have counted := tracked.counted
  have noted := TrackerStep.noted_of_runNew a threshold sink s trace
  refine ⟨calls, trace, noted, raised, counted.exists_total watched,
    counted.alerts_eq_nil_iff watched, ?_, exactTotal_of_growing⟩
  intro front ifaceIndex row raw later split
  have charged := counted.charged front ifaceIndex row raw later split
  exact ⟨charged, charged.alert_of_reaches⟩

/-- Somebody else lets the unnamed row grow to 110 bytes. -/
def growRow (s : SharedTables) : SharedTables :=
  { s with tables := s.tables.edit [.detail (.insert ⟨1, 0, 7⟩ ⟨50, 2, 60, 2⟩)] }

/-- The row is read in a report and once more when it has grown. -/
def readAgain : List (TrackerStep SharedTables) :=
  [.detailReport, .edit growRow, .detailRow 7 ⟨1, 0, 7⟩]

/-- A row that is read with 60 bytes, and then with 110, counts 110 bytes and not 170. -/
theorem countsExactly_grown_row :
    CountsExactly (.new SharedTables.tableSet) 100 .keep (.start (.quiet unnamedRow)) []
        readAgain ∧
      (TrackerStep.runNew (.new SharedTables.tableSet) 100 .keep readAgain
        (.start (.quiet unnamedRow))).2.raised .keep = [⟨7, 110⟩] := by
  refine ⟨countsExactly _ _ _ _ (.inl rfl) ?_ ?_, by decide +kernel⟩
  · simp [readAgain, TrackerStep.isReset]
  · simp [readAgain, TrackerStep.isRecord]

end TrafficStats
