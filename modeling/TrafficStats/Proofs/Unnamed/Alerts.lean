import TrafficStats.Proofs.Unnamed.Steps
import TrafficStats.Shared.Access

/-!
# The one alert of a tracking context

In a tracking context the recorded bytes are added up, and the first record whose sum
reaches the threshold raises an alert with that sum; the tracker is silent from then on.
`Watched` is the invariant that says so of the calls until now. It is kept by every call
on the tracker and therefore holds in every run.
-/

namespace TrafficStats

variable {σ : Type}

/-- The sum of recorded bytes, cut off at the ends of the signed range after each step. -/
def runningSum (bytes : List Int64) : Int64 :=
  bytes.foldl saturatingAdd 0

/-- Whether the running sum stays below a threshold throughout. -/
def StaysBelow (threshold : Int64) (bytes : List Int64) : Prop :=
  ∀ front, front <+: bytes → front ≠ [] → runningSum front < threshold

theorem runningSum_concat (bytes : List Int64) (b : Int64) :
    runningSum (bytes ++ [b]) = saturatingAdd (runningSum bytes) b := by
  rw [runningSum, List.foldl_append]
  rfl

theorem staysBelow_nil (threshold : Int64) : StaysBelow threshold [] := by
  intro front hfront nonempty
  exact absurd (List.prefix_nil.mp hfront) nonempty

theorem staysBelow_concat {threshold : Int64} {bytes : List Int64} {b : Int64} :
    StaysBelow threshold (bytes ++ [b]) ↔
      StaysBelow threshold bytes ∧ runningSum (bytes ++ [b]) < threshold := by
  constructor
  · intro h
    constructor
    · intro front hfront
      exact h front (hfront.trans (List.prefix_append bytes [b]))
    · exact h _ (List.prefix_refl _) (by simp)
  · rintro ⟨before, last⟩ front hfront nonempty
    rcases List.prefix_concat_iff.mp hfront with rfl | hfront
    · exact last
    · exact before front hfront nonempty

namespace TrackerCall

def bytes? : TrackerCall → Option Int64
  | .record _ bytes _ => some bytes
  | .row .. => none

def recorded (calls : List TrackerCall) : List Int64 :=
  calls.filterMap bytes?

@[simp] theorem recorded_concat_row (calls : List TrackerCall) (ifaceIndex : UInt32)
    (row : RowId) (reading : Option RawCounters) :
    recorded (calls ++ [.row ifaceIndex row reading]) = recorded calls := by
  simp [recorded, bytes?]

@[simp] theorem recorded_concat_record (calls : List TrackerCall) (ifaceIndex : UInt32)
    (bytes : Int64) (alert : Option Alert) :
    recorded (calls ++ [.record ifaceIndex bytes alert]) = recorded calls ++ [bytes] := by
  simp [recorded, bytes?]

/-- A call in a list with one more call is the last one or was there before. -/
theorem concat_split {calls before later : List TrackerCall} {last call : TrackerCall}
    (h : calls ++ [last] = before ++ call :: later) :
    (before = calls ∧ call = last ∧ later = []) ∨
      ∃ later', later = later' ++ [last] ∧ calls = before ++ call :: later' := by
  rcases List.eq_nil_or_concat later with rfl | ⟨later', last', rfl⟩
  · obtain ⟨rfl, eq⟩ := List.append_inj' h rfl
    cases eq
    exact .inl ⟨rfl, rfl, rfl⟩
  · rw [List.concat_eq_append, ← List.cons_append, ← List.append_assoc] at h
    obtain ⟨front, eq⟩ := List.append_inj' h rfl
    cases eq
    exact .inr ⟨later', List.concat_eq_append, front⟩

end TrackerCall

open TrackerCall

/-- A record that comes after some calls raises the right alert: none, unless it is the first
whose sum reaches the threshold; then one with the index of the record and the sum. -/
def AlertsRightly (threshold : Int64) (before : List TrackerCall) (ifaceIndex : UInt32)
    (bytes : Int64) (alert : Option Alert) : Prop :=
  ∀ raised, alert = some raised ↔ StaysBelow threshold (recorded before) ∧
    threshold ≤ runningSum (recorded before ++ [bytes]) ∧
    raised = ⟨ifaceIndex, runningSum (recorded before ++ [bytes])⟩

/-- What is true of the calls of a context and of the state to which they lead. -/
structure Watched (threshold : Int64) (calls : List TrackerCall) (state : TrackerState) :
    Prop where
  alert : ∀ before ifaceIndex bytes alert later,
    calls = before ++ .record ifaceIndex bytes alert :: later →
      AlertsRightly threshold before ifaceIndex bytes alert
  -- Before the threshold is reached the tracker adds up.
  adding : StaysBelow threshold (recorded calls) →
    state = .accumulating (runningSum (recorded calls)) ∧ alerts calls = []
  -- After that it is silent.
  silent : ¬ StaysBelow threshold (recorded calls) →
    state = .suppressed ∧ (alerts calls).length = 1

namespace Watched

variable {threshold : Int64} {calls : List TrackerCall} {state : TrackerState} {t : Tracker}

theorem start (threshold : Int64) : Watched threshold [] (.accumulating 0) := by
  refine ⟨?_, ?_, ?_⟩
  · intro before ifaceIndex bytes alert later split
    simp at split
  · intro _
    exact ⟨rfl, rfl⟩
  · intro reached
    exact absurd (staysBelow_nil threshold) reached

theorem row (h : Watched threshold calls state) (ifaceIndex : UInt32) (row : RowId)
    (reading : Option RawCounters) :
    Watched threshold (calls ++ [.row ifaceIndex row reading]) state := by
  have quiet : alerts (calls ++ [.row ifaceIndex row reading]) = alerts calls := by
    rw [alerts_append, alerts_cons_row, alerts_nil, List.append_nil]
  refine ⟨?_, ?_, ?_⟩
  · intro before ifaceIndex' bytes alert later split
    rcases concat_split split with ⟨-, eq, -⟩ | ⟨later', -, eq⟩
    · cases eq
    · exact h.alert before ifaceIndex' bytes alert later' eq
  · rw [recorded_concat_row, quiet]
    exact h.adding
  · rw [recorded_concat_row, quiet]
    exact h.silent

variable {ifaceIndex : UInt32} {bytes : Int64}

theorem alert_concat {alert : Option Alert} (h : Watched threshold calls state)
    (last : AlertsRightly threshold calls ifaceIndex bytes alert) :
    ∀ before ifaceIndex' bytes' alert' later,
      calls ++ [.record ifaceIndex bytes alert] =
          before ++ .record ifaceIndex' bytes' alert' :: later →
        AlertsRightly threshold before ifaceIndex' bytes' alert' := by
  intro before ifaceIndex' bytes' alert' later split
  rcases concat_split split with ⟨rfl, eq, -⟩ | ⟨later', -, eq⟩
  · cases eq
    exact last
  · exact h.alert before ifaceIndex' bytes' alert' later' eq

/-- The first record whose sum reaches the threshold raises an alert and silences the
tracker. -/
theorem record_of_reaches (h : Watched threshold calls state)
    (below : StaysBelow threshold (recorded calls))
    (reaches : threshold ≤ runningSum (recorded calls ++ [bytes])) :
    Watched threshold (calls ++ [.record ifaceIndex bytes
      (some ⟨ifaceIndex, runningSum (recorded calls ++ [bytes])⟩)]) .suppressed := by
  refine ⟨h.alert_concat ?_, ?_, ?_⟩
  · intro raised
    simp [below, reaches, eq_comm]
  · intro stays
    rw [recorded_concat_record, staysBelow_concat] at stays
    exact absurd reaches (Int64.not_le.mpr stays.2)
  · intro _
    rw [alerts_append, (h.adding below).2]
    exact ⟨rfl, rfl⟩

theorem record_of_lt (h : Watched threshold calls state)
    (below : StaysBelow threshold (recorded calls))
    (remains : ¬ threshold ≤ runningSum (recorded calls ++ [bytes])) :
    Watched threshold (calls ++ [.record ifaceIndex bytes none])
      (.accumulating (runningSum (recorded calls ++ [bytes]))) := by
  refine ⟨h.alert_concat ?_, ?_, ?_⟩
  · intro raised
    simp [remains]
  · intro _
    rw [recorded_concat_record, alerts_append, (h.adding below).2]
    exact ⟨rfl, rfl⟩
  · intro reached
    rw [recorded_concat_record, staysBelow_concat] at reached
    exact absurd ⟨below, Int64.not_le.mp remains⟩ reached

/-- A record that comes later changes nothing any more. -/
theorem record_of_reached (h : Watched threshold calls state)
    (reached : ¬ StaysBelow threshold (recorded calls)) :
    Watched threshold (calls ++ [.record ifaceIndex bytes none]) .suppressed := by
  refine ⟨h.alert_concat ?_, ?_, ?_⟩
  · intro raised
    simp [reached]
  · intro stays
    rw [recorded_concat_record, staysBelow_concat] at stays
    exact absurd stays.1 reached
  · intro _
    have once := (h.silent reached).2
    exact ⟨rfl, by simpa [alerts_append] using once⟩

/-- Recording bytes keeps the invariant, with the alert that it raises. -/
theorem record (h : Watched threshold calls t.state) (same : t.threshold = threshold)
    (ifaceIndex : UInt32) (bytes : Int64) :
    Watched threshold (calls ++ [.record ifaceIndex bytes (t.add ifaceIndex bytes).2])
      (t.add ifaceIndex bytes).1.state := by
  by_cases below : StaysBelow threshold (recorded calls)
  · obtain ⟨silent, -⟩ | ⟨total, adding, outcome⟩ := t.add_cases ifaceIndex bytes
    · rw [(h.adding below).1] at silent
      cases silent
    · rw [(h.adding below).1] at adding
      cases adding
      rw [← runningSum_concat, same] at outcome
      obtain ⟨reaches, eq⟩ | ⟨remains, eq⟩ := outcome
      · rw [eq]
        exact h.record_of_reaches below reaches
      · rw [eq]
        exact h.record_of_lt below remains
  · obtain ⟨silent, eq⟩ | ⟨total, adding, -⟩ := t.add_cases ifaceIndex bytes
    · rw [eq, silent]
      exact h.record_of_reached below
    · rw [(h.silent below).1] at adding
      cases adding

theorem length_alerts_le (h : Watched threshold calls t.state) : (alerts calls).length ≤ 1 := by
  by_cases below : StaysBelow threshold (recorded calls)
  · rw [(h.adding below).2]
    exact Nat.zero_le 1
  · exact Nat.le_of_eq (h.silent below).2

theorem suppressed_iff (h : Watched threshold calls t.state) :
    t.state = .suppressed ↔ alerts calls ≠ [] := by
  by_cases below : StaysBelow threshold (recorded calls)
  · obtain ⟨state, quiet⟩ := h.adding below
    rw [state, quiet]
    simp
  · obtain ⟨state, once⟩ := h.silent below
    have raised : alerts calls ≠ [] := List.ne_nil_of_length_eq_add_one once
    simp [state, raised]

/-- A tracker with a positive threshold that still adds up is below it. -/
theorem lt_of_accumulating (h : Watched threshold calls t.state) (positive : 0 < threshold)
    {total : Int64} (adding : t.state = .accumulating total) : total < threshold := by
  by_cases below : StaysBelow threshold (recorded calls)
  · rw [(h.adding below).1] at adding
    cases adding
    by_cases none : recorded calls = []
    · rw [none]
      exact positive
    · exact below _ (List.prefix_refl _) none
  · rw [(h.silent below).1] at adding
    cases adding

end Watched

/-- Every context is watched. -/
theorem Tracked.watched {direct : Bool} {threshold : Int64} {sink : AlertSink}
    {calls : List TrackerCall} {t : Tracker}
    (h : Tracked direct (.new threshold sink) calls t) : Watched threshold calls t.state := by
  induction h with
  | start => exact .start threshold
  | record ifaceIndex bytes prior _ ih => exact ih.record prior.settings_eq.1 ifaceIndex bytes
  | unread ifaceIndex row _ ih => exact ih.row ifaceIndex row none
  | still ifaceIndex row raw _ _ _ ih => exact ih.row ifaceIndex row (some raw)
  | @grown calls t' noted bytes ifaceIndex row raw prior _ _ _ hnoted ih =>
      have read : Watched threshold (calls ++ [.row ifaceIndex row (some raw)]) noted.state := by
        rw [hnoted]
        exact ih.row ifaceIndex row (some raw)
      have same : noted.threshold = threshold := by
        rw [hnoted]
        exact prior.settings_eq.1
      rw [List.append_cons]
      exact read.record same ifaceIndex bytes

/-- A tracker that is silent stays so. -/
theorem Tracked.suppressed {direct : Bool} {calls : List TrackerCall} {t t' : Tracker}
    (h : Tracked direct t calls t') (silent : t.state = .suppressed) :
    t'.state = .suppressed := by
  induction h with
  | start => exact silent
  | @record calls t' ifaceIndex bytes prior allowed ih =>
      obtain ⟨-, eq⟩ | ⟨total, adding, -⟩ := t'.add_cases ifaceIndex bytes
      · rw [eq]
        exact ih
      · rw [ih] at adding
        cases adding
  | unread ifaceIndex row _ ih => exact ih
  | still ifaceIndex row raw _ active _ ih => exact absurd ih active
  | grown ifaceIndex row raw _ active _ _ _ ih => exact absurd ih active

/-- What a context that comes after `earlier` promises about its alert: its calls are those of its
steps; the alerts that were handed on are those that these raised, and there is one at most,
raised by the first record that reaches the threshold; the tracker is silent exactly if there is
one, and then remains silent; and a sum that is still being added up is below a positive
threshold. -/
def AlertsOnce (a : Accounting σ) (threshold : Int64) (sink : AlertSink) (s : Session σ)
    (earlier context : List (TrackerStep σ)) : Prop :=
  let before := TrackerStep.runNew a threshold sink earlier s
  let now := TrackerStep.runNew a threshold sink (earlier ++ context) s
  ∃ calls, now.2.calls.toList = before.2.calls.toList ++ calls ∧
    TrackerStep.Noted a context before.1 before.2 calls ∧
    now.2.raised sink = before.2.raised sink ++ alerts calls ∧
    (alerts calls).length ≤ 1 ∧
    (now.1.state = .suppressed ↔ alerts calls ≠ []) ∧
    Watched threshold calls now.1.state ∧
    (0 < threshold → ∀ total, now.1.state = .accumulating total → total < threshold) ∧
    ∀ more, (∀ step ∈ more, step.isReset = false) → now.1.state = .suppressed →
      (TrackerStep.runNew a threshold sink (earlier ++ context ++ more) s).1.state = .suppressed

/-- Every context keeps that promise, whatever is done in it and whatever happens to the
tables. -/
theorem alertsOnce (a : Accounting σ) (threshold : Int64) (sink : AlertSink) (s : Session σ)
    {earlier context : List (TrackerStep σ)} (begins : TrackerStep.Begins earlier)
    (noReset : ∀ step ∈ context, step.isReset = false) :
    AlertsOnce a threshold sink s earlier context := by
  obtain ⟨calls, tracked, trace, raised⟩ := TrackerStep.exists_tracked a true threshold sink s
    begins noReset fun _ _ _ => rfl
  have watched := tracked.watched
  have noted := TrackerStep.noted_of_runNew a threshold sink s trace
  refine ⟨calls, trace, noted, raised, watched.length_alerts_le, watched.suppressed_iff, watched,
    ?_, ?_⟩
  · intro positive total adding
    exact watched.lt_of_accumulating positive adding
  · intro more noReset' silent
    rw [TrackerStep.runNew_append]
    have followed := TrackerStep.follows_runAll a true noReset' (fun _ _ _ => rfl)
      (TrackerStep.runNew a threshold sink (earlier ++ context) s).1
    obtain ⟨calls', tracked', -⟩ := followed
      (TrackerStep.runNew a threshold sink (earlier ++ context) s).2
    exact tracked'.suppressed silent

/-- A detail row of an interface without a name. -/
def unnamedRow : MemoryTables :=
  { MemoryTables.empty with detail := .ofList [(⟨1, 0, 7⟩, ⟨20, 1, 40, 1⟩)] }

/-- After a reset, the report charges 60 bytes of the row, and a record of 50 bytes makes them
exceed 100. -/
theorem alertsOnce_after_report :
    AlertsOnce (.new SharedTables.tableSet) 100 .keep (.start (.quiet unnamedRow))
        [.record 1 40, .reset] [.detailReport, .record 8 50] ∧
      (TrackerStep.runNew (.new SharedTables.tableSet) 100 .keep
          [.record 1 40, .reset, .detailReport, .record 8 50]
          (.start (.quiet unnamedRow))).2.raised .keep = [⟨8, 110⟩] := by
  refine ⟨alertsOnce _ _ _ _ (.inr ⟨[.record 1 40], rfl⟩) ?_, by decide⟩
  simp [TrackerStep.isReset]

end TrafficStats
