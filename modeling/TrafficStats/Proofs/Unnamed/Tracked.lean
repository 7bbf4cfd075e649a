import TrafficStats.Accounting

/-!
# What queries do to a tracker

A query that is handed a tracker calls it in three ways: it adds bytes, it charges a row
without getting a reading, or it takes a reading and adds what the row grew by.
`Tracked` describes a sequence of such calls with its effect on the tracker, and nothing
else about the query. `Follows` says that a query is of this kind, that it leaves its
calls in the session and that it hands on the alerts that they raised. Every operation
with a tracker follows it, down from a single record to the reading of a whole report.
-/

namespace TrafficStats

variable {σ K α β : Type}

namespace TrackerCall

def alert? : TrackerCall → Option Alert
  | .record _ _ alert => alert
  | .row .. => none

def alerts (calls : List TrackerCall) : List Alert :=
  calls.filterMap alert?

@[simp] theorem alerts_nil : alerts [] = [] := rfl

theorem alerts_append (calls more : List TrackerCall) :
    alerts (calls ++ more) = alerts calls ++ alerts more :=
  List.filterMap_append

@[simp] theorem alerts_cons_row (ifaceIndex : UInt32) (row : RowId)
    (reading : Option RawCounters) (calls : List TrackerCall) :
    alerts (.row ifaceIndex row reading :: calls) = alerts calls := rfl

@[simp] theorem alerts_cons_record (ifaceIndex : UInt32) (bytes : Int64) (alert : Option Alert)
    (calls : List TrackerCall) :
    alerts (.record ifaceIndex bytes alert :: calls) = alert.toList ++ alerts calls := by
  cases alert with
  | none => rfl
  | some raised => rfl

end TrackerCall

def LogEvent.alert? : LogEvent → Option Alert
  | .unnamedTraffic alert => some alert
  | _ => none

/-- The alerts that a receiver has been given in a session. -/
def Session.raised (s : Session σ) : AlertSink → List Alert
  | .keep => s.alerts.toList
  | .log => s.log.toList.filterMap LogEvent.alert?

/-- `Tracked direct t calls t'` holds if the given calls can lead a tracker from `t` to `t'`.
Only if `direct` is set may bytes be added that are not the growth of a row. -/
inductive Tracked (direct : Bool) (t : Tracker) : List TrackerCall → Tracker → Prop
  | start : Tracked direct t [] t
  | record {calls : List TrackerCall} {t' : Tracker} (ifaceIndex : UInt32) (bytes : Int64)
      (prior : Tracked direct t calls t') (allowed : direct = true) :
      Tracked direct t (calls ++ [.record ifaceIndex bytes (t'.add ifaceIndex bytes).2])
        (t'.add ifaceIndex bytes).1
  | unread {calls : List TrackerCall} {t' : Tracker} (ifaceIndex : UInt32) (row : RowId)
      (prior : Tracked direct t calls t') :
      Tracked direct t (calls ++ [.row ifaceIndex row none]) t'
  | still {calls : List TrackerCall} {t' : Tracker} (ifaceIndex : UInt32) (row : RowId)
      (raw : RawCounters) (prior : Tracked direct t calls t') (active : t'.state ≠ .suppressed)
      (same : ¬ 0 < Tracker.growth (t'.lastReading row) raw.clamped.totalBytes) :
      Tracked direct t (calls ++ [.row ifaceIndex row (some raw)])
        (t'.noteReading row raw.clamped.totalBytes)
  | grown {calls : List TrackerCall} {t' noted : Tracker} {bytes : Int64} (ifaceIndex : UInt32)
      (row : RowId) (raw : RawCounters) (prior : Tracked direct t calls t')
      (active : t'.state ≠ .suppressed)
      (hbytes : bytes = Tracker.growth (t'.lastReading row) raw.clamped.totalBytes)
      (grown : 0 < bytes) (hnoted : noted = t'.noteReading row raw.clamped.totalBytes) :
      Tracked direct t (calls ++ [.row ifaceIndex row (some raw),
          .record ifaceIndex bytes (noted.add ifaceIndex bytes).2])
        (noted.add ifaceIndex bytes).1

theorem Tracker.add_fst (t : Tracker) (ifaceIndex : UInt32) (bytes : Int64) :
    (t.add ifaceIndex bytes).1 = { t with state := (t.add ifaceIndex bytes).1.state } := by
  obtain ⟨-, h⟩ | ⟨total, -, ⟨-, h⟩ | ⟨-, h⟩⟩ := t.add_cases ifaceIndex bytes
  · rw [h]
  · rw [h]
  · rw [h]

namespace Tracked

variable {direct : Bool} {t t' t'' : Tracker} {calls more : List TrackerCall}

/-- The threshold and the receiver of alerts stay what they are. -/
theorem settings_eq (h : Tracked direct t calls t') :
    t'.threshold = t.threshold ∧ t'.sink = t.sink := by
  induction h with
  | start => exact ⟨rfl, rfl⟩
  | record ifaceIndex bytes _ _ ih =>
      rw [Tracker.add_fst]
      exact ih
  | unread _ _ _ ih => exact ih
  | still _ _ _ _ _ _ ih => exact ih
  | grown _ _ _ _ _ _ _ hnoted ih =>
      rw [Tracker.add_fst, hnoted]
      exact ih

theorem append (h : Tracked direct t calls t') (h' : Tracked direct t' more t'') :
    Tracked direct t (calls ++ more) t'' := by
  induction h' with
  | start =>
      rw [List.append_nil]
      exact h
  | record ifaceIndex bytes _ allowed ih =>
      rw [← List.append_assoc]
      exact .record ifaceIndex bytes ih allowed
  | unread ifaceIndex row _ ih =>
      rw [← List.append_assoc]
      exact .unread ifaceIndex row ih
  | still ifaceIndex row raw _ active same ih =>
      rw [← List.append_assoc]
      exact .still ifaceIndex row raw ih active same
  | grown ifaceIndex row raw _ active hbytes grown hnoted ih =>
      rw [← List.append_assoc]
      exact .grown ifaceIndex row raw ih active hbytes grown hnoted

end Tracked

/-- A query that leaves trackers and alerts alone. -/
def Quiet (q : Query σ α) : Prop :=
  ∀ s, (q s).2.calls = s.calls ∧ ∀ sink, (q s).2.raised sink = s.raised sink

namespace Quiet

theorem pure (a : α) : Quiet (Pure.pure a : Query σ α) :=
  fun _ => ⟨rfl, fun _ => rfl⟩

theorem onTables (action : StateM σ α) : Quiet (Query.onTables action) := by
  intro s
  refine ⟨rfl, fun sink => ?_⟩
  cases sink <;> rfl

theorem note {event : LogEvent} (h : event.alert? = none) :
    Quiet (Query.note event : Query σ Unit) := by
  intro s
  refine ⟨rfl, fun sink => ?_⟩
  cases sink with
  | keep => rfl
  | log => simp [Query.note, Session.raised, h]

theorem bind {q : Query σ α} {f : α → Query σ β} (hq : Quiet q) (hf : ∀ a, Quiet (f a)) :
    Quiet (q >>= f) := by
  intro s
  obtain ⟨calls, raised⟩ := hq s
  obtain ⟨calls', raised'⟩ := hf (q s).1 (q s).2
  rw [Query.bind_apply]
  exact ⟨calls'.trans calls, fun sink => (raised' sink).trans (raised sink)⟩

theorem resolve (names : TableAccess σ UInt32 NameField) (ifaceIndex : UInt32) :
    Quiet (names.resolve ifaceIndex) := by
  refine (onTables _).bind fun answer => ?_
  cases answer with
  | ok field => exact pure _
  | error e => exact (note rfl).bind fun _ => pure none

theorem memo_resolve (memo : NameMemo) (names : TableAccess σ UInt32 NameField)
    (ifaceIndex : UInt32) : Quiet (memo.resolve names ifaceIndex) := by
  unfold NameMemo.resolve
  split
  · exact pure _
  · exact (resolve names ifaceIndex).bind fun name => pure _

end Quiet

/-- A query follows a tracker if it does nothing to it but call it: it is handed `t`, its
result has the tracker as `tracker` says, its calls are in the session, and the alerts that
they raised have been handed on. -/
def Follows (direct : Bool) (t : Tracker) (tracker : α → Tracker) (q : Query σ α) : Prop :=
  ∀ s, ∃ calls, Tracked direct t calls (tracker (q s).1) ∧
    (q s).2.calls.toList = s.calls.toList ++ calls ∧
    (q s).2.raised t.sink = s.raised t.sink ++ TrackerCall.alerts calls

namespace Follows

variable {direct : Bool} {t : Tracker} {tracker : α → Tracker} {tracker' : β → Tracker}

theorem of_quiet {q : Query σ α} (hq : Quiet q) (same : ∀ s, tracker (q s).1 = t) :
    Follows direct t tracker q := by
  intro s
  obtain ⟨calls, raised⟩ := hq s
  refine ⟨[], ?_, ?_, ?_⟩
  · rw [same]
    exact .start
  · rw [calls, List.append_nil]
  · rw [raised]
    exact (List.append_nil _).symm

theorem pure {a : α} (same : tracker a = t) :
    Follows direct t tracker (Pure.pure a : Query σ α) :=
  of_quiet (.pure a) fun _ => same

theorem bind {q : Query σ α} {f : α → Query σ β} (hq : Follows direct t tracker q)
    (hf : ∀ a, Follows direct (tracker a) tracker' (f a)) :
    Follows direct t tracker' (q >>= f) := by
  intro s
  obtain ⟨calls, tracked, history, raised⟩ := hq s
  obtain ⟨calls', tracked', history', raised'⟩ := hf (q s).1 (q s).2
  rw [tracked.settings_eq.2] at raised'
  rw [Query.bind_apply]
  refine ⟨calls ++ calls', tracked.append tracked', ?_, ?_⟩
  · rw [history', history, List.append_assoc]
  · rw [raised', raised, List.append_assoc, TrackerCall.alerts_append]

/-- A query that leaves the tracker alone may come first. -/
theorem quiet_bind {q : Query σ α} {f : α → Query σ β} (hq : Quiet q)
    (hf : ∀ a, Follows direct t tracker' (f a)) : Follows direct t tracker' (q >>= f) := by
  have unmoved : Follows direct t (fun _ => t) q := of_quiet hq fun _ => rfl
  exact unmoved.bind hf

theorem map {q : Query σ α} {f : α → β} (hq : Follows direct t (fun a => tracker' (f a)) q) :
    Follows direct t tracker' (f <$> q) := hq

/-- An invariant of all handlers of rows is one of the whole enumeration. -/
theorem foldSteps (table : TableAccess σ K RawCounters)
    {f : β → RowResult K RawCounters → Query σ β}
    (hf : ∀ b r, Follows direct (tracker' b) tracker' (f b r)) (steps : Nat)
    (c : Cursor K RawCounters) (b : β) :
    Follows direct (tracker' b) tracker' (table.foldSteps f steps c b) := by
  induction steps generalizing c b with
  | zero => exact pure rfl
  | succ steps ih =>
      refine quiet_bind (.onTables _) fun answer => ?_
      cases answer with
      | none => exact pure rfl
      | some answer =>
          obtain ⟨r, rest⟩ := answer
          exact (hf b r).bind fun b' => ih rest b'

end Follows

namespace Tracker

/-- What recording bytes does: the tracker adds them, the call is noted, and the alert that
it raises is handed on. -/
theorem record_spec (t : Tracker) (ifaceIndex : UInt32) (bytes : Int64) (s : Session σ) :
    (t.record ifaceIndex bytes s).1 = (t.add ifaceIndex bytes).1 ∧
      (t.record ifaceIndex bytes s).2.calls.toList =
        s.calls.toList ++ [.record ifaceIndex bytes (t.add ifaceIndex bytes).2] ∧
      (t.record ifaceIndex bytes s).2.raised t.sink =
        s.raised t.sink ++ (t.add ifaceIndex bytes).2.toList := by
  have sink : (t.add ifaceIndex bytes).1.sink = t.sink := by rw [add_fst]
  generalize houtcome : t.add ifaceIndex bytes = outcome at sink ⊢
  obtain ⟨added, alert⟩ := outcome
  simp only [record, houtcome, Query.bind_apply, Query.trace_apply, deliver]
  simp only at sink
  cases alert with
  | none =>
      refine ⟨rfl, by simp [Query.pure_apply], ?_⟩
      cases t.sink <;> simp [Query.pure_apply, Session.raised]
  | some alert =>
      simp only [Query.bind_apply, Query.pure_apply, sink]
      cases t.sink with
      | log => simp [Query.raise, Query.note, Session.raised, LogEvent.alert?]
      | keep => simp [Query.raise, Session.raised]

variable (t : Tracker) (ifaceIndex : UInt32)

theorem follows_record (bytes : Int64) :
    Follows true t id (t.record ifaceIndex bytes : Query σ Tracker) := by
  intro s
  obtain ⟨value, calls, raised⟩ := t.record_spec ifaceIndex bytes s
  refine ⟨_, ?_, calls, ?_⟩
  · rw [value]
    exact .record ifaceIndex bytes .start rfl
  · rw [raised, TrackerCall.alerts_cons_record, TrackerCall.alerts_nil, List.append_nil]

theorem follows_skipRow (direct : Bool) (row : RowId) :
    Follows direct t id (t.skipRow ifaceIndex row : Query σ Tracker) := by
  intro s
  refine ⟨[.row ifaceIndex row none], .unread ifaceIndex row .start, ?_, ?_⟩
  · simp [skipRow, Query.bind_apply, Query.trace_apply, Query.pure_apply]
  · exact (List.append_nil _).symm

theorem follows_takeReading (direct : Bool) (row : RowId) (raw : RawCounters)
    (active : t.state ≠ .suppressed) :
    Follows direct t id (t.takeReading ifaceIndex row raw : Query σ Tracker) := by
  intro s
  simp only [takeReading, Query.bind_apply, Query.trace_apply]
  by_cases grown : 0 < growth (t.lastReading row) raw.clamped.totalBytes
  · generalize hs : ({ s with calls := s.calls.push (.row ifaceIndex row (some raw)) } :
      Session σ) = s'
    generalize hnoted : t.noteReading row raw.clamped.totalBytes = noted
    generalize hbytes : growth (t.lastReading row) raw.clamped.totalBytes = bytes at grown
    have sink : noted.sink = t.sink := by
      rw [← hnoted]
      rfl
    obtain ⟨value, calls, raised⟩ := noted.record_spec ifaceIndex bytes s'
    rw [if_pos grown, value, calls, ← sink, raised, ← hs]
    refine ⟨_, .grown ifaceIndex row raw .start active hbytes.symm grown hnoted.symm, ?_, ?_⟩
    · simp
    · rw [List.nil_append, TrackerCall.alerts_cons_row, TrackerCall.alerts_cons_record,
        TrackerCall.alerts_nil, List.append_nil]
      rfl
  · rw [if_neg grown]
    refine ⟨_, .still ifaceIndex row raw .start active grown, ?_, ?_⟩
    · simp [Query.pure_apply]
    · exact (List.append_nil _).symm

theorem follows_recordRow (direct : Bool) (table : TableAccess σ K RawCounters)
    (rowId : K → RowId) (k : K) :
    Follows direct t id (t.recordRow ifaceIndex table rowId k) := by
  unfold recordRow
  split
  · exact t.follows_skipRow ifaceIndex direct (rowId k)
  · rename_i active
    refine Follows.quiet_bind (.onTables _) fun answer => ?_
    match answer with
    | .ok (some raw) => exact t.follows_takeReading ifaceIndex direct (rowId k) raw active
    | .ok none => exact t.follows_skipRow ifaceIndex direct (rowId k)
    | .error _ => exact t.follows_skipRow ifaceIndex direct (rowId k)

end Tracker

namespace Report

variable (direct : Bool) (source : CounterTable σ K) (names : TableAccess σ UInt32 NameField)

theorem follows_readRow (p : Progress) (r : RowResult K RawCounters) :
    Follows direct p.tracker Progress.tracker (readRow source names p r) := by
  cases r with
  | error e => exact .quiet_bind (.note rfl) fun _ => .pure rfl
  | ok row =>
      obtain ⟨k, raw⟩ := row
      refine .quiet_bind (.memo_resolve p.memo names (source.ifaceIndex k)) fun answer => ?_
      obtain ⟨name, memo⟩ := answer
      cases name with
      | some iface => exact .pure rfl
      | none =>
          have charged := p.tracker.follows_recordRow (source.ifaceIndex k) direct source.access
            source.rowId k
          exact charged.bind fun t => .pure rfl

theorem follows_finish (p : Progress) :
    Follows direct p.tracker Prod.snd (finish source p) := by
  unfold finish
  split
  · exact .quiet_bind (.note rfl) fun _ => .pure rfl
  · exact .pure rfl

/-- Reading a report follows the tracker that it charges. -/
theorem follows_read (t : Tracker) :
    Follows direct t Prod.snd (read source names t) := by
  refine .quiet_bind (.onTables _) fun answer => ?_
  cases answer with
  | error e => exact .pure rfl
  | ok c =>
      have walked := Follows.foldSteps source.access (follows_readRow direct source names)
        (c.length + 1) c ⟨[], #[], 0, t⟩
      exact walked.bind fun p => follows_finish direct source p

end Report

end TrafficStats
