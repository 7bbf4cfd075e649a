import TrafficStats.Proofs.Report.Steps

/-!
# Runs with one tracker

A tracker that lives longer than one report is used in steps: bytes are recorded, rows are
charged, reports are read, and now and then it is reset. In between, anything may happen
to the tables. A tracking context begins with a new tracker or with a reset and lasts
until the next reset; `exists_tracked` describes what happens in it as calls that lead
from a fresh tracker to the present one. `Noted` ties each of these calls to the step that made
it, so that no record and no row of a run is missing among them.
-/

namespace TrafficStats

variable {σ : Type}

/-- What can happen while a tracker is in use. -/
inductive TrackerStep (σ : Type) where
  -- Bytes are recorded that were left out somewhere else.
  | record (ifaceIndex : UInt32) (bytes : Int64)
  | detailRow (ifaceIndex : UInt32) (k : DetailKey)
  | deviceRow (ifaceIndex : UInt32) (k : UInt32)
  | detailReport
  | deviceReport
  | reset
  -- Somebody else changes the tables.
  | edit (change : σ → σ)

namespace TrackerStep

def run (a : Accounting σ) (t : Tracker) : TrackerStep σ → Query σ Tracker
  | .record ifaceIndex bytes => t.record ifaceIndex bytes
  | .detailRow ifaceIndex k => t.recordRow ifaceIndex a.tables.detail .detail k
  | .deviceRow ifaceIndex k => t.recordRow ifaceIndex a.tables.device .device k
  | .detailReport => Prod.snd <$> a.detailReportWith t
  | .deviceReport => Prod.snd <$> a.deviceReportWith t
  | .reset => pure t.reset
  | .edit change => do
    Query.onTables (modify change)
    pure t

def runAll (a : Accounting σ) (steps : List (TrackerStep σ)) (t : Tracker) : Query σ Tracker :=
  steps.foldlM (run a) t

def isReset : TrackerStep σ → Bool
  | .reset => true
  | _ => false

def isRecord : TrackerStep σ → Bool
  | .record .. => true
  | _ => false

variable (a : Accounting σ) (direct : Bool)

theorem follows_run (t : Tracker) {step : TrackerStep σ} (noReset : step.isReset = false)
    (allowed : step.isRecord = true → direct = true) : Follows direct t id (run a t step) := by
  cases step with
  | record ifaceIndex bytes =>
      rw [allowed rfl]
      exact t.follows_record ifaceIndex bytes
  | detailRow ifaceIndex k => exact t.follows_recordRow ifaceIndex direct _ _ k
  | deviceRow ifaceIndex k => exact t.follows_recordRow ifaceIndex direct _ _ k
  | detailReport => exact .map (Report.follows_read direct _ _ t)
  | deviceReport => exact .map (Report.follows_read direct _ _ t)
  | reset => cases noReset
  | edit change => exact .quiet_bind (.onTables _) fun _ => .pure rfl

theorem follows_runAll {steps : List (TrackerStep σ)}
    (noReset : ∀ step ∈ steps, step.isReset = false)
    (allowed : ∀ step ∈ steps, step.isRecord = true → direct = true) (t : Tracker) :
    Follows direct t id (runAll a steps t) := by
  induction steps generalizing t with
  | nil => exact .pure rfl
  | cons step steps ih =>
      have first := follows_run a direct t (noReset step List.mem_cons_self)
        (allowed step List.mem_cons_self)
      rw [runAll, List.foldlM_cons]
      exact first.bind fun t' => ih (fun step' h => noReset step' (List.mem_cons_of_mem _ h))
        (fun step' h => allowed step' (List.mem_cons_of_mem _ h)) t'

/-- The calls that a step makes with a tracker `t` in a session `s`. A record is one call, with the
alert that it raises, and a row is charged with what is read for it at that moment. A report
charges rows, whichever it finds. -/
def Notes (t : Tracker) (s : Session σ) (calls : List TrackerCall) : TrackerStep σ → Prop
  | .record ifaceIndex bytes => calls = [.record ifaceIndex bytes (t.add ifaceIndex bytes).2]
  | .detailRow ifaceIndex k =>
    calls = (t.charge ifaceIndex (.detail k) (t.reading (a.tables.detail.read k s.tables).1)).2
  | .deviceRow ifaceIndex k =>
    calls = (t.charge ifaceIndex (.device k) (t.reading (a.tables.device.read k s.tables).1)).2
  | .detailReport => Tracked false t calls (run a t .detailReport s).1
  | .deviceReport => Tracked false t calls (run a t .deviceReport s).1
  | .reset => calls = []
  | .edit _ => calls = []

/-- The calls of steps are those of each step, one after the other. -/
def Noted : List (TrackerStep σ) → Tracker → Session σ → List TrackerCall → Prop
  | [], _, _, calls => calls = []
  | step :: steps, t, s, calls => ∃ now later, calls = now ++ later ∧ Notes a t s now step ∧
      Noted steps (run a t step s).1 (run a t step s).2 later

theorem exists_notes (t : Tracker) (step : TrackerStep σ) (s : Session σ) :
    ∃ calls, (run a t step s).2.calls.toList = s.calls.toList ++ calls ∧
      Notes a t s calls step := by
  cases step with
  | record ifaceIndex bytes => exact ⟨_, (t.record_spec ifaceIndex bytes s).2.1, rfl⟩
  | detailRow ifaceIndex k => exact ⟨_, t.calls_recordRow ifaceIndex _ _ k s, rfl⟩
  | deviceRow ifaceIndex k => exact ⟨_, t.calls_recordRow ifaceIndex _ _ k s, rfl⟩
  | detailReport =>
      have followed : Follows false t id (run a t .detailReport) := follows_run a false t rfl nofun
      obtain ⟨calls, tracked, traced, -⟩ := followed s
      exact ⟨calls, traced, tracked⟩
  | deviceReport =>
      have followed : Follows false t id (run a t .deviceReport) := follows_run a false t rfl nofun
      obtain ⟨calls, tracked, traced, -⟩ := followed s
      exact ⟨calls, traced, tracked⟩
  | reset => exact ⟨[], (List.append_nil _).symm, rfl⟩
  | edit change => exact ⟨[], (List.append_nil _).symm, rfl⟩

theorem exists_noted (steps : List (TrackerStep σ)) (t : Tracker) (s : Session σ) :
    ∃ calls, (runAll a steps t s).2.calls.toList = s.calls.toList ++ calls ∧
      Noted a steps t s calls := by
  induction steps generalizing t s with
  | nil => exact ⟨[], (List.append_nil _).symm, rfl⟩
  | cons step steps ih =>
      obtain ⟨now, first, notes⟩ := exists_notes a t step s
      obtain ⟨later, rest, noted⟩ := ih (run a t step s).1 (run a t step s).2
      refine ⟨now ++ later, ?_, now, later, rfl, notes, noted⟩
      rw [first, List.append_assoc] at rest
      exact rest

/-- What steps add to the trace are their calls. -/
theorem noted_of_traced {steps : List (TrackerStep σ)} {t : Tracker} {s : Session σ}
    {calls : List TrackerCall}
    (traced : (runAll a steps t s).2.calls.toList = s.calls.toList ++ calls) :
    Noted a steps t s calls := by
  obtain ⟨made, eq, noted⟩ := exists_noted a steps t s
  rw [eq] at traced
  rwa [List.append_cancel_left traced] at noted

theorem runAll_append (steps more : List (TrackerStep σ)) (t : Tracker) (s : Session σ) :
    runAll a (steps ++ more) t s = runAll a more (runAll a steps t s).1 (runAll a steps t s).2 := by
  rw [runAll, List.foldlM_append]
  rfl

/-- No step changes the threshold or the receiver of alerts. -/
theorem settings_run (t : Tracker) (step : TrackerStep σ) (s : Session σ) :
    (run a t step s).1.threshold = t.threshold ∧ (run a t step s).1.sink = t.sink := by
  cases isReset : step.isReset with
  | true =>
      cases step with
      | reset => exact ⟨rfl, rfl⟩
      | _ => cases isReset
  | false =>
      have followed := follows_run a true t isReset fun _ => rfl
      obtain ⟨calls, tracked, -⟩ := followed s
      exact tracked.settings_eq

theorem settings_runAll (steps : List (TrackerStep σ)) (t : Tracker) (s : Session σ) :
    (runAll a steps t s).1.threshold = t.threshold ∧ (runAll a steps t s).1.sink = t.sink := by
  induction steps generalizing t s with
  | nil => exact ⟨rfl, rfl⟩
  | cons step steps ih =>
      obtain ⟨threshold, sink⟩ := settings_run a t step s
      obtain ⟨threshold', sink'⟩ := ih (run a t step s).1 (run a t step s).2
      rw [runAll, List.foldlM_cons]
      exact ⟨threshold'.trans threshold, sink'.trans sink⟩

/-- Whether steps end where a tracking context begins. -/
def Begins (steps : List (TrackerStep σ)) : Prop :=
  steps = [] ∨ ∃ before, steps = before ++ [.reset]

/-- A run that begins with a new tracker. -/
def runNew (threshold : Int64) (sink : AlertSink) (steps : List (TrackerStep σ))
    (s : Session σ) : Tracker × Session σ :=
  runAll a steps (.new threshold sink) s

variable (threshold : Int64) (sink : AlertSink) (s : Session σ)

theorem runNew_append (steps more : List (TrackerStep σ)) :
    runNew a threshold sink (steps ++ more) s =
      runAll a more (runNew a threshold sink steps s).1 (runNew a threshold sink steps s).2 :=
  runAll_append a steps more _ s

/-- What is added to the trace after other steps are the calls of the steps since. -/
theorem noted_of_runNew {earlier steps : List (TrackerStep σ)} {calls : List TrackerCall}
    (traced : (runNew a threshold sink (earlier ++ steps) s).2.calls.toList =
      (runNew a threshold sink earlier s).2.calls.toList ++ calls) :
    Noted a steps (runNew a threshold sink earlier s).1 (runNew a threshold sink earlier s).2
      calls := by
  rw [runNew_append] at traced
  exact noted_of_traced a traced

/-- Where a context begins, the tracker has added up nothing and knows no rows. -/
theorem runNew_of_begins {steps : List (TrackerStep σ)} (begins : Begins steps) :
    (runNew a threshold sink steps s).1 = .new threshold sink := by
  rcases begins with rfl | ⟨before, rfl⟩
  · rfl
  · obtain ⟨threshold', sink'⟩ := settings_runAll a before (.new threshold sink) s
    rw [runNew_append]
    change Tracker.reset (runAll a before (.new threshold sink) s).1 = _
    rw [Tracker.reset, threshold', sink']
    rfl

/-- A tracking context, as the calls that lead from a new tracker to the present one. -/
theorem exists_tracked {earlier context : List (TrackerStep σ)} (begins : Begins earlier)
    (noReset : ∀ step ∈ context, step.isReset = false)
    (allowed : ∀ step ∈ context, step.isRecord = true → direct = true) :
    ∃ calls, Tracked direct (.new threshold sink) calls
        (runNew a threshold sink (earlier ++ context) s).1 ∧
      (runNew a threshold sink (earlier ++ context) s).2.calls.toList =
        (runNew a threshold sink earlier s).2.calls.toList ++ calls ∧
      (runNew a threshold sink (earlier ++ context) s).2.raised sink =
        (runNew a threshold sink earlier s).2.raised sink ++ TrackerCall.alerts calls := by
  rw [runNew_append, runNew_of_begins a threshold sink s begins]
  exact follows_runAll a direct noReset allowed (.new threshold sink) _

end TrackerStep

end TrafficStats
