import TrafficStats.Proofs.Cleanup.Convergence
import TrafficStats.Proofs.Shared.Failing
import TrafficStats.Proofs.Unnamed.Reread
import TrafficStats.Watch

/-!
# Watching steady tables

Over tables that nobody else edits the first pass of a watch cleans up the tags, and charges the
tracker with the unnamed device rows. A pass keeps both: the tables stay clean and the tracker
stays settled, so every further pass prints the same lines, removes nothing and raises no alert
(`watchesSteadily`). What is printed is the device report, whatever became of the cleanup; only the
time in front of its lines differs from pass to pass.
-/

namespace TrafficStats

open Query RowResult SharedTables

namespace MemoryTables

variable (tables : MemoryTables)

/-- The tables after a pass that may fail. -/
def tidied : MemoryTables :=
  if tables.cookieTags.unavailable || tables.detail.unavailable then tables else tables.cleaned

def deviceAnswer : Except QueryError Report :=
  answerFrom .device tables.device.dump
    ((CounterTable.device (access .device)).report tables.interfaceName?)

/-- Another reading of the device table adds nothing to the tracker. -/
def Settled (t : Tracker) : Prop :=
  tables.device.unavailable = false →
    (CounterTable.device (access .device)).Settled tables.interfaceName? tables.device.liveRows t

/-- A pass changes nothing but the rows of the tag table, and adds none there. -/
theorem exists_tidied_eq : ∃ rows, tables.tidied = tables.withTagRows rows ∧
    ∀ cookie slot, rows.get? cookie = some slot →
      tables.cookieTags.rows.get? cookie = some slot := by
  unfold tidied cleaned
  split
  · exact ⟨tables.cookieTags.rows, rfl, fun _ _ => id⟩
  · split
    · exact ⟨tables.cookieTags.rows, rfl, fun _ _ => id⟩
    · refine ⟨_, rfl, fun cookie slot found => ?_⟩
      exact ((Rows.get?_filter_eq_some_iff _ _ _ _).mp found).1

variable {tables}

theorem deviceAnswer_tidied : tables.tidied.deviceAnswer = tables.deviceAnswer := by
  obtain ⟨rows, eq, -⟩ := exists_tidied_eq tables
  rw [eq]
  rfl

theorem settled_tidied (t : Tracker) : tables.tidied.Settled t ↔ tables.Settled t := by
  obtain ⟨rows, eq, -⟩ := exists_tidied_eq tables
  rw [eq]
  rfl

theorem tidied_of_available (tagsAvailable : tables.cookieTags.unavailable = false)
    (detailAvailable : tables.detail.unavailable = false) : tables.tidied = tables.cleaned := by
  rw [tidied, tagsAvailable, detailAvailable]
  rfl

theorem tidied_of_unavailable
    (fails : tables.cookieTags.unavailable = true ∨ tables.detail.unavailable = true) :
    tables.tidied = tables :=
  if_pos ((Bool.or_eq_true _ _).mpr fails)

/-- A second pass leaves everything as it is. -/
theorem tidied_tidied : tables.tidied.tidied = tables.tidied := by
  by_cases fails : tables.cookieTags.unavailable = true ∨ tables.detail.unavailable = true
  · rw [tidied_of_unavailable fails, tidied_of_unavailable fails]
  · obtain ⟨tagsAvailable, detailAvailable⟩ := not_or.mp fails
    rw [Bool.not_eq_true] at tagsAvailable detailAvailable
    obtain ⟨tagsAvailable', detailAvailable'⟩ :=
      Accounting.available_cleaned tagsAvailable detailAvailable
    rw [tidied_of_available tagsAvailable detailAvailable,
      tidied_of_available tagsAvailable' detailAvailable', Cleanup.cleaned_cleaned]

end MemoryTables

namespace Accounting

variable {σ : Type}

/-- The lines of a report, each of which a pass prints after the time. -/
def printed : Except QueryError Report → List String
  | .ok report => (Report.group report.records).map ReportRecord.text
  | .error _ => []

/-- The tracker and the session after a pass at each of these times. -/
def afterPasses (a : Accounting σ) :
    List (Option String) → Tracker → Session σ → Tracker × Session σ
  | [], t, s => (t, s)
  | time :: times, t, s =>
    let outcome := a.watchPass t time s
    a.afterPasses times outcome.1.2 outcome.2

def passLines (a : Accounting σ) (before : List (Option String)) (time : Option String)
    (t : Tracker) (s : Session σ) : List String :=
  (a.watchPass (a.afterPasses before t s).1 time (a.afterPasses before t s).2).1.1

/-! ### One pass -/

section Pass

variable (a : Accounting σ)

theorem quiet_tidy : Quiet a.tidy := by
  refine (Cleanup.quiet_pass _ _).bind fun answer => ?_
  cases answer with
  | error e => exact .note rfl
  | ok report =>
      simp only
      split
      · exact .note rfl
      · split
        · exact .note rfl
        · exact .pure _

/-- The time of a pass is only seen in the lines that it prints. -/
theorem watchPass_time (t : Tracker) (time : Option String) (s : Session σ) :
    (a.watchPass t time s).1.2 = (a.watchPass t none s).1.2 ∧
      (a.watchPass t time s).2 = (a.watchPass t none s).2 := by
  simp only [watchPass, snapshot, bind_apply]
  obtain ⟨⟨answer, t'⟩, s'⟩ := a.deviceReportWith t (a.tidy s).2
  cases answer <;> exact ⟨rfl, rfl⟩

/-- A pass uses its tracker as the reading of its report does. -/
theorem follows_watchPass (t : Tracker) (time : Option String) :
    Follows false t Prod.snd (a.watchPass t time) := by
  refine .quiet_bind a.quiet_tidy fun _ => ?_
  refine (Report.follows_read false _ _ t).bind fun outcome => ?_
  obtain ⟨answer, t'⟩ := outcome
  cases answer with
  | ok report => exact .pure rfl
  | error e => exact .quiet_bind (.note rfl) fun _ => .pure rfl

end Pass

variable {a : Accounting SharedTables} {tables : MemoryTables}

/-- What a cleanup leaves, whether it fails or not. -/
theorem leads_cleanTags_tidied (shared : a.tables = tableSet) :
    Leads (Undisturbed tables) a.cleanTags fun _ s => Undisturbed tables.tidied s := by
  intro s hs
  by_cases fails : tables.cookieTags.unavailable = true ∨ tables.detail.unavailable = true
  · have refused : ∃ e, RefusedBy .cookieTags tables.cookieTags e ∨
        tables.cookieTags.unavailable = false ∧ RefusedBy .detail tables.detail e := by
      cases tags : tables.cookieTags.unavailable with
      | true => exact ⟨_, .inl ⟨tags, rfl⟩⟩
      | false => exact ⟨_, .inr ⟨rfl, fails.resolve_left (by simp [tags]), rfl⟩⟩
    obtain ⟨e, reason⟩ := refused
    rw [MemoryTables.tidied_of_unavailable fails, cleanTags, shared]
    obtain ⟨answer, trace⟩ := failsWith_pass s hs e
    exact (trace (answer.mpr reason)).1
  · obtain ⟨tagsAvailable, detailAvailable⟩ := not_or.mp fails
    rw [Bool.not_eq_true] at tagsAvailable detailAvailable
    rw [MemoryTables.tidied_of_available tagsAvailable detailAvailable]
    exact (leads_cleanTags shared tagsAvailable detailAvailable s hs).2

theorem leads_tidy (shared : a.tables = tableSet) :
    Leads (Undisturbed tables) a.tidy fun _ s => Undisturbed tables.tidied s := by
  refine (leads_cleanTags_tidied shared).bind fun answer => ?_
  cases answer with
  | error e => exact fun _ => id
  | ok report =>
      simp only
      split
      · exact fun _ => id
      · split <;> exact fun _ => id

theorem ensures_deviceReportWith (shared : a.tables = tableSet) (t : Tracker) :
    Ensures (Undisturbed tables) (a.deviceReportWith t) fun outcome =>
      outcome.1 = tables.deviceAnswer ∧ tables.Settled outcome.2 ∧
        (tables.Settled t → outcome.2.state = t.state) := by
  have shows : (CounterTable.device (access .device)).access.Shows (Undisturbed tables)
    tables.device.read tables.device.dump := shows_access .device
  unfold deviceReportWith
  rw [shared]
  have answers := Report.ensures_read shows gives_resolve t
  cases available : tables.device.unavailable with
  | true =>
      intro s hs
      obtain ⟨answer, still⟩ := answers s hs
      refine ⟨⟨answer, fun h => absurd (available.symm.trans h) nofun, fun _ => ?_⟩, still⟩
      rw [answerFrom_dump, available] at answer
      exact congrArg Tracker.state (Report.tracker_of_error _ _ t answer)
  | false =>
      have has : (CounterTable.device (access .device)).access.HasReadable (Undisturbed tables)
        tables.device.liveRows := hasReadable_access .device available
      have settles := Report.ensures_read_settled (fun _ _ same => RowId.device.inj same) has
        gives_resolve t
      intro s hs
      obtain ⟨answer, still⟩ := answers s hs
      obtain ⟨⟨after, unmoved⟩, -⟩ := settles s hs
      exact ⟨⟨answer, fun _ => after, fun before => unmoved (before available)⟩, still⟩

/-- What a pass prints and does to its tracker. -/
theorem ensures_snapshot (shared : a.tables = tableSet) (t : Tracker) (time : Option String) :
    Ensures (Undisturbed tables) (a.snapshot t time) fun outcome =>
      outcome.1 = (printed tables.deviceAnswer).map (stamped time) ∧ tables.Settled outcome.2 ∧
        (tables.Settled t → outcome.2.state = t.state) := by
  refine (ensures_deviceReportWith shared t).bind fun outcome result => ?_
  obtain ⟨answer, t'⟩ := outcome
  obtain ⟨rfl, settled⟩ := result
  simp only
  cases tables.deviceAnswer with
  | ok report =>
      refine .pure ⟨?_, settled⟩
      rw [printed, List.map_map]
      rfl
  | error e => exact .quiet_bind (fun _ => rfl) fun _ => .pure ⟨rfl, settled⟩

/-- A pass prints the device report, cleans up and settles its tracker. -/
theorem watchPass_spec (shared : a.tables = tableSet) (t : Tracker) (time : Option String)
    {s : Session SharedTables} (alone : Undisturbed tables s.tables) :
    (a.watchPass t time s).1.1 = (printed tables.deviceAnswer).map (stamped time) ∧
      Undisturbed tables.tidied (a.watchPass t time s).2.tables ∧
      tables.Settled (a.watchPass t time s).1.2 ∧
      (tables.Settled t → (a.watchPass t time s).1.2.state = t.state) := by
  have clean := leads_tidy shared s alone
  obtain ⟨⟨lines, settled, state⟩, still⟩ := ensures_snapshot shared t time _ clean
  rw [MemoryTables.deviceAnswer_tidied] at lines
  rw [MemoryTables.settled_tidied] at settled state
  exact ⟨lines, still, settled, state⟩

/-- While the tracker stays in its state, a pass raises no alert; it never raises two. -/
theorem raised_watchPass (a : Accounting SharedTables) (t : Tracker) (time : Option String)
    (s : Session SharedTables) :
    ∃ alerts : List Alert, alerts.length ≤ 1 ∧
      ((a.watchPass t time s).1.2.state = t.state → alerts = []) ∧
      (a.watchPass t time s).2.raised t.sink = s.raised t.sink ++ alerts := by
  obtain ⟨calls, tracked, -, raised⟩ := a.follows_watchPass t time s
  have count := tracked.length_alerts
  refine ⟨TrackerCall.alerts calls, ?_, fun same => ?_, raised⟩
  · rw [count, TrackerState.alertsUntil]
    split <;> decide
  · rw [same, TrackerState.alertsUntil_self] at count
    exact List.eq_nil_of_length_eq_zero count

/-! ### All passes -/

section Passes

variable (a : Accounting σ) (interrupted : σ → Bool)

/-- A watch goes on after a pass in which it was not interrupted. -/
theorem watchPasses_cons (time : Option String) (times : List (Option String)) (t : Tracker)
    (s : Session σ) :
    a.watchPasses interrupted (time :: times) t s =
      if interrupted (a.watchPass t time s).2.tables then
        (((a.watchPass t time s).1.1, .interrupted), (note .shutdown (a.watchPass t time s).2).2)
      else
        let rest :=
          a.watchPasses interrupted times (a.watchPass t time s).1.2 (a.watchPass t time s).2
        (((a.watchPass t time s).1.1 ++ rest.1.1, rest.1.2), rest.2) := by
  rw [watchPasses, bind_apply]
  obtain ⟨⟨lines, tracker⟩, after⟩ := a.watchPass t time s
  change (if interrupted after.tables then _ else _ : Query σ _) after = _
  split <;> rfl

/-- The lines of passes at these times, the first of which is made after `before`. -/
def linesOfPasses (before : List (Option String)) (t : Tracker) (s : Session σ) :
    List (Option String) → List String
  | [] => []
  | time :: times =>
    a.passLines before time t s ++ linesOfPasses (before ++ [time]) t s times

theorem linesOfPasses_cons (time : Option String) (before times : List (Option String))
    (t : Tracker) (s : Session σ) :
    a.linesOfPasses (time :: before) t s times =
      a.linesOfPasses before (a.watchPass t time s).1.2 (a.watchPass t time s).2 times := by
  induction times generalizing before with
  | nil => rfl
  | cons next times ih =>
      rw [linesOfPasses, linesOfPasses, List.cons_append, ih]
      rfl

/-- A watch is a pass at each of the first times, at all of them if it is never interrupted. -/
theorem exists_passes (times : List (Option String)) (t : Tracker) (s : Session σ) :
    ∃ made, made <+: times ∧ (times ≠ [] → made ≠ []) ∧
      ((∀ x, interrupted x = false) → made = times) ∧
      (a.watchPasses interrupted times t s).1.1 = a.linesOfPasses [] t s made ∧
      (a.watchPasses interrupted times t s).2.tables = (a.afterPasses made t s).2.tables ∧
      ∀ sink, (a.watchPasses interrupted times t s).2.raised sink =
        (a.afterPasses made t s).2.raised sink := by
  induction times generalizing t s with
  | nil => exact ⟨[], List.prefix_rfl, id, fun _ => rfl, rfl, rfl, fun _ => rfl⟩
  | cons time times ih =>
      rw [watchPasses_cons]
      by_cases stops : interrupted (a.watchPass t time s).2.tables = true
      · rw [if_pos stops]
        refine ⟨[time], ⟨times, rfl⟩, fun _ => nofun, ?_, ?_, rfl, ?_⟩
        · intro never
          rw [never] at stops
          cases stops
        · exact (List.append_nil _).symm
        · have quiet : Quiet (note .shutdown : Query σ Unit) := .note rfl
          exact (quiet _).2
      · rw [if_neg stops]
        obtain ⟨made, first, -, all, lines, tables, raised⟩ :=
          ih (a.watchPass t time s).1.2 (a.watchPass t time s).2
        refine ⟨time :: made, (List.prefix_cons_inj time).mpr first, fun _ => nofun, ?_, ?_, tables,
          raised⟩
        · intro never
          rw [all never]
        · rw [linesOfPasses, List.nil_append, linesOfPasses_cons, ← lines]
          rfl

end Passes

variable {t : Tracker} {s : Session SharedTables}

/-- Passes change nothing of what the device report answers. -/
theorem exists_undisturbed_afterPasses (shared : a.tables = tableSet)
    (alone : Undisturbed tables s.tables) (times : List (Option String)) :
    ∃ tables', Undisturbed tables' (a.afterPasses times t s).2.tables ∧
      tables'.deviceAnswer = tables.deviceAnswer := by
  induction times generalizing tables t s with
  | nil => exact ⟨tables, alone, rfl⟩
  | cons time times ih =>
      obtain ⟨-, clean, -⟩ := watchPass_spec shared t time alone
      obtain ⟨tables', after, same⟩ := ih clean
      exact ⟨tables', after, same.trans MemoryTables.deviceAnswer_tidied⟩

/-- Passes over clean tables with a settled tracker change nothing. -/
theorem afterPasses_steady (shared : a.tables = tableSet) (clean : tables.tidied = tables)
    (alone : Undisturbed tables s.tables) (settled : tables.Settled t)
    (times : List (Option String)) :
    Undisturbed tables (a.afterPasses times t s).2.tables ∧
      (a.afterPasses times t s).2.raised t.sink = s.raised t.sink := by
  induction times generalizing t s with
  | nil => exact ⟨alone, rfl⟩
  | cons time times ih =>
      obtain ⟨-, alone', settled', unmoved⟩ := watchPass_spec shared t time alone
      obtain ⟨calls, tracked, -⟩ := a.follows_watchPass t time s
      obtain ⟨alerts, -, none, raised⟩ := a.raised_watchPass t time s
      rw [clean] at alone'
      rw [none (unmoved settled), List.append_nil] at raised
      obtain ⟨alone'', later⟩ := ih alone' settled'
      rw [tracked.settings_eq.2, raised] at later
      exact ⟨alone'', later⟩

/-- Whatever passes were made before, a pass prints the report of the device table. -/
theorem passLines_eq (shared : a.tables = tableSet) (alone : Undisturbed tables s.tables)
    (before : List (Option String)) (time : Option String) :
    a.passLines before time t s = (printed tables.deviceAnswer).map (stamped time) := by
  obtain ⟨tables', alone', same⟩ := exists_undisturbed_afterPasses shared alone before
  rw [← same]
  exact (watchPass_spec shared _ time alone').1

/-- After its first pass a watch finds the tables clean, and raises no more alerts. -/
theorem afterPasses_cons (shared : a.tables = tableSet) (alone : Undisturbed tables s.tables)
    (time : Option String) (times : List (Option String)) :
    Undisturbed tables.tidied (a.afterPasses (time :: times) t s).2.tables ∧
      (a.afterPasses (time :: times) t s).2.raised t.sink =
        (a.watchPass t time s).2.raised t.sink := by
  obtain ⟨-, clean, settled, -⟩ := watchPass_spec shared t time alone
  obtain ⟨calls, tracked, -⟩ := a.follows_watchPass t time s
  have steady := afterPasses_steady shared MemoryTables.tidied_tidied clean
    ((MemoryTables.settled_tidied _).mpr settled) times
  rw [tracked.settings_eq.2] at steady
  exact steady

/-- What passes at these times print that all print the same lines: the lines, each time with the
time of the pass. -/
def stampedLines (lines : List String) (times : List (Option String)) : List String :=
  (times.map fun time => lines.map (stamped time)).flatten

/-- Passes that all print the same lines up to the time print them each time. -/
theorem linesOfPasses_eq_stampedLines {lines : List String}
    (same : ∀ before time, a.passLines before time t s = lines.map (stamped time))
    (before times : List (Option String)) :
    a.linesOfPasses before t s times = stampedLines lines times := by
  induction times generalizing before with
  | nil => rfl
  | cons time times ih =>
      rw [linesOfPasses, same, ih]
      rfl

/-- How a service watches tables that nobody else edits. -/
structure WatchesSteadily (a : Accounting SharedTables) (tables : MemoryTables)
    (s : Session SharedTables) : Prop where
  -- Every pass prints the device report as it is at that time, and the time before each line.
  prints : ∀ before time, a.passLines before time a.newTracker s =
    (printed (a.deviceReport (a.afterPasses before a.newTracker s).2).1).map (stamped time)
  -- It is the same at all times, so the lines of two passes differ in nothing but the time.
  alike : ∀ before time, a.passLines before time a.newTracker s =
    (printed (a.deviceReport s).1).map (stamped time)
  refused : tables.device.unavailable = true → printed (a.deviceReport s).1 = []
  -- A cleanup removes rows of the tag table and nothing else.
  removes : ∃ rows, (a.cleanTags s).2.tables.tables = tables.withTagRows rows ∧
    ∀ cookie slot, rows.get? cookie = some slot → tables.cookieTags.rows.get? cookie = some slot
  -- What passes remove is what one cleanup removes.
  once : ∀ first later, (a.afterPasses (first :: later) a.newTracker s).2.tables.tables =
    (a.cleanTags s).2.tables.tables
  -- What alerts passes raise the first one raises.
  alerts : ∃ alerts : List Alert, alerts.length ≤ 1 ∧ ∀ first later,
    (a.afterPasses (first :: later) a.newTracker s).2.raised a.sink = s.raised a.sink ++ alerts
  -- A watch is a number of such passes, all that were asked for if it is never interrupted,
  -- whatever the clock shows.
  run : ∀ interrupted passes clock, ∃ made, made <+: (List.range passes).map clock ∧
    (0 < passes → made ≠ []) ∧
    ((∀ x, interrupted x = false) → made = (List.range passes).map clock) ∧
    (a.watch interrupted passes clock s).1.1 = stampedLines (printed (a.deviceReport s).1) made ∧
    (a.watch interrupted passes clock s).2.tables = (a.afterPasses made a.newTracker s).2.tables ∧
    (a.watch interrupted passes clock s).2.raised a.sink =
      (a.afterPasses made a.newTracker s).2.raised a.sink

/-- A watch is steady from its second pass on, whatever rows there are, whichever tables are
unavailable and whichever deletes are refused. -/
theorem watchesSteadily (shared : a.tables = tableSet) (alone : Undisturbed tables s.tables) :
    a.WatchesSteadily tables s := by
  have report {tables' : MemoryTables} {s' : Session SharedTables}
      (alone' : Undisturbed tables' s'.tables) : (a.deviceReport s').1 = tables'.deviceAnswer :=
    (ensures_deviceReportWith shared a.newTracker s' alone').1.1
  have later := afterPasses_cons (t := a.newTracker) shared alone
  have cleaned := leads_cleanTags_tidied shared s alone
  constructor
  case prints =>
    intro before time
    obtain ⟨tables', alone', same⟩ :=
      exists_undisturbed_afterPasses (t := a.newTracker) shared alone before
    rw [passLines_eq shared alone, report alone', same]
  case alike =>
    intro before time
    rw [passLines_eq shared alone, report alone]
  case refused =>
    intro unavailable
    rw [report alone, MemoryTables.deviceAnswer, answerFrom_dump, unavailable]
    rfl
  case removes =>
    rw [cleaned.tables]
    exact MemoryTables.exists_tidied_eq tables
  case once => exact fun time times => (later time times).1.tables.trans cleaned.tables.symm
  case alerts =>
    obtain ⟨alerts, atMostOne, -, raised⟩ := a.raised_watchPass a.newTracker none s
    refine ⟨alerts, atMostOne, fun time times => ?_⟩
    have still := (later time times).2
    rw [(a.watchPass_time a.newTracker time s).2] at still
    exact still.trans raised
  case run =>
    intro interrupted passes clock
    obtain ⟨made, first, some, all, printedLines, left, raised⟩ :=
      a.exists_passes interrupted ((List.range passes).map clock) a.newTracker s
    refine ⟨made, first, ?_, all, printedLines.trans ?_, left, raised a.sink⟩
    · intro positive
      refine some fun none => ?_
      simp at none
      omega
    · rw [report alone]
      exact a.linesOfPasses_eq_stampedLines (passLines_eq shared alone) [] made

/-- A named and an unnamed interface with traffic and a row that cannot be read, a tag in use, a
stale tag, and a stale tag whose delete fails. -/
def watched : MemoryTables :=
  { retainedTag with
    device := (MemoryStore.ofList [(1, ⟨10, 1, 5, 1⟩), (2, ⟨40, 1, 20, 1⟩)]).insertMalformed 3
      "short value"
    ifaceNames := .ofList [(1, .ofName "wlan0")] }

/-- A service that raises an alert for 50 bytes and keeps it. -/
def watcher : Accounting SharedTables := { new tableSet with sink := .keep, threshold := 50 }

/-- The clock at the passes of a watch, a minute between two of them. -/
def everyMinute (pass : Nat) : Option String :=
  some ("2025-03-01T12:0" ++ Text.natural pass ++ ":00Z")

/-- Two passes print the named interface twice, raise one alert and remove one tag. -/
theorem watchesSteadily_watched :
    watcher.WatchesSteadily watched (.start (.quiet watched)) ∧
      (watcher.watch (fun _ => false) 2 everyMinute (.start (.quiet watched))).1 =
        (["[2025-03-01T12:00:00Z] " ++
            "wlan0 uid:all set:All tag:0x0 - rx_bytes: 10 rx_packets: 1 tx_bytes: 5 tx_packets: 1",
          "[2025-03-01T12:01:00Z] " ++
            "wlan0 uid:all set:All tag:0x0 - rx_bytes: 10 rx_packets: 1 tx_bytes: 5 tx_packets: 1"],
          .stopped) ∧
      (watcher.watch (fun _ => false) 2 everyMinute (.start (.quiet watched))).2.raised .keep =
        [⟨2, 60⟩] ∧
      (watcher.watch (fun _ => false) 2 everyMinute
        (.start (.quiet watched))).2.tables.tables.cookieTags.rows.keys = [1, 3, 4] :=
  ⟨watchesSteadily rfl (undisturbed_quiet _), by decide +kernel, by decide +kernel,
    by decide +kernel⟩

end Accounting

end TrafficStats
