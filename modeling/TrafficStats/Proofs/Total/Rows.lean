import TrafficStats.Proofs.Counters.Sums
import TrafficStats.Proofs.Table.Steady
import TrafficStats.Total

/-!
# What a total holds

The total over a table that stays as it is holds the sum of the clamped counters of the
readable rows that are kept, and counts the rows that cannot be read, whichever are kept.
-/

namespace TrafficStats.Total

variable {σ K : Type} {steady : σ → Prop}

open Query RowResult

/-- The clamped counters of the rows whose keys are kept. -/
def keptCounters (kept : K → Bool) (rows : List (K × RawCounters)) : List Counters :=
  (rows.filter fun row => kept row.1).map fun row => row.2.clamped

theorem sum_keptCounters_cons (kept : K → Bool) (row : K × RawCounters)
    (rows : List (K × RawCounters)) :
    Counters.sum (keptCounters kept (row :: rows)) =
      (if kept row.1 then row.2.clamped else 0) + Counters.sum (keptCounters kept rows) := by
  cases hkept : kept row.1 <;> simp [keptCounters, hkept]

/-- What is kept splits into what is marked and what is not. -/
theorem sum_keptCounters_split (kept marked : K → Bool) (rows : List (K × RawCounters)) :
    Counters.sum (keptCounters kept rows) =
      Counters.sum (keptCounters (fun k => marked k && kept k) rows) +
        Counters.sum (keptCounters (fun k => !marked k && kept k) rows) := by
  have split := Counters.sum_map_filter_add (fun row : K × RawCounters => marked row.1)
    (fun row => row.2.clamped) (rows.filter fun row => kept row.1)
  rw [List.filter_filter, List.filter_filter] at split
  exact split.symm

/-- The total of rows whose keys are kept. -/
def ofKept (kept : K → Bool) (rows : List (RowResult K RawCounters)) : Total :=
  ⟨Counters.sum (keptCounters kept (readable rows)), unreadable rows⟩

theorem ofKept_map_ok (kept : K → Bool) (rows : List (K × RawCounters)) :
    ofKept kept (rows.map .ok) = ⟨Counters.sum (keptCounters kept rows), 0⟩ := by
  rw [ofKept, readable_map_ok, unreadable_map_ok]

theorem sum_keptCounters_perm (kept : K → Bool) {rows rows' : List (K × RawCounters)}
    (h : rows.Perm rows') :
    Counters.sum (keptCounters kept rows) = Counters.sum (keptCounters kept rows') :=
  Counters.sum_perm ((h.filter _).map _)

variable (kept : K → Bool) (done : List (RowResult K RawCounters))

theorem ofKept_concat_error (e : RowError) :
    ofKept kept (done ++ [.error e]) =
      ⟨(ofKept kept done).counters, (ofKept kept done).skippedRows + 1⟩ := by
  simp [ofKept]

theorem ofKept_concat_ok (row : K × RawCounters) :
    ofKept kept (done ++ [.ok row]) =
      ⟨(ofKept kept done).counters + if kept row.1 then row.2.clamped else 0,
        (ofKept kept done).skippedRows⟩ := by
  cases hkept : kept row.1 <;> simp [ofKept, keptCounters, Counters.sum_append, hkept]

variable {kept done} {table : TableAccess σ K RawCounters} {keep : K → Query σ Bool}
variable {read : K → Except StoreError (Option RawCounters)}
variable {rows : Except StoreError (List (RowResult K RawCounters))}

theorem ensures_addRow (name : TableName) (decides : ∀ k, Ensures steady (keep k) (· = kept k))
    (r : RowResult K RawCounters) :
    Ensures steady (addRow name keep (ofKept kept done) r) (· = ofKept kept (done ++ [r])) := by
  cases r with
  | error e =>
      refine .quiet_bind (fun _ => rfl) fun _ => .pure ?_
      rw [ofKept_concat_error]
  | ok row =>
      obtain ⟨k, raw⟩ := row
      refine (decides k).bind fun answer eq => ?_
      rw [eq, ofKept_concat_ok]
      cases kept k with
      | true => exact .pure rfl
      | false =>
          refine .pure ?_
          simp

/-- The sum over the rows that an enumeration delivers. -/
theorem ensures_foldRows {delivered : List (RowResult K RawCounters)} {c : Cursor K RawCounters}
    (delivers : table.Delivers steady delivered c) (name : TableName)
    (decides : ∀ k, Ensures steady (keep k) (· = kept k)) :
    Ensures steady (table.foldRows (addRow name keep) c zero) (· = ofKept kept delivered) := by
  have step : ∀ done r t, t = ofKept kept done →
      Ensures steady (addRow name keep t r) (· = ofKept kept (done ++ [r])) := by
    rintro done r t rfl
    exact ensures_addRow name decides r
  exact delivers.foldRows (fun done t => t = ofKept kept done) step [] rfl

/-- What the sum over a steady table answers. -/
theorem ensures_ofRows (shows : table.Shows steady read rows) (name : TableName)
    (decides : ∀ k, Ensures steady (keep k) (· = kept k)) :
    Ensures steady (ofRows name table keep) (· = answerFrom name rows (ofKept kept)) := by
  cases rows with
  | error e =>
      refine (shows.refuses e rfl).bind fun answer eq => ?_
      rw [eq]
      exact .pure rfl
  | ok delivered =>
      refine (shows.delivers delivered rfl).bind fun answer started => ?_
      obtain ⟨c, rfl, delivers⟩ := started
      refine .map ((ensures_foldRows delivers name decides).mono ?_)
      rintro t rfl
      rfl

end TrafficStats.Total
