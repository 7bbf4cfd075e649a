import TrafficStats.Report.Record

/-!
# Grouping records

Grouping puts records in order and replaces those of one identity by a single record that
carries the sum of their counters. It is a stable sort followed by one pass over the runs
of equal identities.
-/

namespace TrafficStats

namespace Report

/-- Records in the order of their identities; those of one identity keep their order. -/
def sort (records : List ReportRecord) : List ReportRecord :=
  records.mergeSort fun a b => (a.compare b).isLE

/-- Puts a record in front of a list without adjacent duplicates: it is added to the first
record if both have the same identity. -/
def mergeHead (r : ReportRecord) : List ReportRecord → List ReportRecord
  | [] => [r]
  | s :: rest =>
    if r.identity = s.identity then { r with counters := r.counters + s.counters } :: rest
    else r :: s :: rest

def sumRuns (records : List ReportRecord) : List ReportRecord :=
  records.foldr mergeHead []

/-- One record for each identity, in order, with the sum of the counters. -/
def group (records : List ReportRecord) : List ReportRecord :=
  sumRuns (sort records)

def mass (records : List ReportRecord) : Counters :=
  Counters.sum (records.map ReportRecord.counters)

end Report

end TrafficStats
