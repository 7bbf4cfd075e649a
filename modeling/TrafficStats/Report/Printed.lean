import TrafficStats.Report.Group
import TrafficStats.Report.Line
import TrafficStats.Report.Reading

/-!
# Printed reports

A report is printed as one line of JSON for each record, either as it was read or grouped.
How many rows were skipped is not printed; it is in the log.
-/

namespace TrafficStats.Report

/-- The records that are shown for a report, grouped if that is asked for. -/
def shown (r : Report) (grouped : Bool) : List ReportRecord :=
  if grouped then group r.records else r.records

def lines (r : Report) (grouped : Bool) : List String :=
  (r.shown grouped).map ReportRecord.line

end TrafficStats.Report
