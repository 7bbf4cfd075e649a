import TrafficStats.Report.Record

/-!
# Printed form of counters and records

Counters and records are printed as flat JSON objects on one line. A record has eight
members: its identity and then its counters.
-/

namespace TrafficStats

def Counters.members (c : Counters) : List (String × Json.Scalar) :=
  [("rx_bytes", .number c.rxBytes.toInt), ("rx_packets", .number c.rxPackets.toInt),
    ("tx_bytes", .number c.txBytes.toInt), ("tx_packets", .number c.txPackets.toInt)]

def Counters.line (c : Counters) : String :=
  Json.objectLine c.members

def ReportRecord.members (r : ReportRecord) : List (String × Json.Scalar) :=
  [("iface", .text r.iface), ("uid", .number r.uid.toNat), ("set", .text r.set.name),
    ("tag", .number r.tag.toNat)] ++ r.counters.members

def ReportRecord.line (r : ReportRecord) : String :=
  Json.objectLine r.members

end TrafficStats
