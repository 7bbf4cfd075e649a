import TrafficStats.Config
import TrafficStats.Proofs.Json.Flat
import TrafficStats.Proofs.Json.Records
import TrafficStats.Report.Printed

/-!
# Reading printed records

A printed record can be read back: whoever reads its line as an object with the eight fields of a
record, all of which have to be there, gets the same record, counters included. The reader is the
one that reads configurations; what it is told here are the fields and what to do with them.
-/

namespace TrafficStats

open Json

/-! ### Parts of a record -/

/-- What a member of a printed record says. -/
inductive RecordPart where
  | iface (name : String)
  | uid (n : UInt32)
  | set (s : TrafficSet)
  | tag (n : UInt32)
  | rxBytes (n : Int64)
  | rxPackets (n : Int64)
  | txBytes (n : Int64)
  | txPackets (n : Int64)

/-- A record as far as its parts are known. -/
structure RecordDraft where
  iface : Option String
  uid : Option UInt32
  set : Option TrafficSet
  tag : Option UInt32
  rxBytes : Option Int64
  rxPackets : Option Int64
  txBytes : Option Int64
  txPackets : Option Int64

namespace RecordDraft

def blank : RecordDraft := ⟨none, none, none, none, none, none, none, none⟩

def put (draft : RecordDraft) : RecordPart → RecordDraft
  | .iface name => { draft with iface := some name }
  | .uid n => { draft with uid := some n }
  | .set s => { draft with set := some s }
  | .tag n => { draft with tag := some n }
  | .rxBytes n => { draft with rxBytes := some n }
  | .rxPackets n => { draft with rxPackets := some n }
  | .txBytes n => { draft with txBytes := some n }
  | .txPackets n => { draft with txPackets := some n }

def record? (draft : RecordDraft) : Option ReportRecord := do
  let counters : Counters :=
    ⟨← draft.rxBytes, ← draft.rxPackets, ← draft.txBytes, ← draft.txPackets⟩
  pure ⟨← draft.iface, ← draft.uid, ← draft.set, ← draft.tag, counters⟩

end RecordDraft

/-! ### Reading a line -/

def TrafficSet.ofName? (name : String) : Option TrafficSet :=
  [all, default, foreground].find? fun set => set.name = name

def readSet : Decoder TrafficSet := fun text => do
  let (name, rest) ← readText "a traffic set" text
  match TrafficSet.ofName? name with
  | some set => pure (set, rest)
  | none => throw (.mismatch (.wrongKind (.text name) "a traffic set"))

def readUnsigned : Decoder UInt32 := fun text =>
  (readIntegerIn unsigned32 text).map fun (i, rest) => (.ofNat i.toNat, rest)

def readSigned : Decoder Int64 := fun text =>
  (readIntegerIn signed64 text).map fun (i, rest) => (.ofInt i, rest)

def partField {α : Type} (name : String) (decoder : Decoder α) (part : α → RecordPart) :
    Json.Field RecordDraft :=
  .of name decoder fun draft a => draft.put (part a)

def RecordDraft.fields : List (Json.Field RecordDraft) :=
  [partField "iface" (readText "a string") .iface, partField "uid" readUnsigned .uid,
    partField "set" readSet .set, partField "tag" readUnsigned .tag,
    partField "rx_bytes" readSigned .rxBytes, partField "rx_packets" readSigned .rxPackets,
    partField "tx_bytes" readSigned .txBytes, partField "tx_packets" readSigned .txPackets]

/-- The record that a line tells. -/
def ReportRecord.ofLine? (line : String) : Option ReportRecord :=
  match readDocument (readRecord "a record" RecordDraft.fields .blank) line.toList with
  | .ok draft => draft.record?
  | .error _ => none

/-! ### What is read -/

namespace RecordPart

def member : RecordPart → String × Scalar
  | iface name => ("iface", .text name)
  | uid n => ("uid", .number n.toNat)
  | set s => ("set", .text s.name)
  | tag n => ("tag", .number n.toNat)
  | rxBytes n => ("rx_bytes", .number n.toInt)
  | rxPackets n => ("rx_packets", .number n.toInt)
  | txBytes n => ("tx_bytes", .number n.toInt)
  | txPackets n => ("tx_packets", .number n.toInt)

def name (part : RecordPart) : String := part.member.1

def Writes (part : RecordPart) (t : List Char) : Prop := part.member.2.Writes t

end RecordPart

/-- The parts of a record, in the order in which they are printed. -/
def ReportRecord.parts (r : ReportRecord) : List RecordPart :=
  [.iface r.iface, .uid r.uid, .set r.set, .tag r.tag, .rxBytes r.counters.rxBytes,
    .rxPackets r.counters.rxPackets, .txBytes r.counters.txBytes, .txPackets r.counters.txPackets]

theorem ReportRecord.members_eq (r : ReportRecord) : r.members = r.parts.map RecordPart.member :=
  rfl

variable {t : List Char} {r : ReportRecord}

theorem TrafficSet.ofName?_name (set : TrafficSet) : ofName? set.name = some set := by
  cases set <;> decide

theorem readSet_reads {set : TrafficSet} (h : (Scalar.text set.name).Writes t) :
    readSet.Reads t (.ok set) := by
  cases h with
  | text h =>
      have reads := readText_reads "a traffic set" h
      refine ⟨reads.starts, fun b rest hb stops => ?_⟩
      simp only [readSet, reads.reads b rest hb stops, bind, Except.bind, Except.map,
        TrafficSet.ofName?_name, pure, Except.pure]

theorem readUnsigned_reads {n : UInt32} (h : (Scalar.number n.toNat).Writes t) :
    readUnsigned.Reads t (.ok n) := by
  have upper := n.toNat_lt
  cases h
  have reads : (readIntegerIn unsigned32).Reads (Text.integer n.toNat).toList (.ok n.toNat) :=
    readIntegerIn_integer (by omega) (by simp only [unsigned32]; omega)
  refine ⟨reads.starts, fun b rest hb stops => ?_⟩
  simp only [readUnsigned, reads.reads b rest hb stops, Except.map, Int.toNat_natCast,
    UInt32.ofNat_toNat]

theorem readSigned_reads {n : Int64} (h : (Scalar.number n.toInt).Writes t) :
    readSigned.Reads t (.ok n) := by
  have lower := n.le_toInt
  have upper := n.toInt_lt
  cases h
  have reads : (readIntegerIn signed64).Reads (Text.integer n.toInt).toList (.ok n.toInt) :=
    readIntegerIn_integer (by omega) (by simp only [signed64]; omega)
  refine ⟨reads.starts, fun b rest hb stops => ?_⟩
  simp only [readSigned, reads.reads b rest hb stops, Except.map, Int64.ofInt_toInt]

theorem partField_reads {α : Type} {decoder : Decoder α} {a : α} (h : decoder.Reads t (.ok a))
    (name : String) (part : α → RecordPart) (draft : RecordDraft) :
    Decoder.Reads ((partField name decoder part).read draft) t (.ok (draft.put (part a))) :=
  field_reads h name (fun (draft : RecordDraft) (a : α) => draft.put (part a)) draft

theorem exists_field {α : Type} (decoder : Decoder α) (part : α → RecordPart) (a : α)
    (mem : partField (part a).name decoder part ∈ RecordDraft.fields)
    (reads : ∀ t, (part a).Writes t → decoder.Reads t (.ok a)) :
    ∃ f ∈ RecordDraft.fields, f.name = (part a).name ∧ ∀ t, (part a).Writes t →
      ∀ draft, Decoder.Reads (f.read draft) t (.ok (draft.put (part a))) :=
  ⟨_, mem, rfl, fun t h draft => partField_reads (reads t h) _ _ draft⟩

theorem understands_parts : Understands RecordDraft.fields RecordPart.name RecordPart.Writes
    fun draft part => .ok (draft.put part) := by
  refine ⟨by decide, fun part => ?_⟩
  cases part with
  | iface name =>
      refine exists_field (readText "a string") .iface name (.head _) fun t h => ?_
      cases h with
      | text h => exact readText_reads "a string" h
  | uid n => exact exists_field _ .uid n (.tail _ (.head _)) fun t => readUnsigned_reads
  | set s => exact exists_field _ .set s (.tail _ (.tail _ (.head _))) fun t => readSet_reads
  | tag n =>
      exact exists_field _ .tag n (by simp [RecordDraft.fields, RecordPart.name, RecordPart.member])
        fun t => readUnsigned_reads
  | rxBytes n =>
      exact exists_field _ .rxBytes n
        (by simp [RecordDraft.fields, RecordPart.name, RecordPart.member]) fun t => readSigned_reads
  | rxPackets n =>
      exact exists_field _ .rxPackets n
        (by simp [RecordDraft.fields, RecordPart.name, RecordPart.member]) fun t => readSigned_reads
  | txBytes n =>
      exact exists_field _ .txBytes n
        (by simp [RecordDraft.fields, RecordPart.name, RecordPart.member]) fun t => readSigned_reads
  | txPackets n =>
      exact exists_field _ .txPackets n
        (by simp [RecordDraft.fields, RecordPart.name, RecordPart.member]) fun t => readSigned_reads

/-- A member that says something about a record is one that its reader knows. -/
theorem Json.FlatMember.known {part : RecordPart} {known : List String}
    (h : FlatMember part.member t) :
    Member RecordPart.name known RecordPart.Writes (some part) t := by
  generalize eq : part.member = member at h
  cases h with
  | member hkey hm hn h =>
      have name : part.name = _ := congrArg Prod.fst eq
      have value : part.member.2 = _ := congrArg Prod.snd eq
      exact .known part (name ▸ hkey) hm hn (by rwa [RecordPart.Writes, value])

/-- Every object with the members of a record is read as that record. -/
theorem ReportRecord.ofLine?_of_flat {line : String} (h : FlatObject r.members line.toList) :
    ofLine? line = some r := by
  have record : Record RecordPart.name (RecordDraft.fields.map Json.Field.name) RecordPart.Writes
      r.parts line.toList := by
    rw [members_eq] at h
    have members : Enclosed '\x7b' '\x7d' (Member RecordPart.name
        (RecordDraft.fields.map Json.Field.name) RecordPart.Writes) (r.parts.map some) line.toList :=
      h.map fun part t => FlatMember.known
    exact .object members
  have draft := readRecord_reads "a record" understands_parts record .blank
  have nodup : (r.parts.map RecordPart.name).Nodup := by
    change ["iface", "uid", "set", "tag", "rx_bytes", "rx_packets", "tx_bytes", "tx_packets"].Nodup
    decide
  rw [putAll_eq_foldlM _ (fun _ _ => List.not_mem_nil) nodup, foldlM_eq_ok fun _ _ _ => rfl] at draft
  have read := readDocument_eq draft blanks_nil blanks_nil
  rw [List.nil_append, List.append_nil] at read
  rw [ofLine?, read]
  rfl

theorem ReportRecord.ofLine?_line (r : ReportRecord) : ofLine? r.line = some r :=
  ofLine?_of_flat (objectLine_flat r.members)

/-- What the line of a record is good for. -/
structure ReportRecord.PrintedFaithfully (r : ReportRecord) : Prop where
  -- It is an object with the eight members of the record, and with no others.
  object : FlatObject r.members r.line.toList
  wellFormed : WellFormed .value r.line.toList
  -- It does not end before its end.
  oneLine : '\n' ∉ r.line.toList ∧ '\r' ∉ r.line.toList
  -- All of the record is read back from it.
  decoded : ofLine? r.line = some r
  -- No other record has the same line.
  single : ∀ s : ReportRecord, s.line = r.line →
    s.identity = r.identity ∧ s.counters = r.counters

/-- Nothing of a report is lost by printing it: the line of a record tells all of it, and the
lines of a report tell its records, or its groups, in their order. -/
theorem Report.lines_lossless :
    (∀ r : ReportRecord, r.PrintedFaithfully) ∧
    ∀ report : Report,
      (report.lines false).map ReportRecord.ofLine? = report.records.map some ∧
      (report.lines true).map ReportRecord.ofLine? = (group report.records).map some := by
  refine ⟨fun r => ?_, fun report => ?_⟩
  · have flat : FlatObject r.members r.line.toList := objectLine_flat r.members
    have oneLine : OneLine r.line.toList := oneLine_objectLine r.members
    refine ⟨flat, flat.wellFormed, ⟨oneLine.notMem (by decide), oneLine.notMem (by decide)⟩,
      r.ofLine?_line, fun s same => ?_⟩
    have read := s.ofLine?_line
    rw [same, r.ofLine?_line] at read
    obtain rfl := Option.some.inj read
    exact ⟨rfl, rfl⟩
  · have all (records : List ReportRecord) :
        (records.map ReportRecord.line).map ReportRecord.ofLine? = records.map some := by
      simp only [List.map_map, Function.comp_def, ReportRecord.ofLine?_line]
    exact ⟨all report.records, all (group report.records)⟩

example : ReportRecord.line ⟨"a\"b\n\x1f", 5, .foreground, 7, ⟨-1, 2, 3, 4⟩⟩ =
    "\x7b\"iface\":\"a\\\"b\\n\\u001f\",\"uid\":5,\"set\":\"foreground\",\"tag\":7," ++
      "\"rx_bytes\":-1,\"rx_packets\":2,\"tx_bytes\":3,\"tx_packets\":4\x7d" := by
  decide +kernel

end TrafficStats
