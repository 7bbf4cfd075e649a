import TrafficStats.Table.Access

/-!
# Removing stale socket tags

A socket is tagged when it is opened, and nobody removes the tag when its traffic is no
longer counted. A cleanup pass deletes every tag for whose owner and tag number no detail
row is left. It lists the tags first and collects the live owners and tags afterwards, so
a row that appears during the pass can only keep more. If a detail row cannot be read,
the live ones are not all known and the pass deletes nothing.
-/

namespace TrafficStats.Cleanup

variable {σ : Type}

/-- The tags that were listed, and how many could not be read. -/
structure Listing where
  tags : Array (UInt64 × SocketTag)
  unreadable : Nat

def listTag (l : Listing) : RowResult UInt64 SocketTag → Query σ Listing
  | .ok entry => pure { l with tags := l.tags.push entry }
  | .error e => do
    Query.note (.rowSkipped .cookieTags e)
    pure { l with unreadable := l.unreadable + 1 }

/-- The owners and tags with a detail row, and how many rows could not be read. -/
structure LiveTags where
  tags : List SocketTag
  unreadable : Nat

def noteLive (l : LiveTags) : RowResult DetailKey RawCounters → Query σ LiveTags
  | .ok (k, _) => pure { l with tags := k.socketTag :: l.tags }
  | .error _ => pure { l with unreadable := l.unreadable + 1 }

/-- Examines one listed tag and deletes it if it is not live. -/
def removeStale (table : TableAccess σ UInt64 SocketTag) (live : List SocketTag)
    (report : CleanupReport) (entry : UInt64 × SocketTag) : Query σ CleanupReport :=
  let report := { report with scanned := report.scanned + 1 }
  if entry.2 ∈ live then pure report
  else do
    match ← Query.onTables (table.delete entry.1) with
    | .ok .deleted => pure { report with deleted := report.deleted + 1 }
    | .ok .alreadyAbsent => pure { report with alreadyAbsent := report.alreadyAbsent + 1 }
    | .error e =>
      Query.note (.deleteFailed entry.1 e)
      pure { report with failed := report.failed + 1 }

/-- Deletes the listed tags that are not live, unless the live ones are not all known. -/
def sweep (cookieTags : TableAccess σ UInt64 SocketTag) (listing : Listing) (live : LiveTags) :
    Query σ CleanupReport := do
  if 0 < live.unreadable then
    Query.note (.cleanupSkipped live.unreadable)
    pure ⟨listing.tags.size, 0, 0, listing.unreadable, live.unreadable⟩
  else
    let report ← listing.tags.toList.foldlM (removeStale cookieTags live.tags)
      { CleanupReport.zero with failed := listing.unreadable }
    Query.note (.cleanupDone report)
    pure report

def settle (cookieTags : TableAccess σ UInt64 SocketTag)
    (detail : TableAccess σ DetailKey RawCounters) (listing : Listing) :
    Query σ (Except QueryError CleanupReport) := do
  match ← Query.onTables detail.iterate with
  | .error e => pure (.error (.tableUnavailable .detail e))
  | .ok detailCursor =>
    let live ← detail.foldRows noteLive detailCursor ⟨[], 0⟩
    let report ← sweep cookieTags listing live
    pure (.ok report)

def pass (cookieTags : TableAccess σ UInt64 SocketTag)
    (detail : TableAccess σ DetailKey RawCounters) :
    Query σ (Except QueryError CleanupReport) := do
  match ← Query.onTables cookieTags.iterate with
  | .error e => pure (.error (.tableUnavailable .cookieTags e))
  | .ok tagCursor =>
    let listing ← cookieTags.foldRows listTag tagCursor ⟨#[], 0⟩
    settle cookieTags detail listing

end TrafficStats.Cleanup
