import TrafficStats.Proofs.Unnamed.Tracked

/-!
# Cleanup raises no alert

A cleanup pass has nothing to do with trackers: it calls none and raises no alert, whatever
happens to the tables meanwhile and whether it succeeds or not.
-/

namespace TrafficStats

variable {σ K V β : Type}

namespace Quiet

/-- Handlers of rows that leave trackers and alerts alone do so over a whole enumeration. -/
theorem foldRows (table : TableAccess σ K V) {f : β → RowResult K V → Query σ β}
    (hf : ∀ b r, Quiet (f b r)) (c : Cursor K V) (b : β) : Quiet (table.foldRows f c b) := by
  unfold TableAccess.foldRows
  generalize c.length + 1 = steps
  induction steps generalizing c b with
  | zero => exact pure b
  | succ steps ih =>
      refine (onTables _).bind fun answer => ?_
      cases answer with
      | none => exact pure b
      | some answer =>
          obtain ⟨r, rest⟩ := answer
          exact (hf b r).bind fun b' => ih rest b'

theorem foldlM {α : Type} {f : β → α → Query σ β} (hf : ∀ b a, Quiet (f b a)) (as : List α)
    (b : β) : Quiet (as.foldlM f b) := by
  induction as generalizing b with
  | nil => exact pure b
  | cons a as ih =>
      rw [List.foldlM_cons]
      exact (hf b a).bind ih

end Quiet

namespace Cleanup

theorem quiet_listTag (l : Listing) (r : RowResult UInt64 SocketTag) :
    Quiet (listTag l r : Query σ Listing) := by
  cases r with
  | ok entry => exact .pure _
  | error e => exact (Quiet.note rfl).bind fun _ => .pure _

theorem quiet_noteLive (l : LiveTags) (r : RowResult DetailKey RawCounters) :
    Quiet (noteLive l r : Query σ LiveTags) := by
  cases r with
  | ok row => exact .pure _
  | error e => exact .pure _

theorem quiet_removeStale (table : TableAccess σ UInt64 SocketTag) (live : List SocketTag)
    (report : CleanupReport) (entry : UInt64 × SocketTag) :
    Quiet (removeStale table live report entry) := by
  unfold removeStale
  split
  · exact .pure _
  · refine (Quiet.onTables _).bind fun answer => ?_
    match answer with
    | .ok .deleted => exact .pure _
    | .ok .alreadyAbsent => exact .pure _
    | .error e => exact (Quiet.note rfl).bind fun _ => .pure _

theorem quiet_sweep (cookieTags : TableAccess σ UInt64 SocketTag) (listing : Listing)
    (live : LiveTags) : Quiet (sweep cookieTags listing live) := by
  unfold sweep
  split
  · exact (Quiet.note rfl).bind fun _ => .pure _
  · refine (Quiet.foldlM (quiet_removeStale cookieTags live.tags) _ _).bind fun report => ?_
    exact (Quiet.note rfl).bind fun _ => .pure _

theorem quiet_pass (cookieTags : TableAccess σ UInt64 SocketTag)
    (detail : TableAccess σ DetailKey RawCounters) : Quiet (pass cookieTags detail) := by
  refine (Quiet.onTables _).bind fun answer => ?_
  cases answer with
  | error e => exact .pure _
  | ok c =>
      refine (Quiet.foldRows cookieTags quiet_listTag c _).bind fun listing => ?_
      refine (Quiet.onTables _).bind fun answer => ?_
      cases answer with
      | error e => exact .pure _
      | ok c =>
          refine (Quiet.foldRows detail quiet_noteLive c _).bind fun live => ?_
          exact (quiet_sweep cookieTags listing live).bind fun report => .pure _

end Cleanup

end TrafficStats
