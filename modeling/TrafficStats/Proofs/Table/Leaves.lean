import TrafficStats.Proofs.Table.Steady
import TrafficStats.Proofs.Unnamed.Tracked

/-!
# What a query leaves behind

A query adds calls to the trace of its session, and tables that keep a history add moments to
it. `Query.Leaves` says what is added by a query, together with its answer. The additions of
one part of a query stand before those of the next (`Leaves.bind`), and what every step of an
enumeration adds is carried along by an invariant (`Leaves.foldRows`). Tables without a history
have one that stays empty.
-/

namespace TrafficStats

variable {σ ω K V α β : Type} {history : σ → List ω} {steady : σ → Prop}

namespace Query

/-- Asked while `steady` holds of the tables, a query adds moments to their history and calls to
the trace of which `post` holds with its answer, and leaves tables of which `steady` holds. -/
def Leaves (history : σ → List ω) (steady : σ → Prop) (q : Query σ α)
    (post : α → List ω → List TrackerCall → Prop) : Prop :=
  ∀ s : Session σ, steady s.tables → ∃ moments calls,
    history (q s).2.tables = history s.tables ++ moments ∧
    (q s).2.calls.toList = s.calls.toList ++ calls ∧
    post (q s).1 moments calls ∧ steady (q s).2.tables

namespace Leaves

variable {q : Query σ α} {f : α → Query σ β}
variable {post post' : α → List ω → List TrackerCall → Prop}
variable {goal : β → List ω → List TrackerCall → Prop}

theorem mono (h : Leaves history steady q post)
    (weaker : ∀ a moments calls, post a moments calls → post' a moments calls) :
    Leaves history steady q post' := by
  intro s hs
  obtain ⟨moments, calls, told, traced, holds, still⟩ := h s hs
  exact ⟨moments, calls, told, traced, weaker _ _ _ holds, still⟩

/-- A query that leaves tables and trackers alone. -/
theorem of_unmoved (unmoved : ∀ s, (q s).2.tables = s.tables ∧ (q s).2.calls = s.calls)
    (h : ∀ s, post (q s).1 [] []) : Leaves history steady q post := by
  intro s hs
  obtain ⟨tables, calls⟩ := unmoved s
  refine ⟨[], [], ?_, ?_, h s, ?_⟩
  · rw [tables, List.append_nil]
  · rw [calls, List.append_nil]
  · rw [tables]
    exact hs

theorem pure {a : α} (h : post a [] []) :
    Leaves history steady (Pure.pure a : Query σ α) post :=
  of_unmoved (fun _ => ⟨rfl, rfl⟩) fun _ => h

/-- What the second part adds comes after what the first part has added. -/
theorem bind (first : Leaves history steady q post)
    (next : ∀ a moments calls, post a moments calls → Leaves history steady (f a)
      fun b moments' calls' => goal b (moments ++ moments') (calls ++ calls')) :
    Leaves history steady (q >>= f) goal := by
  intro s hs
  obtain ⟨moments, calls, told, traced, holds, still⟩ := first s hs
  obtain ⟨moments', calls', told', traced', holds', still'⟩ := next _ _ _ holds _ still
  rw [bind_apply]
  refine ⟨moments ++ moments', calls ++ calls', ?_, ?_, holds', still'⟩
  · rw [told', told, List.append_assoc]
  · rw [traced', traced, List.append_assoc]

/-- A first part that leaves tables and trackers alone adds nothing. -/
theorem unmoved_bind (unmoved : ∀ s, (q s).2.tables = s.tables ∧ (q s).2.calls = s.calls)
    (next : ∀ a, Leaves history steady (f a) goal) : Leaves history steady (q >>= f) goal := by
  have nothing : Leaves history steady q fun _ moments calls => moments = [] ∧ calls = [] :=
    of_unmoved unmoved fun _ => ⟨rfl, rfl⟩
  refine nothing.bind ?_
  rintro a _ _ ⟨rfl, rfl⟩
  exact next a

theorem trace (call : TrackerCall) :
    Leaves history steady (Query.trace call) fun _ moments calls =>
      moments = [] ∧ calls = [call] := by
  intro s hs
  exact ⟨[], [call], (List.append_nil _).symm, by rw [trace_apply, Array.toList_push],
    ⟨rfl, rfl⟩, hs⟩

/-- A query of a known answer that calls no tracker, over tables that keep no history. -/
theorem of_ensures {known : α → Prop} (h : Ensures steady q known) (quiet : Quiet q) :
    Leaves (fun _ => ([] : List ω)) steady q fun a _ calls => calls = [] ∧ known a := by
  intro s hs
  obtain ⟨answer, still⟩ := h s hs
  refine ⟨[], [], rfl, ?_, ⟨rfl, answer⟩, still⟩
  rw [(quiet s).1, List.append_nil]

/-- An invariant of all steps of an enumeration, which may speak of what is still to be visited,
of what was made of the rows until now and of what was added until now. -/
theorem foldRows {table : TableAccess σ K V} {f : β → RowResult K V → Query σ β}
    (inv : Cursor K V → β → List ω → List TrackerCall → Prop)
    (goal : β → List ω → List TrackerCall → Prop)
    (step : ∀ c b moments calls, inv c b moments calls →
      Leaves history steady (Query.onTables (table.next c)) fun answer moments' calls' =>
        (answer = none → goal b (moments ++ moments') (calls ++ calls')) ∧
        ∀ r rest, answer = some (r, rest) →
          Leaves history steady (f b r) fun b' moments'' calls'' =>
            inv rest b' (moments ++ moments' ++ moments'') (calls ++ calls' ++ calls''))
    {c : Cursor K V} {b : β} (moments : List ω) (calls : List TrackerCall)
    (start : inv c b moments calls) :
    Leaves history steady (table.foldRows f c b) fun b' moments' calls' =>
      goal b' (moments ++ moments') (calls ++ calls') := by
  intro s hs
  induction hn : c.length using Nat.strongRecOn generalizing c b moments calls s with
  | ind n ih =>
      obtain ⟨moments', calls', told, traced, ⟨ends, goes⟩, still⟩ :=
        step c b moments calls start s hs
      have shorter := table.next_shorter c
      rw [TableAccess.foldRows_eq, bind_apply]
      cases answer : (Query.onTables (table.next c) s).1 with
      | none => exact ⟨moments', calls', told, traced, ends answer, still⟩
      | some found =>
          obtain ⟨r, rest⟩ := found
          obtain ⟨moments'', calls'', told', traced', held, still'⟩ := goes r rest answer _ still
          obtain ⟨later, latest, told'', traced'', holds, still''⟩ :=
            ih rest.length (hn ▸ shorter rest s.tables r answer) _ _ held _ still' rfl
          refine ⟨moments' ++ moments'' ++ later, calls' ++ calls'' ++ latest, told''.trans ?_,
            traced''.trans ?_, ?_, still''⟩
          · simp only [told', told, List.append_assoc]
          · simp only [traced', traced, List.append_assoc]
          · simp only [List.append_assoc] at holds ⊢
            exact holds

end Leaves

end Query

end TrafficStats
