import TrafficStats.Proofs.Shared.Undisturbed
import TrafficStats.Proofs.Total.Bounds

/-!
# Rows that are read while they are raised

A counter table in use is raised: rows are added to it and the counters of its rows grow.
`Gathered` relates such a table to what an enumeration of it has read until now. Raising
rows keeps it (`Gathered.raise`) and so does reading the next row (`Gathered.read`); at the
end what was read lies between the rows of the beginning and those of the end
(`Gathered.between`).
-/

namespace TrafficStats

open Total

variable {K V : Type} [Ranked K]

namespace MemoryStore

/-- An available table all of whose rows can be read. -/
structure Sound (store : MemoryStore K V) : Prop where
  available : store.unavailable = false
  live : ∀ k slot, store.rows.get? k = some slot → ∃ v, slot = .live v

theorem sound_of_malformedRows {store : MemoryStore K V} (available : store.unavailable = false)
    (wellFormed : store.malformedRows = 0) : store.Sound := by
  refine ⟨available, ?_⟩
  intro k slot found
  have mem := (Rows.get?_eq_some_iff _ _ _).mp found
  cases slot with
  | live v => exact ⟨v, rfl⟩
  | malformed reason =>
      have none := List.countP_eq_zero.mp wellFormed _ mem
      exact absurd rfl none

theorem Sound.insert {store : MemoryStore K V} (h : store.Sound) (k : K) (v : V) :
    (store.insert k v).Sound := by
  refine ⟨h.available, ?_⟩
  intro k' slot found
  rw [MemoryStore.insert, Rows.get?_insert] at found
  split at found
  · cases found
    exact ⟨v, rfl⟩
  · exact h.live k' slot found

theorem Sound.iterate_eq {store : MemoryStore K V} (h : store.Sound) :
    store.iterate = .ok (store.rows.keys.map .key) := by
  rw [iterate, h.available]
  rfl

theorem nodup_keys (store : MemoryStore K V) : store.rows.keys.Nodup :=
  nodup_of_increasing store.rows.sorted_keys

theorem nodup_liveRows (store : MemoryStore K V) : (store.liveRows.map Prod.fst).Nodup :=
  nodup_of_increasing (List.pairwise_map.mpr store.sorted_liveRows)

variable {store store' store'' : MemoryStore K RawCounters}

/-- Whether storing counters under a key lowers none of those that are stored there. -/
def raises (store : MemoryStore K RawCounters) (k : K) (raw : RawCounters) : Bool :=
  match store.rows.get? k with
  | some (.live old) => old ≤ raw
  | _ => true

/-- Every row of a table is still there, with counters that are no smaller. -/
def RaisedTo (store store' : MemoryStore K RawCounters) : Prop :=
  ∀ k raw, store.rows.get? k = some (.live raw) →
    ∃ raw', store'.rows.get? k = some (.live raw') ∧ raw ≤ raw'

theorem RaisedTo.refl (store : MemoryStore K RawCounters) : store.RaisedTo store := by
  intro k raw found
  exact ⟨raw, found, le_refl raw⟩

theorem RaisedTo.trans (h : store.RaisedTo store') (h' : store'.RaisedTo store'') :
    store.RaisedTo store'' := by
  intro k raw found
  obtain ⟨raw', found', le⟩ := h k raw found
  obtain ⟨raw'', found'', le'⟩ := h' k raw' found'
  exact ⟨raw'', found'', le_trans le le'⟩

theorem raisedTo_insert {k : K} {raw : RawCounters} (h : store.raises k raw = true) :
    store.RaisedTo (store.insert k raw) := by
  intro k' old found
  rw [MemoryStore.insert, Rows.get?_insert]
  split
  · rename_i same
    obtain rfl := Ranked.rank_injective same
    rw [raises, found] at h
    exact ⟨raw, rfl, of_decide_eq_true h⟩
  · exact ⟨old, found, le_refl old⟩

end MemoryStore

open MemoryStore

/-- The table of a total while it is worked through: which rows were read until now, and which
keys are still to be visited. -/
structure Gathered (start : MemoryStore K RawCounters) (ahead : List K)
    (rows : List (K × RawCounters)) (now : MemoryStore K RawCounters) : Prop where
  sound : now.Sound
  raised : start.RaisedTo now
  nodup : (rows.map Prod.fst ++ ahead).Nodup
  -- No row of the beginning is lost.
  covers : ∀ k raw, start.rows.get? k = some (.live raw) →
    (∃ raw', (k, raw') ∈ rows ∧ raw ≤ raw') ∨ k ∈ ahead
  -- No row was read that is not there, or that has smaller counters now.
  reached : ∀ k raw, (k, raw) ∈ rows → ∃ raw', now.rows.get? k = some (.live raw') ∧ raw ≤ raw'
  present : ∀ k ∈ ahead, now.rows.get? k ≠ none

namespace Gathered

variable {start now now' : MemoryStore K RawCounters} {ahead : List K}
variable {rows : List (K × RawCounters)}

theorem begin (sound : now.Sound) (raised : start.RaisedTo now) :
    Gathered start now.rows.keys [] now := by
  refine ⟨sound, raised, now.nodup_keys, ?_, ?_, ?_⟩
  · intro k raw found
    obtain ⟨raw', found', -⟩ := raised k raw found
    exact .inr ((Rows.mem_keys_iff _ _).mpr ⟨_, found'⟩)
  · intro k raw mem
    cases mem
  · intro k hk absent
    obtain ⟨slot, found⟩ := (Rows.mem_keys_iff _ _).mp hk
    rw [found] at absent
    cases absent

/-- Raising rows meanwhile does no harm. -/
theorem raise (h : Gathered start ahead rows now) (sound : now'.Sound)
    (raised : now.RaisedTo now') : Gathered start ahead rows now' := by
  refine ⟨sound, h.raised.trans raised, h.nodup, h.covers, ?_, ?_⟩
  · intro k raw mem
    obtain ⟨raw', found, le⟩ := h.reached k raw mem
    obtain ⟨raw'', found', le'⟩ := raised k raw' found
    exact ⟨raw'', found', le_trans le le'⟩
  · intro k hk absent
    obtain ⟨slot, found⟩ := Option.ne_none_iff_exists'.mp (h.present k hk)
    obtain ⟨raw, rfl⟩ := h.sound.live k slot found
    obtain ⟨raw', found', -⟩ := raised k raw found
    rw [found'] at absent
    cases absent

/-- The next row is read as it is now. -/
theorem read {k : K} {raw : RawCounters} (h : Gathered start (k :: ahead) rows now)
    (found : now.rows.get? k = some (.live raw)) :
    Gathered start ahead (rows ++ [(k, raw)]) now := by
  refine ⟨h.sound, h.raised, ?_, ?_, ?_, fun x hx => h.present x (List.mem_cons_of_mem _ hx)⟩
  · have nodup := h.nodup
    simpa using nodup
  · intro x old first
    rcases h.covers x old first with ⟨raw', mem, le⟩ | next
    · exact .inl ⟨raw', List.mem_append_left _ mem, le⟩
    · rcases List.mem_cons.mp next with rfl | later
      · obtain ⟨raw', found', le⟩ := h.raised x old first
        rw [found] at found'
        cases found'
        exact .inl ⟨raw, List.mem_append_right _ List.mem_cons_self, le⟩
      · exact .inr later
  · intro x old mem
    rcases List.mem_append.mp mem with mem | mem
    · exact h.reached x old mem
    · cases List.mem_singleton.mp mem
      exact ⟨raw, found, le_refl raw⟩

/-- At the end, what was read lies between the rows of the beginning and those of the end. -/
theorem between (h : Gathered start [] rows now) :
    RaisedIn start.liveRows rows ∧ RaisedIn rows now.liveRows := by
  refine ⟨⟨start.nodup_liveRows, ?_⟩, ⟨?_, ?_⟩⟩
  · intro k raw mem
    rcases h.covers k raw ((start.mem_liveRows k raw).mp mem) with read | ahead
    · exact read
    · cases ahead
  · have nodup := h.nodup
    rwa [List.append_nil] at nodup
  · intro k raw mem
    obtain ⟨raw', found, le⟩ := h.reached k raw mem
    exact ⟨raw', (now.mem_liveRows k raw').mpr found, le⟩

end Gathered

end TrafficStats
