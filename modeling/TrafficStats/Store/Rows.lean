import TrafficStats.Key

/-!
# Rows in key order

`Rows K α` is a finite map from keys to values, kept as a list with strictly increasing
keys. The order is part of the type, so two collections with the same rows are equal.
`get?` is the view through which the operations are described: `get?_insert`,
`get?_erase` and `mem_keys_iff` say what each of them does to it.
-/

namespace TrafficStats

/-- A finite map from keys to values, in the order of the keys. -/
structure Rows (K α : Type) [Ranked K] where
  entries : List (K × α)
  sorted : entries.Pairwise fun a b => rank a.1 < rank b.1

namespace Rows

variable {K α : Type} [Ranked K]

def empty : Rows K α := ⟨[], .nil⟩

/-- Rows in key order with one more row in its place; a row of the same key gives way. -/
def insertEntry (k : K) (a : α) : List (K × α) → List (K × α)
  | [] => [(k, a)]
  | e :: rest =>
    if rank k < rank e.1 then (k, a) :: e :: rest
    else if rank k = rank e.1 then (k, a) :: rest
    else e :: insertEntry k a rest

theorem mem_insertEntry {k : K} {a : α} {es : List (K × α)} {x : K × α}
    (h : x ∈ insertEntry k a es) : x = (k, a) ∨ x ∈ es := by
  induction es with
  | nil => simpa [insertEntry] using h
  | cons e rest ih =>
    rw [insertEntry] at h
    split at h
    · simpa using h
    · split at h
      · rcases List.mem_cons.mp h with h | h
        · exact .inl h
        · exact .inr (List.mem_cons_of_mem _ h)
      · rcases List.mem_cons.mp h with h | h
        · exact .inr (h ▸ List.mem_cons_self)
        · exact (ih h).imp_right (List.mem_cons_of_mem _)

theorem sorted_insertEntry {k : K} {a : α} {es : List (K × α)}
    (h : es.Pairwise fun a b => rank a.1 < rank b.1) :
    (insertEntry k a es).Pairwise fun a b => rank a.1 < rank b.1 := by
  induction es with
  | nil => simp [insertEntry]
  | cons e rest ih =>
    obtain ⟨head, tail⟩ := List.pairwise_cons.mp h
    rw [insertEntry]
    split
    · refine List.pairwise_cons.mpr ⟨fun x hx => ?_, h⟩
      rcases List.mem_cons.mp hx with hx | hx
      · subst hx
        assumption
      · have := head x hx
        simp only
        omega
    · split
      · refine List.pairwise_cons.mpr ⟨fun x hx => ?_, tail⟩
        have := head x hx
        simp only
        omega
      · refine List.pairwise_cons.mpr ⟨fun x hx => ?_, ih tail⟩
        rcases mem_insertEntry hx with hx | hx
        · subst hx
          simp only
          omega
        · exact head x hx

def insert (rows : Rows K α) (k : K) (a : α) : Rows K α :=
  ⟨insertEntry k a rows.entries, sorted_insertEntry rows.sorted⟩

def erase (rows : Rows K α) (k : K) : Rows K α :=
  ⟨rows.entries.filter fun e => rank e.1 ≠ rank k, rows.sorted.filter _⟩

def get? (rows : Rows K α) (k : K) : Option α :=
  (rows.entries.find? fun e => rank e.1 = rank k).map Prod.snd

def keys (rows : Rows K α) : List K :=
  rows.entries.map Prod.fst

def contains (rows : Rows K α) (k : K) : Bool :=
  (rows.get? k).isSome

def size (rows : Rows K α) : Nat :=
  rows.entries.length

/-- The rows of a list of pairs; of two pairs with one key the later one counts. -/
def ofList (pairs : List (K × α)) : Rows K α :=
  pairs.foldl (fun rows pair => rows.insert pair.1 pair.2) empty

theorem ext {a b : Rows K α} (h : a.entries = b.entries) : a = b := by
  cases a
  cases b
  cases h
  rfl

@[simp] theorem get?_empty (k : K) : (empty : Rows K α).get? k = none := rfl

theorem find?_insertEntry (k : K) (a : α) (es : List (K × α)) (k' : K)
    (h : es.Pairwise fun a b => rank a.1 < rank b.1) :
    ((insertEntry k a es).find? fun e => rank e.1 = rank k').map Prod.snd =
      if rank k = rank k' then some a
      else (es.find? fun e => rank e.1 = rank k').map Prod.snd := by
  induction es with
  | nil => by_cases hk : rank k = rank k' <;> simp [insertEntry, hk]
  | cons e rest ih =>
    obtain ⟨head, tail⟩ := List.pairwise_cons.mp h
    rw [insertEntry]
    split
    · by_cases hk : rank k = rank k' <;> simp [hk]
    · split
      · rename_i he
        by_cases hk : rank k = rank k'
        · simp [hk]
        · simp [hk, show ¬ rank e.1 = rank k' by omega]
      · by_cases hk : rank e.1 = rank k'
        · simp [hk, show ¬ rank k = rank k' by omega]
        · simpa [hk] using ih tail

theorem get?_insert (rows : Rows K α) (k : K) (a : α) (k' : K) :
    (rows.insert k a).get? k' = if rank k = rank k' then some a else rows.get? k' :=
  find?_insertEntry k a rows.entries k' rows.sorted

theorem get?_erase (rows : Rows K α) (k k' : K) :
    (rows.erase k).get? k' = if rank k = rank k' then none else rows.get? k' := by
  simp only [get?, erase, List.find?_filter]
  by_cases hk : rank k = rank k'
  · rw [if_pos hk, Option.map_eq_none_iff, List.find?_eq_none]
    simp
    omega
  · rw [if_neg hk]
    congr 2
    funext e
    by_cases he : rank e.1 = rank k' <;> simp [he]
    omega

theorem get?_eq_some_iff (rows : Rows K α) (k : K) (a : α) :
    rows.get? k = some a ↔ (k, a) ∈ rows.entries := by
  obtain ⟨es, h⟩ := rows
  simp only [get?]
  induction es with
  | nil => simp
  | cons e rest ih =>
    obtain ⟨head, tail⟩ := List.pairwise_cons.mp h
    by_cases hk : rank e.1 = rank k
    · have key : e.1 = k := Ranked.rank_injective hk
      simp only [List.find?_cons, hk, decide_true, Option.map_some, Option.some.injEq,
        List.mem_cons]
      constructor
      · rintro rfl
        exact .inl (by rw [← key])
      · rintro (rfl | hmem)
        · rfl
        · have := head _ hmem
          simp only at this
          omega
    · simp only [List.find?_cons, hk, decide_false, List.mem_cons]
      rw [ih tail]
      constructor
      · exact .inr
      · rintro (rfl | hmem)
        · exact absurd rfl hk
        · exact hmem

theorem mem_keys_iff (rows : Rows K α) (k : K) : k ∈ rows.keys ↔ ∃ a, rows.get? k = some a := by
  simp only [keys, List.mem_map, get?_eq_some_iff]
  constructor
  · rintro ⟨e, he, rfl⟩
    exact ⟨e.2, he⟩
  · rintro ⟨a, ha⟩
    exact ⟨(k, a), ha, rfl⟩

theorem sorted_keys (rows : Rows K α) : rows.keys.Pairwise fun a b => rank a < rank b := by
  rw [keys, List.pairwise_map]
  exact rows.sorted

end Rows

end TrafficStats
