import TrafficStats.Proofs.Kernel.Holding

/-!
# Kinds of errors

Callers tell two kinds of errors apart. A pinned table that cannot be opened or enumerated is
unavailable as a whole, and the message of the error says so; a read, a delete or a write that
fails is the failure of that one operation. Of the kernel's error numbers only `ENOENT` has a
meaning of its own: the row is gone, which is no failure of a read or a delete, and at the end
of a walk it is how the kernel tells that there is no further key.
-/

namespace TrafficStats

namespace StoreError

/-- A message that begins with another letter is of another kind. -/
theorem not_prefix_of_head? {front : String} (other : front.toList.head?.any (· ≠ 's') = true)
    (rest : String) : ¬ "store unavailable: ".toList <+: (front ++ rest).toList := by
  rw [String.toList_append]
  rintro ⟨later, split⟩
  have first := congrArg List.head? split
  cases letters : front.toList with
  | nil =>
      rw [letters] at other
      cases other
  | cons c cs =>
      rw [letters] at other first
      have same : some 's' = some c := first
      cases same
      cases other

/-- Whether an error concerns the whole table can be told by its message. -/
theorem isUnavailable_iff (e : StoreError) :
    e.isUnavailable = true ↔ "store unavailable: ".toList <+: e.message.toList := by
  have told {front rest : String} (h : "store unavailable: ".toList <+: front.toList) :
      "store unavailable: ".toList <+: (front ++ rest).toList := by
    rw [String.toList_append]
    exact h.trans (List.prefix_append _ _)
  cases e with
  | markedUnavailable => exact iff_of_true rfl (by decide +kernel)
  | nulInPath path => exact iff_of_true rfl (told (told (by decide +kernel)))
  | openFailed path call => exact iff_of_true rfl (told (told (told (by decide +kernel))))
  | typeUnknown => exact iff_of_true rfl (told (by decide +kernel))
  | typeUnlisted => exact iff_of_true rfl (told (by decide +kernel))
  | wrongShape path fault => exact iff_of_true rfl (told (told (told (by decide +kernel))))
  | walkFailed path call => exact iff_of_true rfl (told (told (told (by decide +kernel))))
  | unreadable row => exact iff_of_false nofun (not_prefix_of_head? (by decide +kernel) _)
  | deleteRefused => exact iff_of_false nofun (by decide +kernel)
  | callFailed call =>
      refine iff_of_false nofun ?_
      change ¬ _ <+: (call.name ++ " failed: " ++ call.failure).toList
      refine not_prefix_of_head? ?_ _
      cases call <;> decide +kernel

end StoreError

namespace Pinned

open Kernel

variable {K V : Type} [Layout K] [Layout V] {path : String} {k : Kernel} {e : StoreError}

/-! ### Whole tables -/

theorem isUnavailable_of_refusal? {map : KernelMap} (refused : refusal? K V path map = some e) :
    e.isUnavailable = true := by
  rw [refusal?] at refused
  split at refused
  · cases refused
    rfl
  · obtain ⟨fault, -, rfl⟩ := Option.map_eq_some_iff.mp refused
    rfl

/-- Whatever the kernel does, an operation fails only as `kind` says. -/
def FailsAs {α : Type} (kind : StoreError → Prop) (x : StateM Kernel (Except StoreError α)) :
    Prop :=
  ∀ k e, (x k).1 = .error e → kind e

namespace FailsAs

variable {α β : Type} {kind : StoreError → Prop}

theorem error (h : kind e) :
    FailsAs kind (pure (.error e) : StateM Kernel (Except StoreError α)) := by
  rintro k e' failed
  cases failed
  exact h

theorem ok (a : α) : FailsAs kind (pure (.ok a) : StateM Kernel (Except StoreError α)) :=
  fun _ _ failed => nomatch failed

theorem bind {x : StateM Kernel β} {f : β → StateM Kernel (Except StoreError α)}
    (h : ∀ b, FailsAs kind (f b)) : FailsAs kind (x >>= f) :=
  fun k e failed => h (x k).1 (x k).2 e failed

end FailsAs

theorem openTable_failsAs : FailsAs (·.isUnavailable = true) (openTable K V path) := by
  rw [openTable]
  split
  · exact .error rfl
  · refine .bind fun opened => ?_
    cases opened with
    | error refusal => exact .error rfl
    | ok _ =>
        refine .bind fun described => ?_
        cases described with
        | error refusal => exact .error rfl
        | ok _ =>
            refine .bind fun typed => ?_
            cases typed with
            | error refusal => exact .error rfl
            | ok map =>
                dsimp only
                split
                · rename_i cause refused
                  exact .error (isUnavailable_of_refusal? refused)
                · exact .ok ()

theorem iterate_failsAs :
    FailsAs (·.isUnavailable = true)
      (iterate path : StateM Kernel (Except StoreError (Cursor K V))) := by
  intro k e failed
  rw [iterate_eq] at failed
  cases walked : (walk path k).1 with
  | error call =>
      rw [walked] at failed
      cases failed
      rfl
  | ok items =>
      rw [walked] at failed
      cases failed

/-! ### Single operations -/

theorem read_apply (path : String) (key : K) (k : Kernel) :
    (read path key k : Except StoreError (Option V) × Kernel).1 =
      match (lookup path (Layout.encode key) k).1 with
      | .ok value => .ok (some (Layout.decode value))
      | .error .absent => .ok none
      | .error .failed => .error (.callFailed .lookup) := by
  simp only [read, bind, StateT.bind]
  generalize lookup path (Layout.encode key) k = outcome
  obtain ⟨answer, k'⟩ := outcome
  match answer with
  | .ok _ | .error .absent | .error .failed => rfl

theorem delete_apply (path : String) (key : K) (k : Kernel) :
    (delete path key k).1 =
      match (Kernel.delete path (Layout.encode key) k).1 with
      | .ok () => .ok .deleted
      | .error .absent => .ok .alreadyAbsent
      | .error .failed => .error (.callFailed .delete) := by
  simp only [delete, bind, StateT.bind]
  generalize Kernel.delete path (Layout.encode key) k = outcome
  obtain ⟨answer, k'⟩ := outcome
  match answer with
  | .ok _ | .error .absent | .error .failed => rfl

theorem put_apply (path : String) (key : K) (v : V) (k : Kernel) :
    (put path key v k).1 =
      match (update path (Layout.encode key) (Layout.encode v) k).1 with
      | .ok () => .ok ()
      | .error _ => .error (.callFailed .update) := by
  simp only [put, bind, StateT.bind]
  generalize update path (Layout.encode key) (Layout.encode v) k = outcome
  obtain ⟨answer, k'⟩ := outcome
  match answer with
  | .ok _ | .error _ => rfl

theorem read_failsAs (key : K) :
    FailsAs (·.isUnavailable = false)
      (read path key : StateM Kernel (Except StoreError (Option V))) := by
  intro k e failed
  rw [read_apply] at failed
  split at failed <;> cases failed
  rfl

theorem delete_failsAs (key : K) :
    FailsAs (·.isUnavailable = false) (delete path key) := by
  intro k e failed
  rw [delete_apply] at failed
  split at failed <;> cases failed
  rfl

theorem put_failsAs (key : K) (v : V) :
    FailsAs (·.isUnavailable = false) (put path key v) := by
  intro k e failed
  rw [put_apply] at failed
  split at failed <;> cases failed
  rfl

/-- How the operations on one row take an error number of the kernel. -/
theorem row_of_errno {n : Nat} (key : K) (v : V)
    (refused : ∀ call, k.refusalAt path call 0 = some (.ofErrno n)) :
    (read path key k : Except StoreError (Option V) × Kernel).1 =
        (if n = 2 then .ok none else .error (.callFailed .lookup)) ∧
      (delete path key k).1 =
        (if n = 2 then .ok .alreadyAbsent else .error (.callFailed .delete)) ∧
      (put path key v k).1 = .error (.callFailed .update) := by
  rw [read_apply, delete_apply, put_apply, lookup, Kernel.delete, update, call_eq, call_eq,
    call_eq, refused, refused, refused]
  by_cases gone : n = 2
  · simp [Refusal.ofErrno, gone]
  · simp [Refusal.ofErrno, gone]

/-- How the beginning of a walk takes an error number of the kernel. -/
theorem iterate_of_errno {n : Nat} (refused : k.refusalAt path .nextKey 0 = some (.ofErrno n)) :
    (iterate path k : Except StoreError (Cursor K V) × Kernel).1 =
      if n = 2 then .ok [] else .error (.walkFailed path .nextKey) := by
  obtain ⟨steps, budget⟩ := Nat.exists_eq_add_one.mpr
    (Nat.zero_lt_of_lt (k.length_lt_walkBudget path))
  rw [iterate_eq, walk_eq_started, budget, trail_succ, refused]
  by_cases gone : n = 2
  · rw [if_pos gone, Refusal.ofErrno, if_pos gone]
    rfl
  · rw [if_neg gone, Refusal.ofErrno, if_neg gone]
    rfl

end Pinned

end TrafficStats
