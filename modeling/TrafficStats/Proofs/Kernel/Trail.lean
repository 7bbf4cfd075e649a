import TrafficStats.Proofs.Kernel.Refusals

/-!
# The steps of a walk

A walk through a pinned map asks for one key after the other and looks each of them up. Its
trail keeps what became of every step, also of those that deliver nothing, and whether the
walk was sent back to the first key because the one where it stood was gone. What a walk
answers is told by its trail: it delivers what the steps delivered, unless the first of this
is a failure; then there is no walk at all (`walk_eq_started`).
-/

namespace TrafficStats

namespace KernelRows

/-- Whether the kernel, asked for the key after a given one, starts again from the first: the
given key has no row any more. -/
def startsAgain (rows : KernelRows) : Option Bytes → Bool
  | none => false
  | some key => !rows.holds key

end KernelRows

/-- A step of a walk. -/
inductive WalkStep where
  -- The kernel failed to find the next key, which ends the walk.
  | cut
  -- A key was found, perhaps by starting again from the first, and looked up.
  | found (again : Bool) (key : Bytes) (answer : Except Refusal Bytes)

namespace WalkStep

def item? : WalkStep → Option Fetched
  | .cut => some (.error .nextKey)
  | .found _ key (.ok value) => some (.ok (key, value))
  | .found _ _ (.error .absent) => none
  | .found _ _ (.error .failed) => some (.error .lookup)

def isAgain : WalkStep → Bool
  | .cut => false
  | .found again _ _ => again

end WalkStep

namespace Kernel

/-- What becomes of a walk that delivers these items. -/
def started : List Fetched → Except KernelCall (List Fetched)
  | .error call :: _ => .error call
  | items => .ok items

/-- Asks for the key after a given one, and notes whether the kernel starts again. -/
def findKey (path : String) (key : Option Bytes) : StateM Kernel (Except Refusal (Bool × Bytes)) :=
  call path .nextKey fun k =>
    (orAbsent (((k.rows path).nextKey? key).map fun next => ((k.rows path).startsAgain key, next)),
      k)

/-- The steps of a walk after a key, at most so many. -/
def trail (path : String) : Nat → Option Bytes → StateM Kernel (List WalkStep)
  | 0, _ => pure []
  | steps + 1, key => do
    match ← findKey path key with
    | .error .absent => pure []
    | .error .failed => pure [.cut]
    | .ok (again, key) => do
      let answer ← lookup path key
      return .found again key answer :: (← trail path steps (some key))

def looked (k : Kernel) (path : String) (key : Bytes) : Except Refusal Bytes :=
  match k.refusalAt path .lookup 0 with
  | some refusal => .error refusal
  | none => orAbsent (((k.before path .lookup).2.rows path).value? key)

variable {path : String}

theorem lookup_eq (key : Bytes) (k : Kernel) :
    lookup path key k = (k.looked path key, (k.before path .lookup).2) :=
  call_ask path .lookup _ k

/-- One step of a walk: the kernel finds no next key or fails to, or it finds one, which is then
looked up. -/
theorem trail_succ (steps : Nat) (key : Option Bytes) (k : Kernel) :
    (trail path (steps + 1) key k).1 =
      let asked := (k.before path .nextKey).2
      match k.refusalAt path .nextKey 0, (asked.rows path).nextKey? key with
      | some .absent, _ => []
      | some .failed, _ => [.cut]
      | none, none => []
      | none, some next =>
        .found ((asked.rows path).startsAgain key) next (asked.looked path next) ::
          (trail path steps (some next) (asked.before path .lookup).2).1 := by
  have found : findKey path key k = _ := call_ask path .nextKey _ k
  simp only [trail, bind, StateT.bind, found]
  match k.refusalAt path .nextKey 0, ((k.before path .nextKey).2.rows path).nextKey? key with
  | some .absent, _ => rfl
  | some .failed, _ => rfl
  | none, none => rfl
  | none, some next =>
      simp only [Option.map_some, orAbsent, StateT.bind, lookup_eq]
      rfl

theorem nextKey_eq (key : Option Bytes) :
    nextKey path key = (fun found => found.map Prod.snd) <$> findKey path key := by
  funext k
  show call path .nextKey _ k =
    ((call path .nextKey _ k).1.map Prod.snd, (call path .nextKey _ k).2)
  rw [call_ask, call_ask]
  refine Prod.ext ?_ rfl
  cases k.refusalAt path .nextKey 0 with
  | some refusal => rfl
  | none =>
      show orAbsent _ = (orAbsent _).map Prod.snd
      cases ((k.before path .nextKey).2.rows path).nextKey? key with
      | none => rfl
      | some next => rfl

/-- After its first item a walk delivers what its steps deliver. -/
theorem walkRest_eq (steps : Nat) (key : Bytes) :
    walkRest path steps key =
      (fun trail => trail.filterMap WalkStep.item?) <$> trail path steps (some key) := by
  induction steps generalizing key with
  | zero => rfl
  | succ steps ih =>
      rw [walkRest, trail, nextKey_eq]
      simp only [map_bind, bind_map_left]
      refine bind_congr fun found => ?_
      match found with
      | .error .absent => rfl
      | .error .failed => rfl
      | .ok (again, next) =>
          change lookup path next >>= _ = _ <$> (lookup path next >>= _)
          rw [map_bind]
          refine bind_congr fun answer => ?_
          match answer with
          | .error .absent =>
              rw [ih]
              rfl
          | .error .failed =>
              simp only [ih]
              rfl
          | .ok value =>
              simp only [ih]
              rfl

/-- A walk delivers what its steps deliver, unless this begins with a failure. -/
theorem walkFrom_eq (steps : Nat) (key : Option Bytes) (k : Kernel) :
    (walkFrom path steps key k).1 =
      started ((trail path steps key k).1.filterMap WalkStep.item?) := by
  induction steps generalizing key k with
  | zero => rfl
  | succ steps ih =>
      have asked : nextKey path key k =
          ((findKey path key k).1.map Prod.snd, (findKey path key k).2) :=
        congrFun (nextKey_eq key) k
      simp only [walkFrom, trail, bind, StateT.bind, asked]
      generalize findKey path key k = outcome
      obtain ⟨found, k'⟩ := outcome
      match found with
      | .error .absent => rfl
      | .error .failed => rfl
      | .ok (again, next) =>
          simp only [Except.map, StateT.bind]
          generalize lookup path next k' = outcome
          obtain ⟨answer, k''⟩ := outcome
          match answer with
          | .error .absent => exact ih (some next) k''
          | .error .failed => rfl
          | .ok value =>
              simp only [walkRest_eq]
              rfl

theorem walk_eq_started (k : Kernel) :
    (walk path k).1 =
      started ((trail path (k.walkBudget path) none k).1.filterMap WalkStep.item?) :=
  walkFrom_eq _ none k

end Kernel

end TrafficStats
