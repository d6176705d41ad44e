import BeaconEpoch.Error

/-!
# Steps

Computations that change something as they go, and that leave it as it is when they fail.

## Main definitions

* `Step`: a computation with a state, whose failures keep the state that they were met in.
* `Step.zoom`: a step on a part, as a step on the whole.

## Design notes

* **A failure keeps what was done before it.** Nothing is undone unless a rule says so, and whether
  a sequence of steps is all or nothing is a law to be proved.
-/

namespace BeaconEpoch

/-- A computation that reads and changes a state, and may fail on the way. -/
abbrev Step (σ α : Type) := EStateM Error σ α

namespace Step

variable {σ τ α : Type}

/-- A result that does not touch the state. -/
def ofExcept : Except Error α → Step σ α
  | .ok a => pure a
  | .error e => throw e

instance : MonadLift (Except Error) (EStateM Error σ) := ⟨ofExcept⟩

/-- A step on the part of a state that `get` reads and `set` writes. -/
def zoom (get : σ → τ) (set : τ → σ → σ) (step : Step τ α) : Step σ α := fun state =>
  match step (get state) with
  | .ok a part => .ok a (set part state)
  | .error e part => .error e (set part state)

@[simp] theorem ofExcept_ok (a : α) : (ofExcept (.ok a) : Step σ α) = pure a := rfl

@[simp] theorem ofExcept_error (e : Error) : (ofExcept (.error e) : Step σ α) = throw e := rfl

end Step

end BeaconEpoch
