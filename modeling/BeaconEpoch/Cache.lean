import BeaconEpoch.Chain
import BeaconEpoch.Step

/-!
# Caches

Shuffles and totals are computed once per epoch and kept beside the chain.

## Main definitions

* `PerEpoch`: one value for each of the three epochs around a slot.
* `Cache`: the shuffles and totals known so far.
* `Cache.advance`: what remains known when an epoch starts.
* `Lookup`: a question to a chain, which may fill its cache.
* `Chain.lookupShuffled`, `Chain.lookupTotalActive`, `Chain.cacheTotalActive`: the questions that
  do.

## Design notes

* **A lookup that fails later still fills the cache.** The cache is the state of the computation, so
  what was found stays found.
-/

namespace BeaconEpoch

/-- One value for each of the epochs around a slot. -/
structure PerEpoch (α : Type) where
  previous : α
  current : α
  next : α
deriving DecidableEq, Repr

namespace PerEpoch

variable {α : Type}

/-- The value of an epoch. -/
def get (values : PerEpoch α) : RelativeEpoch → α
  | .previous => values.previous
  | .current => values.current
  | .next => values.next

/-- The values with that of one epoch replaced. -/
def set (values : PerEpoch α) (value : α) : RelativeEpoch → PerEpoch α
  | .previous => { values with previous := value }
  | .current => { values with current := value }
  | .next => { values with next := value }

/-- The values one epoch later, with a new one for the epoch that comes into sight. -/
def shift (values : PerEpoch α) (value : α) : PerEpoch α :=
  ⟨values.current, values.next, value⟩

theorem get_set (values : PerEpoch α) (value : α) (epoch other : RelativeEpoch) :
    (values.set value epoch).get other = if other = epoch then value else values.get other := by
  cases epoch <;> cases other <;> rfl

end PerEpoch

/-- What is known of the epochs around the slot of a chain. -/
structure Cache where
  /-- The active validators in the order from which committees are cut. -/
  shuffled : PerEpoch (Option (Array ValidatorIndex))
  /-- The active stake. -/
  totalActive : PerEpoch (Option GweiSum)
deriving DecidableEq, Repr

namespace Cache

/-- The cache that knows nothing. -/
def empty : Cache := ⟨⟨none, none, none⟩, ⟨none, none, none⟩⟩

instance : Inhabited Cache := ⟨empty⟩

/-- What remains known when an epoch starts: the current epoch becomes the previous one, the next
one the current one, and nothing is known of the one after. -/
def advance (cache : Cache) : Cache :=
  ⟨cache.shuffled.shift none, cache.totalActive.shift none⟩

/-- Makes a total of active stake known for an epoch, unless one is known already; and whether it
was new. -/
def insertTotal (cache : Cache) (epoch : RelativeEpoch) (total : GweiSum) : Cache × Bool :=
  match cache.totalActive.get epoch with
  | some _ => (cache, false)
  | none => ({ cache with totalActive := cache.totalActive.set (some total) epoch }, true)

end Cache

/-- A question to a chain, which may fill its cache. -/
abbrev Lookup (α : Type) := Step Cache α

namespace Chain

variable {preset : Preset} (chain : Chain preset)

/-- The active validators of an epoch in the order from which committees are cut. -/
def lookupShuffled (epoch : RelativeEpoch) : Lookup (Array ValidatorIndex) := do
  match (← get).shuffled.get epoch with
  | some indices => return indices
  | none =>
    let indices ← chain.shuffledIndices (chain.epochOf epoch)
    modify fun cache => { cache with shuffled := cache.shuffled.set (some indices) epoch }
    return indices

/-- Makes a total of active stake known for the current epoch, unless one is known already. The
total counts as at least one increment. -/
def cacheTotalActive (_ : Chain preset) (total : GweiSum) : Lookup Unit :=
  modify fun cache =>
    match cache.totalActive.current with
    | some _ => cache
    | none =>
      let total := max preset.effectiveBalanceIncrement total
      { cache with totalActive := { cache.totalActive with current := some total } }

/-- The active stake of the current epoch, at least one increment. -/
def lookupTotalActive : Lookup GweiSum := do
  match (← get).totalActive.current with
  | some total => return total
  | none =>
    let total ← GweiSum.checked (chain.totalActive chain.currentEpoch)
    modify fun cache =>
      { cache with totalActive := { cache.totalActive with current := some total } }
    return total

end Chain

end BeaconEpoch
