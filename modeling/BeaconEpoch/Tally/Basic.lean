import BeaconEpoch.Committee
import BeaconEpoch.State
import BeaconEpoch.Totals

/-!
# Tallies

The books of an epoch are opened with one record per validator and the active stake.

## Main definitions

* `Tally`: records and totals.
* `Chain.openPending`, `Chain.openFlags`: the tally before votes are counted, by way of keeping
  votes.

## Design notes

* **Two rules for withdrawal.** With attestations a validator may withdraw once the epoch after the
  previous one is reached, with flags once the current one is. The two differ in the first epoch
  only.
-/

namespace BeaconEpoch

/-- Records, one per validator, and totals. -/
structure Tally where
  records : Array Record
  totals : Totals
deriving DecidableEq, Repr, Inhabited

namespace Chain

variable {preset : Preset} (chain : Chain preset)

/-- The active stake of the current and of the previous epoch, counted in one pass. -/
def activeTotals : Totals :=
  chain.validators.foldl (fun totals validator =>
    let totals :=
      if validator.isActive chain.currentEpoch then
        totals.addActive .current validator.effectiveBalance
      else totals
    if validator.isActive chain.previousEpoch then
      totals.addActive .previous validator.effectiveBalance
    else totals) {}

/-- The tally of a chain that keeps votes as attestations. -/
def openPending : Lookup Tally := do
  let previous := chain.previousEpoch
  let current := chain.currentEpoch
  let following ← Word.checked (previous.toNat + 1)
  let records := chain.validators.map fun validator =>
    Record.ofValidator previous current (validator.withdrawableEpoch ≤ following) 0 validator
  let totals ← chain.activeTotals.checked
  chain.cacheTotalActive totals.activeCurrent
  return { records, totals }

/-- The tally of a chain that keeps votes as flags, given the inactivity scores. -/
def openFlags (scores : Array InactivityScore) : Lookup Tally := do
  if chain.validators.size = scores.size then
    let previous := chain.previousEpoch
    let current := chain.currentEpoch
    let records := chain.validators.zipWith (fun validator score =>
      Record.ofValidator previous current (validator.withdrawableEpoch ≤ current) score
        validator) scores
    let totals ← chain.activeTotals.checked
    chain.cacheTotalActive totals.activeCurrent
    return { records, totals }
  else
    throw (.scoreCountMismatch chain.validators.size scores.size)

end Chain

end BeaconEpoch
