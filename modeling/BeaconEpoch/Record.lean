import BeaconEpoch.Phase
import BeaconEpoch.Validator

/-!
# Records

What the accounting of an epoch knows of each validator.

## Main definitions

* `Category`: the kinds of votes that are counted.
* `Record`: stake, standing, votes and inclusion of a validator, and its balances around the epoch.
* `Record.eligible`, `Record.attested`: who is rewarded or penalized, and for what.
-/

namespace BeaconEpoch

/-- The kinds of votes that are counted. -/
inductive Category
  | currentEpoch
  | currentEpochTarget
  | previousEpoch
  | previousEpochTarget
  | previousEpochHead
deriving DecidableEq, Repr

/-- All kinds of votes. -/
def Category.all : List Category :=
  [currentEpoch, currentEpochTarget, previousEpoch, previousEpochTarget, previousEpochHead]

/-- What the accounting of an epoch knows of one validator. -/
structure Record where
  effectiveBalance : Gwei := 0
  inactivityScore : InactivityScore := 0
  slashed : Bool := false
  /-- Whether the stake may be withdrawn by now. -/
  withdrawable : Bool := false
  activeCurrent : Bool := false
  activePrevious : Bool := false
  currentAttester : Bool := false
  currentTargetAttester : Bool := false
  previousAttester : Bool := false
  previousSourceAttester : Bool := false
  previousTargetAttester : Bool := false
  previousHeadAttester : Bool := false
  /-- The first slot that includes a vote for the previous epoch. -/
  inclusionSlot : Slot := farFutureSlot
  /-- How long that vote took to be included. -/
  inclusionDistance : Slot := farFutureSlot
  /-- Who included that vote. -/
  proposerIndex : UInt64 := 0
  /-- The balance before rewards and penalties. -/
  balanceBefore : Gwei := 0
  /-- The balance after rewards and penalties. -/
  balanceAfter : Gwei := 0
deriving DecidableEq, Repr, Inhabited

namespace Record

/-- The record of a validator without votes. -/
def ofValidator (previous current : Epoch) (withdrawable : Bool) (score : InactivityScore)
    (validator : Validator) : Record where
  effectiveBalance := validator.effectiveBalance
  inactivityScore := score
  slashed := validator.slashed
  withdrawable := withdrawable
  activeCurrent := validator.isActive current
  activePrevious := validator.isActive previous

/-- Whether the validator is rewarded or penalized for the previous epoch: it had duties, or it is
slashed and cannot leave yet. -/
def eligible (record : Record) : Bool :=
  record.activePrevious || (record.slashed && !record.withdrawable)

/-- Whether the validator counts for a kind of vote. In Phase 0 any vote for the previous epoch has
the right source. -/
def attested (record : Record) (phase : Phase) : Category → Bool
  | .currentEpoch => record.currentAttester
  | .currentEpochTarget => record.currentTargetAttester
  | .previousEpoch =>
    match phase with
    | .phase0 => record.previousAttester
    | _ => record.previousSourceAttester
  | .previousEpochTarget => record.previousTargetAttester
  | .previousEpochHead => record.previousHeadAttester

end Record

end BeaconEpoch
