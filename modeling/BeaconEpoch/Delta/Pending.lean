import BeaconEpoch.Delta.Basic
import BeaconEpoch.Reward

/-!
# Deltas of Phase 0

Rewards for votes by attestations, for their inclusion, and for those who include them.

## Main definitions

* `Config.pendingBaseReward`: what all amounts are fractions of.
* `Chain.pendingDelta`: the delta of one validator for its own votes.
* `Chain.pendingDeltas`: the deltas of all validators for their own votes.
* `Config.proposerRewards`: what proposers earn by including votes.
* `Chain.epochDeltas`: both together.

## Design notes

* **Three votes, three components.** Source, target and head are rewarded by the share of stake that
  agrees, or penalized by a base reward each.
* **In a leak nobody gains.** Rewards are full base rewards then, and a penalty cancels what a
  perfect validator would earn.
-/

namespace BeaconEpoch

/-- The base reward of a record, as the configuration adjusts it. -/
def Config.pendingBaseReward (config : Config) (preset : Preset) (totals : Totals)
    (record : Record) : Gwei :=
  config.adjust
    (Word.saturate (preset.pendingBaseReward record.effectiveBalance totals.activeCurrent))

/-- The part of a base reward that goes to whoever includes the vote. -/
def Preset.proposerShare (preset : Preset) (baseReward : Gwei) : Gwei :=
  baseReward / preset.proposerRewardQuotient

/-- Whether a record has the votes for source, target and head that count, each with the stake
behind that vote. -/
def Record.pendingVotes (record : Record) (totals : Totals) : List (Bool × GweiSum) :=
  [(record.previousAttester && !record.slashed, totals.previousAttested),
   (record.previousTargetAttester && !record.slashed, totals.previousTargetAttested),
   (record.previousHeadAttester && !record.slashed, totals.previousHeadAttested)]

namespace Chain

variable {preset : Preset} (chain : Chain preset)

/-- The reward for a vote that counts: a base reward, scaled outside of a leak by the share of
active stake behind the vote, in whole increments. -/
def voteReward (totals : Totals) (baseReward : Gwei) (attested : GweiSum) : Except Error Nat :=
  if chain.isLeaking then .ok baseReward.toNat
  else do
    let increment := preset.effectiveBalanceIncrement
    let product ← GweiSum.checked (baseReward.toNat * (attested / increment))
    return product / (totals.activeCurrent / increment)

/-- The reward for an early inclusion: the rest of a base reward, divided by the delay. -/
def inclusionReward (_ : Chain preset) (baseReward : Gwei) (record : Record) : Except Error Nat :=
  if record.previousAttester && !record.slashed then do
    let rest ← Word.difference baseReward (preset.proposerShare baseReward)
    return (rest / record.inclusionDistance).toNat
  else .ok 0

/-- The penalty of a leak: what a perfect validator would earn, and for a missing target a part of
the stake that grows with the finality delay. -/
def leakPenalty (baseReward : Gwei) (record : Record) : Except Error Nat :=
  if chain.isLeaking then
    let perfect := Word.saturate (baseRewardsPerEpoch * baseReward.toNat)
    let canceling := perfect.toNat - (preset.proposerShare baseReward).toNat
    if !record.previousTargetAttester || record.slashed then do
      let product ← GweiSum.checked (record.effectiveBalance.toNat * chain.finalityDelay.toNat)
      return canceling + product / preset.inactivityPenaltyQuotient .phase0
    else .ok canceling
  else .ok 0

/-- The delta of a validator for its own votes. -/
def pendingDelta (config : Config) (totals : Totals) (record : Record) : Except Error Delta :=
  if !record.eligible || totals.activeCurrent == 0 then .ok {}
  else do
    let baseReward := config.pendingBaseReward preset totals record
    let votes := record.pendingVotes totals
    let rewards ← votes.mapM fun (counts, attested) =>
      if counts then chain.voteReward totals baseReward attested else .ok 0
    let penalties := votes.map fun (counts, _) => if counts then 0 else baseReward.toNat
    let inclusion ← chain.inclusionReward baseReward record
    let leak ← chain.leakPenalty baseReward record
    return {
      reward := Word.saturate (rewards.sum + inclusion)
      penalty := Word.saturate (penalties.sum + leak) }

/-- The deltas of all validators for their own votes. -/
def pendingDeltas (config : Config) (tally : Tally) : Except Error (Array Delta) :=
  tally.records.mapM (chain.pendingDelta config tally.totals)

end Chain

/-! ## Proposers -/

/-- Credits the proposer that a record names with its share, if the vote counts. Every record has to
name a proposer of the registry. -/
def Config.creditProposer (config : Config) (preset : Preset) (totals : Totals)
    (rewards : Array Gwei) (record : Record) : Except Error (Array Gwei) :=
  let proposer := record.proposerIndex.toNat
  if proposer < rewards.size then
    if record.previousAttester && !record.slashed then
      let share := preset.proposerShare (config.pendingBaseReward preset totals record)
      .ok (rewards.modify proposer (Word.addSat · share))
    else .ok rewards
  else .error (.proposerOutOfRange record.proposerIndex rewards.size)

/-- What each validator earns by including votes for the previous epoch. -/
def Config.proposerRewards (config : Config) (preset : Preset) (tally : Tally) :
    Except Error (Array Gwei) :=
  tally.records.foldlM (config.creditProposer preset tally.totals)
    (Array.replicate tally.records.size 0)

/-- The deltas of all validators, for their own votes and for those that they included. -/
def Chain.epochDeltas {preset : Preset} (chain : Chain preset) (config : Config) (tally : Tally) :
    Except Error (Array Delta) := do
  let deltas ← chain.pendingDeltas config tally
  let rewards ← config.proposerRewards preset tally
  return deltas.zipWith (fun delta reward =>
    { delta with reward := Word.addSat delta.reward reward }) rewards

end BeaconEpoch
