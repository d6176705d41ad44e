import BeaconEpoch.Delta.Basic
import BeaconEpoch.Reward

/-!
# Deltas of Altair and later

Rewards and penalties by participation flag, and penalties by inactivity score.

## Main definitions

* `Record.flagVote`: whether a record has a flag that counts, with the stake behind it.
* `FlagRates`: what the deltas of one epoch have in common.
* `FlagRates.delta`: the delta of one validator.
* `Chain.flagDeltas`: the deltas of all validators.

## Design notes

* **A missing head costs nothing.** Votes for source and target are rewarded or penalized, votes for
  the head only rewarded.
-/

namespace BeaconEpoch

/-- Whether a record has a flag that counts, with the stake behind that flag. -/
def Record.flagVote (record : Record) (totals : Totals) (flag : Nat) : Bool × GweiSum :=
  if flag = timelySourceFlag then
    (record.previousSourceAttester && !record.slashed, totals.previousAttested)
  else if flag = timelyTargetFlag then
    (record.previousTargetAttester && !record.slashed, totals.previousTargetAttested)
  else (record.previousHeadAttester && !record.slashed, totals.previousHeadAttested)

/-- What the deltas of one epoch have in common. -/
structure FlagRates where
  preset : Preset
  config : Config
  totals : Totals
  /-- Whether the chain is in an inactivity leak. -/
  leaking : Bool
  /-- The base reward of one increment. -/
  perIncrement : GweiSum
  /-- The divisor of rewards: the active increments, times the sum of all weights. -/
  rewardDivisor : Nat
  /-- The divisor of penalties for inactivity. -/
  inactivityDivisor : Nat

namespace FlagRates

variable (rates : FlagRates)

/-- The base reward of a record, as the configuration adjusts it. -/
def baseReward (record : Record) : Except Error Gwei := do
  let reward ← rates.preset.baseReward record.effectiveBalance rates.perIncrement
  return rates.config.adjust (Word.saturate reward)

/-- The reward for a flag: outside of a leak its weighted part of the base reward, scaled by the
share of active stake behind it, in whole increments. -/
def flagReward (record : Record) (baseReward : Gwei) (flag weight : Nat) : Except Error Nat :=
  let (counts, attested) := record.flagVote rates.totals flag
  if counts && !rates.leaking then do
    let product ← GweiSum.checked
      (baseReward.toNat * weight * (attested / rates.preset.effectiveBalanceIncrement))
    return product / rates.rewardDivisor
  else .ok 0

/-- The penalty for a missing flag, other than that for the head: its weighted part of the base
reward. -/
def flagPenalty (record : Record) (baseReward : Gwei) (flag weight : Nat) : Except Error Nat :=
  if (record.flagVote rates.totals flag).1 || flag == timelyHeadFlag then .ok 0
  else do
    let product ← GweiSum.checked (baseReward.toNat * weight)
    return product / weightDenominator

/-- The penalty for a missing target: a part of the stake that grows with the inactivity score. -/
def inactivityPenalty (record : Record) : Except Error Nat :=
  if !record.previousTargetAttester || record.slashed then do
    let product ←
      GweiSum.checked (record.effectiveBalance.toNat * record.inactivityScore.toNat)
    quotient product rates.inactivityDivisor
  else .ok 0

/-- The delta of a validator. -/
def delta (record : Record) : Except Error Delta :=
  if !record.eligible then .ok {}
  else do
    let baseReward ← rates.baseReward record
    let rewards ← participationWeights.mapM fun (flag, weight) =>
      rates.flagReward record baseReward flag weight
    let reward ← GweiSum.checked rewards.sum
    let penalties ← participationWeights.mapM fun (flag, weight) =>
      rates.flagPenalty record baseReward flag weight
    let inactivity ← rates.inactivityPenalty record
    let penalty ← GweiSum.checked (penalties.sum + inactivity)
    return { reward := Word.saturate reward, penalty := Word.saturate penalty }

end FlagRates

namespace Chain

variable {preset : Preset} (chain : Chain preset)

/-- The rates of an epoch under the rules of a phase. -/
def flagRates (config : Config) (phase : Phase) (totals : Totals) : Except Error FlagRates := do
  let rewardDivisor ← GweiSum.checked
    (totals.activeCurrent / preset.effectiveBalanceIncrement * weightDenominator)
  let inactivityDivisor ← GweiSum.checked
    (config.scoreBias.val.toNat * preset.inactivityPenaltyQuotient phase)
  return {
    preset, config, totals, rewardDivisor, inactivityDivisor
    leaking := chain.isLeaking
    perIncrement := preset.baseRewardPerIncrement totals.activeCurrent }

/-- The deltas of all validators under the rules of a phase. Inactivity scores have to be up to
date. Without active stake nobody gains or loses. -/
def flagDeltas (config : Config) (phase : Phase) (tally : Tally) : Except Error (Array Delta) :=
  if tally.totals.activeCurrent = 0 then .ok (tally.records.map fun _ => {})
  else do
    let rates ← chain.flagRates config phase tally.totals
    tally.records.mapM rates.delta

end Chain

end BeaconEpoch
