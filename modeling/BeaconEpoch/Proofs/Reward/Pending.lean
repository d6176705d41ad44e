import BeaconEpoch.Delta.Pending
import BeaconEpoch.Proofs.Range.Basic

/-!
# Deltas of Phase 0, record by record

A delta of Phase 0 is a function of one record and of a few totals. Whatever the record shows, and
whether or not it could come from a chain, the delta is found if the rewards for votes are found
from products that fit.

## Main definitions

* `Chain.RewardsFit`, `Chain.ProductsFit`: the products that rewards for votes are found from fit,
  all of them or those that are formed.
* `Chain.voteAmount`, `Chain.inclusionAmount`, `Chain.leakAmount`: the amounts that a record earns
  and loses.
* `Chain.pendingReward`, `Chain.pendingPenalty`: all that it earns, and all that it loses.

## Main statements

* `Chain.pendingDelta_eq`, `Chain.pendingDeltas_eq`: deltas are made up of these amounts.
* `Chain.pendingReward_le`: nobody earns more than its base rewards less the share of a proposer.

## Design notes

* **Amounts are numbers, deltas are words.** An amount is cut off at the end of a word once, after
  all parts of it have been added up.
-/

namespace BeaconEpoch

namespace Preset

variable {preset : Preset}

theorem toNat_proposerShare (baseReward : Gwei) :
    (preset.proposerShare baseReward).toNat =
      baseReward.toNat / preset.proposerRewardQuotient.toNat := UInt64.toNat_div ..

theorem proposerShare_le (baseReward : Gwei) : preset.proposerShare baseReward ≤ baseReward := by
  rw [UInt64.le_iff_toNat_le, toNat_proposerShare]
  exact Nat.div_le_self ..

end Preset

namespace Chain

variable {preset : Preset} (chain : Chain preset)

/-! ## Amounts -/

/-- The reward for a vote that counts: a base reward, scaled outside of a leak by the share of
active stake behind the vote, in whole increments. -/
def voteAmount (totals : Totals) (baseReward : Gwei) (attested : GweiSum) : Nat :=
  if chain.isLeaking then baseReward.toNat
  else baseReward.toNat * (attested / preset.effectiveBalanceIncrement) /
    (totals.activeCurrent / preset.effectiveBalanceIncrement)

/-- The reward for an early inclusion: the rest of a base reward, divided by the delay. -/
def inclusionAmount (_ : Chain preset) (baseReward : Gwei) (record : Record) : Nat :=
  if record.previousAttester && !record.slashed then
    (baseReward.toNat - (preset.proposerShare baseReward).toNat) / record.inclusionDistance.toNat
  else 0

/-- The penalty of a leak: what a perfect validator would earn, and for a missing target a part of
the stake. -/
def leakAmount (baseReward : Gwei) (record : Record) : Nat :=
  if chain.isLeaking then
    (Word.saturate (baseRewardsPerEpoch * baseReward.toNat)).toNat -
        (preset.proposerShare baseReward).toNat +
      if !record.previousTargetAttester || record.slashed then
        record.effectiveBalance.toNat * chain.finalityDelay.toNat /
          preset.inactivityPenaltyQuotient .phase0
      else 0
  else 0

variable (config : Config) (totals : Totals) (record : Record)

/-- All that a record earns. -/
def pendingReward : Nat :=
  let baseReward := config.pendingBaseReward preset totals record
  ((record.pendingVotes totals).map fun vote =>
    if vote.1 then chain.voteAmount totals baseReward vote.2 else 0).sum +
    chain.inclusionAmount baseReward record

/-- All that a record loses. -/
def pendingPenalty : Nat :=
  let baseReward := config.pendingBaseReward preset totals record
  ((record.pendingVotes totals).map fun vote =>
    if vote.1 then 0 else baseReward.toNat).sum + chain.leakAmount baseReward record

/-- The products that rewards for votes are found from fit their sums. In a leak there are none. -/
def RewardsFit : Prop :=
  chain.isLeaking = false → ∀ vote ∈ record.pendingVotes totals,
    (config.pendingBaseReward preset totals record).toNat *
      (vote.2 / preset.effectiveBalanceIncrement) < GweiSum.bound

/-- The products that are formed for a record fit their sums: those of the votes that count, if the
record has a delta at all. -/
def ProductsFit : Prop :=
  record.eligible = true → totals.activeCurrent ≠ 0 → chain.isLeaking = false →
    ∀ vote ∈ record.pendingVotes totals, vote.1 = true →
      (config.pendingBaseReward preset totals record).toNat *
        (vote.2 / preset.effectiveBalanceIncrement) < GweiSum.bound

/-! ## Deltas -/

variable {chain config totals record} {baseReward : Gwei}

theorem RewardsFit.productsFit (fits : chain.RewardsFit config totals record) :
    chain.ProductsFit config totals record :=
  fun _ _ normal vote listed _ => fits normal vote listed

/-- The reward for a vote is its closed form, as long as the product in it fits. -/
theorem voteReward_eq {attested : GweiSum}
    (fits : chain.isLeaking = false →
      baseReward.toNat * (attested / preset.effectiveBalanceIncrement) < GweiSum.bound) :
    chain.voteReward totals baseReward attested =
      .ok (chain.voteAmount totals baseReward attested) := by
  unfold voteReward voteAmount
  cases leaking : chain.isLeaking with
  | true => rfl
  | false =>
    simp only [Bool.false_eq_true, if_false]
    rw [GweiSum.checked_eq_ok_iff.mpr ⟨fits leaking, rfl⟩]
    rfl

theorem inclusionReward_eq :
    chain.inclusionReward baseReward record = .ok (chain.inclusionAmount baseReward record) := by
  have part := preset.proposerShare_le baseReward
  unfold inclusionReward inclusionAmount
  split
  · rw [Word.difference_eq_ok part]
    show Except.ok _ = _
    rw [UInt64.toNat_div, UInt64.toNat_sub_of_le _ _ part]
  · rfl

theorem leakPenalty_eq :
    chain.leakPenalty baseReward record = .ok (chain.leakAmount baseReward record) := by
  have fits : record.effectiveBalance.toNat * chain.finalityDelay.toNat < GweiSum.bound :=
    GweiSum.mul_lt_bound record.effectiveBalance.toNat_lt chain.finalityDelay.toNat_lt
  unfold leakPenalty leakAmount
  split
  · dsimp only
    split
    · rw [GweiSum.checked_eq_ok_iff.mpr ⟨fits, rfl⟩]
      rfl
    · rfl
  · rfl

/-- **The delta of a record.** -/
theorem pendingDelta_eq (fits : chain.ProductsFit config totals record) :
    chain.pendingDelta config totals record =
      .ok (if !record.eligible || totals.activeCurrent == 0 then {} else {
        reward := Word.saturate (chain.pendingReward config totals record)
        penalty := Word.saturate (chain.pendingPenalty config totals record) }) := by
  unfold pendingDelta
  split
  · rfl
  · rename_i due
    simp only [Bool.or_eq_true, Bool.not_eq_true', beq_iff_eq, not_or, Bool.not_eq_false] at due
    dsimp only
    rw [mapM_list_eq_map (g := fun vote => if vote.1 then
        chain.voteAmount totals (config.pendingBaseReward preset totals record) vote.2 else 0),
      inclusionReward_eq, leakPenalty_eq]
    · rfl
    · rintro vote listed
      cases counts : vote.1 with
      | true => exact voteReward_eq fun normal => fits due.1 due.2 normal vote listed counts
      | false => rfl

/-- All deltas of Phase 0 in closed form. -/
theorem pendingDeltas_eq {tally : Tally}
    (fits : ∀ record ∈ tally.records, chain.ProductsFit config tally.totals record) :
    chain.pendingDeltas config tally = .ok (tally.records.map fun record =>
      if !record.eligible || tally.totals.activeCurrent == 0 then {} else {
        reward := Word.saturate (chain.pendingReward config tally.totals record)
        penalty := Word.saturate (chain.pendingPenalty config tally.totals record) }) :=
  mapM_eq_map fun record listed => pendingDelta_eq (fits record listed)

/-! ## What can be earned -/

/-- A vote earns a base reward at most, if the stake behind it is a part of the active stake. -/
theorem voteAmount_le {attested : GweiSum}
    (part : chain.isLeaking = false → attested ≤ totals.activeCurrent) :
    chain.voteAmount totals baseReward attested ≤ baseReward.toNat := by
  unfold voteAmount
  cases leaking : chain.isLeaking with
  | true => exact Nat.le_refl _
  | false =>
    refine Nat.div_le_of_le_mul ?_
    rw [Nat.mul_comm]
    exact Nat.mul_le_mul_right _ (Nat.div_le_div_right (part leaking))

theorem inclusionAmount_le :
    chain.inclusionAmount baseReward record ≤
      baseReward.toNat - (preset.proposerShare baseReward).toNat := by
  unfold inclusionAmount
  split
  · exact Nat.div_le_self ..
  · exact Nat.zero_le _

/-- A slashed validator earns nothing. -/
theorem pendingReward_of_slashed (slashed : record.slashed = true) :
    chain.pendingReward config totals record = 0 := by
  simp [pendingReward, inclusionAmount, Record.pendingVotes, slashed]

/-- **Three votes and an inclusion.** What is left of four base rewards is the share of whoever
includes the vote. -/
theorem pendingReward_le
    (part : chain.isLeaking = false →
      ∀ vote ∈ record.pendingVotes totals, vote.2 ≤ totals.activeCurrent) :
    chain.pendingReward config totals record ≤
      baseRewardsPerEpoch * (config.pendingBaseReward preset totals record).toNat -
        (preset.proposerShare (config.pendingBaseReward preset totals record)).toNat := by
  unfold pendingReward
  generalize config.pendingBaseReward preset totals record = baseReward
  have votes : ((record.pendingVotes totals).map fun vote =>
      if vote.1 then chain.voteAmount totals baseReward vote.2 else 0).sum ≤
      3 * baseReward.toNat := by
    refine sum_le_length_mul fun amount mem => ?_
    obtain ⟨vote, listed, rfl⟩ := List.mem_map.mp mem
    split
    · exact voteAmount_le fun normal => part normal vote listed
    · exact Nat.zero_le _
  have inclusion : chain.inclusionAmount baseReward record ≤ _ := inclusionAmount_le
  have share := UInt64.le_iff_toNat_le.mp (preset.proposerShare_le baseReward)
  dsimp only [baseRewardsPerEpoch]
  omega

end Chain

end BeaconEpoch
