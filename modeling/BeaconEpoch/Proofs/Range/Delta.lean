import BeaconEpoch.Delta.Flags
import BeaconEpoch.Proofs.Range.Tally
import BeaconEpoch.Proofs.Reward.Pending

/-!
# Ranges of deltas

Rewards and penalties that are computed from bounded totals fit their sums, with any effective
balances, scores, delays and configurations.

## Main definitions

* `Totals.Moderate`: totals that rewards can be found from.
* `FlagRates.Bounded`: rates as they come from such totals.

## Main statements

* `Chain.epochDeltas_sound`: the deltas of Phase 0.
* `Chain.flagDeltas_sound`: the deltas of Altair and later.
* `FlagRates.delta_reward_le`: bounds on the rewards for flags bound a reward.

## Design notes

* **Flags share one sum.** The rewards for all flags of a validator are added up as sums and made a
  word afterwards, and so are its penalties. So the bounds on single rewards and penalties leave
  room for as many of them as there are flags.
-/

namespace BeaconEpoch

/-- What rewards are found from is no more than the stake of all validators: the active stake, and
the stake behind each vote for the previous epoch. -/
structure Totals.Moderate (totals : Totals) : Prop where
  active : totals.activeCurrent ≤ stakeBound
  source : totals.previousAttested ≤ stakeBound
  target : totals.previousTargetAttested ≤ stakeBound
  head : totals.previousHeadAttested ≤ stakeBound

/-- Bounded totals are moderate enough for every product that rewards are made of. -/
theorem Totals.Bounded.moderate {preset : Preset} {totals : Totals}
    (bounded : totals.Bounded preset) : totals.Moderate where
  active := bounded.within.activeCurrent
  source := bounded.within.attested .previousEpoch
  target := bounded.within.attested .previousEpochTarget
  head := bounded.within.attested .previousEpochHead

/-! ## The stake behind a vote -/

namespace Record

variable {totals : Totals} {bound : GweiSum} (record : Record)
  (source : totals.previousAttested ≤ bound) (target : totals.previousTargetAttested ≤ bound)
  (head : totals.previousHeadAttested ≤ bound)

include source target head

theorem pendingVotes_le : ∀ vote ∈ record.pendingVotes totals, vote.2 ≤ bound := by
  simp only [pendingVotes, List.forall_mem_cons]
  exact ⟨source, target, head, List.forall_mem_nil _⟩

theorem flagVote_le (flag : Nat) : (record.flagVote totals flag).2 ≤ bound := by
  unfold flagVote
  split
  · exact source
  · split
    · exact target
    · exact head

end Record

/-! ## Phase 0 -/

namespace Chain

variable {preset : Preset} {chain : Chain preset} {allowed : Error → Prop}

theorem rewardsFit_of_moderate (config : Config) {totals : Totals} (moderate : totals.Moderate)
    (record : Record) : chain.RewardsFit config totals record := by
  intro _ vote listed
  have small := record.pendingVotes_le moderate.source moderate.target moderate.head vote listed
  exact GweiSum.mul_lt_bound (UInt64.toNat_lt _) (preset.increments_lt small)

/-- The deltas of Phase 0 are found for every record, without any allowance for errors. -/
theorem pendingDeltas_sound (config : Config) {tally : Tally} (moderate : tally.totals.Moderate) :
    Sound allowed (·.size = tally.records.size) (chain.pendingDeltas config tally) := by
  rw [pendingDeltas_eq fun record _ => (rewardsFit_of_moderate config moderate record).productsFit]
  exact Array.size_map

end Chain

/-- Crediting proposers refuses those that the registry does not have, and nothing else. -/
theorem Config.proposerRewards_sound (config : Config) (preset : Preset) (tally : Tally) :
    Sound Error.AccusesInput (fun _ => True) (config.proposerRewards preset tally) := by
  refine Sound.foldlM _ trivial fun rewards record _ _ => ?_
  simp only [Config.creditProposer]
  split
  · split
    · trivial
    · trivial
  · exact nofun

/-- An epoch has deltas in every phase and at every age of the chain. -/
theorem Chain.epochDeltas_sound {preset : Preset} {chain : Chain preset} (config : Config)
    {tally : Tally} (bounded : tally.totals.Bounded preset) :
    Sound Error.AccusesInput (fun _ => True) (chain.epochDeltas config tally) := by
  refine (chain.pendingDeltas_sound config bounded.moderate).bind fun deltas _ => ?_
  exact (config.proposerRewards_sound preset tally).bind fun rewards _ => .pure trivial

/-! ## Altair and later -/

/-- Rates as they come from moderate totals. -/
structure FlagRates.Bounded (rates : FlagRates) : Prop where
  totals : rates.totals.Moderate
  perIncrement : rates.perIncrement < 2 ^ 66
  rewardDivisor : rates.rewardDivisor ≠ 0 → weightDenominator ≤ rates.rewardDivisor
  inactivityDivisor : rates.inactivityDivisor ≠ 0

theorem participationWeights_le {entry : Nat × Nat} (mem : entry ∈ participationWeights) :
    entry.2 ≤ 26 := by
  revert entry
  decide

namespace FlagRates

variable {rates : FlagRates} {allowed : Error → Prop}

theorem baseReward_sound (bounded : rates.Bounded) (record : Record) :
    Sound allowed (fun _ => True) (rates.baseReward record) := by
  have fits : record.effectiveBalance.toNat / rates.preset.effectiveBalanceIncrement *
      rates.perIncrement < GweiSum.bound :=
    calc
      _ < 2 ^ 36 * 2 ^ 66 :=
        Nat.mul_lt_mul'' (rates.preset.wholeIncrements_lt _) bounded.perIncrement
      _ < GweiSum.bound := by decide
  exact (GweiSum.checked_sound fits).bind fun reward _ => .pure trivial

/-- **The largest product of an epoch.** A base reward times a weight times increments of stake is a
product of two words, because the weighted increments of all stake are a word. -/
theorem flagReward_sound (bounded : rates.Bounded) (record : Record) (baseReward : Gwei)
    (flag : Nat) {weight : Nat} (light : weight ≤ 26) :
    Sound allowed (· ≤ 2 ^ 122) (rates.flagReward record baseReward flag weight) := by
  have small := record.flagVote_le bounded.totals.source bounded.totals.target
    bounded.totals.head flag
  have increments := rates.preset.increments_mul_lt light small
  have fits : baseReward.toNat * weight * ((record.flagVote rates.totals flag).2 /
      rates.preset.effectiveBalanceIncrement) < GweiSum.bound := by
    rw [Nat.mul_assoc]
    exact GweiSum.mul_lt_bound baseReward.toNat_lt increments
  simp only [flagReward]
  split
  · refine (GweiSum.checked_sound fits).bind fun product equal => .pure ?_
    by_cases zero : rates.rewardDivisor = 0
    · rw [zero, Nat.div_zero]
      exact Nat.zero_le _
    calc
      product / rates.rewardDivisor ≤ product / weightDenominator :=
        Nat.div_le_div_left (bounded.rewardDivisor zero) (by decide)
      _ ≤ 2 ^ 128 / weightDenominator := by
        rw [equal]
        exact Nat.div_le_div_right (Nat.le_of_lt fits)
      _ = 2 ^ 122 := by decide
  · exact Nat.zero_le _

theorem flagPenalty_sound (record : Record) (baseReward : Gwei) (flag : Nat) {weight : Nat}
    (light : weight ≤ 26) :
    Sound allowed (· ≤ 2 ^ 63) (rates.flagPenalty record baseReward flag weight) := by
  have small : baseReward.toNat * weight ≤ 2 ^ 64 * 26 :=
    Nat.mul_le_mul (Nat.le_of_lt baseReward.toNat_lt) light
  unfold flagPenalty
  split
  · exact Nat.zero_le _
  · refine (GweiSum.checked_sound (Nat.lt_of_le_of_lt small (by decide))).bind
      fun product equal => .pure ?_
    calc
      product / weightDenominator ≤ 2 ^ 64 * 26 / weightDenominator := by
        rw [equal]
        exact Nat.div_le_div_right small
      _ ≤ 2 ^ 63 := by decide

/-- A score is as large as a word, and so is the stake: the product is a sum, with some room left
for the penalties of missing flags. -/
theorem inactivityPenalty_sound (bounded : rates.Bounded) (record : Record) :
    Sound allowed (· ≤ (2 ^ 64 - 1) * (2 ^ 64 - 1))
      (rates.inactivityPenalty record) := by
  have product : record.effectiveBalance.toNat * record.inactivityScore.toNat ≤
      (2 ^ 64 - 1) * (2 ^ 64 - 1) :=
    Nat.mul_le_mul (Nat.le_pred_of_lt record.effectiveBalance.toNat_lt)
      (Nat.le_pred_of_lt record.inactivityScore.toNat_lt)
  unfold inactivityPenalty
  split
  · refine (GweiSum.checked_sound (Nat.lt_of_le_of_lt product (by decide))).bind
      fun found equal => ?_
    refine (quotient_sound bounded.inactivityDivisor).mono fun penalty divided => ?_
    rw [divided, equal]
    exact Nat.le_trans (Nat.div_le_self ..) product
  · exact Nat.zero_le _

theorem delta_sound (bounded : rates.Bounded) (record : Record) :
    Sound allowed (fun _ => True) (rates.delta record) := by
  unfold delta
  split
  · trivial
  · refine (baseReward_sound bounded record).bind fun baseReward _ => ?_
    -- three rewards are far from filling a sum; three penalties fit beside the one for inactivity
    refine (Sound.mapM_list _ _ fun entry mem =>
      flagReward_sound bounded record baseReward entry.1 (participationWeights_le mem)).bind
      fun rewards ⟨count, small⟩ => ?_
    have sum : rewards.sum < GweiSum.bound :=
      calc
        _ ≤ rewards.length * 2 ^ 122 := sum_le_length_mul small
        _ < GweiSum.bound := by rw [count]; decide
    refine (GweiSum.checked_sound sum).bind ?_
    intro reward _
    refine (Sound.mapM_list _ _ fun entry mem =>
      flagPenalty_sound record baseReward entry.1 (participationWeights_le mem)).bind
      fun penalties ⟨count, small⟩ => ?_
    refine (inactivityPenalty_sound bounded record).bind ?_
    intro inactivity large
    have sum : penalties.sum + inactivity < GweiSum.bound :=
      calc
        _ ≤ penalties.length * 2 ^ 63 + (2 ^ 64 - 1) * (2 ^ 64 - 1) :=
          Nat.add_le_add (sum_le_length_mul small) large
        _ < GweiSum.bound := by rw [count]; decide
    exact (GweiSum.checked_sound sum).bind fun penalty _ => .pure trivial

/-- A validator is rewarded for its flags and for nothing else. -/
theorem delta_reward_le (record : Record) {known : Gwei → Prop} {cap : Nat × Nat → Nat}
    (base : Sound (fun _ => True) known (rates.baseReward record))
    (each : ∀ baseReward, known baseReward → ∀ entry, Sound (fun _ => True) (· ≤ cap entry)
      (rates.flagReward record baseReward entry.1 entry.2)) :
    Sound (fun _ => True)
      (fun delta => delta.reward.toNat ≤
        if record.eligible then (participationWeights.map cap).sum else 0)
      (rates.delta record) := by
  unfold delta
  cases record.eligible with
  | false => exact Nat.le_refl 0
  | true =>
    refine base.bind fun baseReward known => ?_
    refine (Sound.mapM_list_forall₂ _ fun entry _ => each baseReward known entry).bind ?_
    intro rewards capped
    have together : rewards.sum ≤ (participationWeights.map cap).sum :=
      (List.forall₂_map_right_iff.mpr capped.flip).sum_le_sum
    refine Sound.bind (GweiSum.checked_gives _) ?_
    rintro reward rfl
    refine (Sound.any _).bind fun penalties _ => (Sound.any _).bind fun inactivity _ => ?_
    refine (Sound.any _).bind fun penalty _ => .pure ?_
    rw [Word.toNat_saturate]
    exact Nat.le_trans (Nat.min_le_left ..) together

end FlagRates

namespace Chain

variable {preset : Preset} {chain : Chain preset} {allowed : Error → Prop}

/-- The rates of an epoch with flags are found, and they are bounded. -/
theorem flagRates_sound (config : Config) (phase : Phase) {totals : Totals}
    (moderate : totals.Moderate) :
    Sound allowed FlagRates.Bounded (chain.flagRates config phase totals) := by
  have fits : totals.activeCurrent / preset.effectiveBalanceIncrement * weightDenominator <
      GweiSum.bound :=
    GweiSum.mul_lt_bound (preset.increments_lt moderate.active) (by decide)
  refine (GweiSum.checked_sound fits).bind ?_
  intro rewardDivisor weighted
  have quotients : 0 < preset.inactivityPenaltyQuotient phase ∧
      preset.inactivityPenaltyQuotient phase < 2 ^ 64 := by
    cases preset <;> cases phase <;> decide
  have biased : 0 < config.scoreBias.val.toNat := by
    refine Nat.pos_of_ne_zero fun zero => config.scoreBias.property ?_
    rw [← UInt64.toNat_inj, zero]
    rfl
  have fits := GweiSum.mul_lt_bound config.scoreBias.val.toNat_lt quotients.2
  refine (GweiSum.checked_sound fits).bind fun inactivityDivisor product => .pure ?_
  constructor
  · exact moderate
  · calc
      preset.baseRewardPerIncrement totals.activeCurrent ≤
          preset.effectiveBalanceIncrement * preset.baseRewardFactor := Nat.div_le_self ..
      _ < 2 ^ 66 := by cases preset <;> decide
  · intro nonzero
    have some_active : totals.activeCurrent / preset.effectiveBalanceIncrement ≠ 0 := by
      rintro none_active
      exact nonzero (by rw [weighted, none_active, Nat.zero_mul])
    show weightDenominator ≤ rewardDivisor
    rw [weighted]
    exact Nat.le_mul_of_pos_left _ (Nat.pos_of_ne_zero some_active)
  · show inactivityDivisor ≠ 0
    rw [product]
    exact Nat.ne_of_gt (Nat.mul_pos biased quotients.1)

/-- The deltas of later phases are found for every record as well. -/
theorem flagDeltas_sound (config : Config) (phase : Phase) {tally : Tally}
    (moderate : tally.totals.Moderate) :
    Sound allowed (·.size = tally.records.size) (chain.flagDeltas config phase tally) := by
  unfold flagDeltas
  split
  · exact Array.size_map
  · refine (flagRates_sound config phase moderate).bind fun rates fine => ?_
    refine (Sound.mapM (fun _ => True) _ fun record _ => FlagRates.delta_sound fine record).mono ?_
    exact fun deltas found => found.1

end Chain

end BeaconEpoch
