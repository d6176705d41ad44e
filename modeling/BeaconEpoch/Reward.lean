import BeaconEpoch.Config.Basic
import BeaconEpoch.Event

/-!
# Base rewards

The amount that all rewards and penalties of a validator are fractions of.

## Main definitions

* `burn`, `Config.adjust`: what a configuration does to a base reward.
* `Preset.pendingBaseReward`: the base reward of Phase 0.
* `Preset.baseRewardPerIncrement`, `Preset.baseReward`: the base reward from Altair on, by
  increments of effective balance.
-/

namespace BeaconEpoch

/-! ## Adjustments -/

/-- The length of slots that base rewards are calibrated for. -/
def referenceSecondsPerSlot : Nat := 12

/-- A base reward scaled to the length of a slot, less a quarter. Both steps round down. -/
def burn (baseReward : Gwei) (secondsPerSlot : PositiveWord) : Gwei :=
  have product : baseReward.toNat * secondsPerSlot.val.toNat < GweiSum.bound :=
    GweiSum.mul_lt_bound baseReward.toNat_lt secondsPerSlot.val.toNat_lt
  let scaled : Nat :=
    GweiSum.exact (baseReward.toNat * secondsPerSlot.val.toNat) product / referenceSecondsPerSlot
  have scaledFits : scaled * 3 < GweiSum.bound := by
    have : scaled = baseReward.toNat * secondsPerSlot.val.toNat / 12 := rfl
    omega
  Word.saturate (GweiSum.exact (scaled * 3) scaledFits / 4)

/-- What a configuration makes of a base reward. -/
def Config.adjust (config : Config) (baseReward : Gwei) : Gwei :=
  match config.adjustment with
  | .none => baseReward
  | .pulseChainBurn => burn baseReward config.secondsPerSlot

/-- What adjusting a base reward reports. -/
def Config.adjustEvents (config : Config) (baseReward : Gwei) : List Event :=
  match config.adjustment with
  | .none => []
  | .pulseChainBurn => [.rewardBurned baseReward (burn baseReward config.secondsPerSlot)]

namespace Preset

variable (preset : Preset)

/-! ## Phase 0 -/

/-- The base reward of Phase 0: an effective balance, times the reward factor, over the square root
of all active stake, split over the rewards of an epoch. A root of zero counts as one. -/
def pendingBaseReward (effectiveBalance : Gwei) (totalActive : GweiSum) : GweiSum :=
  have product : effectiveBalance.toNat * preset.baseRewardFactor < GweiSum.bound :=
    GweiSum.mul_lt_bound effectiveBalance.toNat_lt preset.baseRewardFactor_lt
  GweiSum.exact (effectiveBalance.toNat * preset.baseRewardFactor) product /
    max (isqrt totalActive) 1 / baseRewardsPerEpoch

/-! ## Altair and later -/

/-- The base reward of one increment of effective balance; zero where no stake is active. -/
def baseRewardPerIncrement (totalActive : GweiSum) : GweiSum :=
  have product : preset.effectiveBalanceIncrement * preset.baseRewardFactor < GweiSum.bound := by
    cases preset <;> decide
  GweiSum.exact (preset.effectiveBalanceIncrement * preset.baseRewardFactor) product /
    isqrt totalActive

/-- The base reward of an effective balance: that of its whole increments. -/
def baseReward (effectiveBalance : Gwei) (perIncrement : GweiSum) : Except Error GweiSum :=
  GweiSum.checked (effectiveBalance.toNat / preset.effectiveBalanceIncrement * perIncrement)

end Preset

end BeaconEpoch
