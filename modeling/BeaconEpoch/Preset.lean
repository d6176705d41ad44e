import BeaconEpoch.Quantity
import BeaconEpoch.Phase

/-!
# Presets

The constants that a network fixes for good.

## Main definitions

* `Preset`: the three presets.
* One function per constant, from `Preset.slotsPerEpoch` to `Preset.targetCommitteeSize`.
* `Preset.slashingMultiplier`, `Preset.inactivityPenaltyQuotient`: the constants that a phase may
  change.
* `participationWeights` and the other constants that all presets share.

## Design notes

* **Lengths of time are words, amounts are naturals.** Slots and epochs are divided by the former;
  the latter enter formulas that are evaluated in `Nat`.
-/

namespace BeaconEpoch

/-- The presets. -/
inductive Preset
  | mainnet
  | minimal
  /-- Mainnet with amounts a million times larger. -/
  | pulseChain
deriving DecidableEq, Repr, Inhabited

namespace Preset

/-- All presets. -/
def all : List Preset := [mainnet, minimal, pulseChain]

/-- The name of a preset. -/
def name : Preset → String
  | mainnet => "mainnet"
  | minimal => "minimal"
  | pulseChain => "pulsechain"

/-- The preset with exactly this name. -/
def ofName? (text : String) : Option Preset := all.find? (·.name == text)

theorem ofName?_name (preset : Preset) : ofName? preset.name = some preset := by
  cases preset <;> decide

/-! ## Time -/

/-- The number of slots in an epoch. -/
def slotsPerEpoch : Preset → UInt64
  | minimal => 8
  | _ => 32

/-- The number of epochs whose block roots are kept. -/
def epochsPerHistoricalRoot : Preset → UInt64
  | minimal => 8
  | _ => 256

/-- The number of slots whose block roots are kept. -/
def slotsPerHistoricalRoot (preset : Preset) : UInt64 :=
  preset.epochsPerHistoricalRoot * preset.slotsPerEpoch

/-- The number of epochs whose randomness is kept. -/
def epochsPerHistoricalVector : Preset → UInt64
  | minimal => 64
  | _ => 65536

/-- The number of epochs whose slashed amounts are kept. -/
def epochsPerSlashingsVector : Preset → UInt64
  | minimal => 64
  | _ => 8192

/-- The smallest number of slots between a vote and its inclusion. -/
def minAttestationInclusionDelay (_ : Preset) : UInt64 := 1

/-- The longest finality delay that does not count as an inactivity leak. -/
def minEpochsToInactivityPenalty (_ : Preset) : UInt64 := 4

/-- How many epochs ahead the randomness of a shuffle is fixed. -/
def minSeedLookahead (_ : Preset) : UInt64 := 1

/-! ## Amounts -/

/-- The unit in which effective balances are counted. -/
def effectiveBalanceIncrement : Preset → Nat
  | pulseChain => 1000000000000000
  | _ => 1000000000

/-- The largest effective balance. -/
def maxEffectiveBalance : Preset → Nat
  | pulseChain => 32000000000000000
  | _ => 32000000000

/-- The factor by which base rewards grow. -/
def baseRewardFactor : Preset → Nat
  | pulseChain => 64000
  | _ => 64

theorem baseRewardFactor_lt (preset : Preset) : preset.baseRewardFactor < 2 ^ 64 := by
  cases preset <;> decide

/-- The part of a base reward that goes to the proposer is its quotient by this. -/
def proposerRewardQuotient (_ : Preset) : UInt64 := 8

/-- The divisor of inactivity penalties, by phase. -/
def inactivityPenaltyQuotient : Preset → Phase → Nat
  | minimal, .phase0 => 33554432
  | _, .phase0 => 67108864
  | _, .altair => 50331648
  | _, .bellatrix | _, .capella => 16777216

/-- The factor by which the slashed part of all stake is weighed, by phase. -/
def slashingMultiplier : Preset → Phase → Nat
  | minimal, .phase0 => 2
  | _, .phase0 => 1
  | _, .altair => 2
  | _, .bellatrix | _, .capella => 3

/-! ## Committees -/

/-- The largest number of committees in a slot. -/
def maxCommitteesPerSlot : Preset → Nat
  | minimal => 4
  | _ => 64

/-- The size that committees are meant to have. -/
def targetCommitteeSize : Preset → Nat
  | minimal => 4
  | _ => 128

/-- The number of rounds of a shuffle. -/
def shuffleRoundCount : Preset → Nat
  | minimal => 10
  | _ => 90

theorem shuffleRoundCount_pos (preset : Preset) : 0 < preset.shuffleRoundCount := by
  cases preset <;> decide

end Preset

/-! ## Constants of all presets -/

/-- The number of base rewards that a perfect validator earns in an epoch of Phase 0. -/
def baseRewardsPerEpoch : Nat := 4

/-- The domain of the shuffles that committees are cut from. -/
def beaconAttesterDomain : List UInt8 := [1, 0, 0, 0]

/-- The position of the flag for a timely source vote. -/
def timelySourceFlag : Nat := 0

/-- The position of the flag for a timely target vote. -/
def timelyTargetFlag : Nat := 1

/-- The position of the flag for a timely head vote. -/
def timelyHeadFlag : Nat := 2

/-- The weight of each flag in a base reward. -/
def participationWeights : List (Nat × Nat) :=
  [(timelySourceFlag, 14), (timelyTargetFlag, 26), (timelyHeadFlag, 14)]

/-- The weight of sync committees in a base reward. -/
def syncRewardWeight : Nat := 2

/-- The weight of proposers in a base reward. -/
def proposerWeight : Nat := 8

/-- The sum of all weights in a base reward. -/
def weightDenominator : Nat := 64

end BeaconEpoch
