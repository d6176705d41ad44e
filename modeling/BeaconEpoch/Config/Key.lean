/-!
# Keys of configurations

## Main definitions

* `Config.Key`, `Config.Key.name`: the values that a text may set, and how they are written.
* `Config.Key.isName`: whether a text is a key.
-/

namespace BeaconEpoch.Config

/-- The values that a text may set. -/
inductive Key
  | configName
  | presetBase
  | altairForkEpoch
  | bellatrixForkEpoch
  | capellaForkEpoch
  | secondsPerSlot
  | inactivityScoreBias
  | inactivityScoreRecoveryRate
  | baseRewardAdjustment
deriving DecidableEq, Repr

namespace Key

/-- All keys, in the order in which they are written. -/
def all : List Key :=
  [configName, presetBase, altairForkEpoch, bellatrixForkEpoch, capellaForkEpoch, secondsPerSlot,
    inactivityScoreBias, inactivityScoreRecoveryRate, baseRewardAdjustment]

/-- A key as it is written. -/
def name : Key → String
  | configName => "CONFIG_NAME"
  | presetBase => "PRESET_BASE"
  | altairForkEpoch => "ALTAIR_FORK_EPOCH"
  | bellatrixForkEpoch => "BELLATRIX_FORK_EPOCH"
  | capellaForkEpoch => "CAPELLA_FORK_EPOCH"
  | secondsPerSlot => "SECONDS_PER_SLOT"
  | inactivityScoreBias => "INACTIVITY_SCORE_BIAS"
  | inactivityScoreRecoveryRate => "INACTIVITY_SCORE_RECOVERY_RATE"
  | baseRewardAdjustment => "BASE_REWARD_ADJUSTMENT"

/-- Whether a text is a key. -/
def isName (text : String) : Bool := all.any (·.name == text)

end Key

end BeaconEpoch.Config
