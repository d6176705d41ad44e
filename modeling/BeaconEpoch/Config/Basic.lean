import BeaconEpoch.Preset

/-!
# Configurations

What a network may set without changing its preset.

## Main definitions

* `Config`: a name, a preset, the fork epochs, and the parameters of rewards and scores.
* `Config.default`, `Config.mainnet`, `Config.minimal`, `Config.pulseChain`,
  `Config.pulseChainTestnetV4`: the configurations known by name.
* `Config.validate`: the first of three faults that a configuration may have.

## Design notes

* **Validation is a separate step.** A configuration with unordered forks is a value like any other;
  the fork schedule says what it means.
-/

namespace BeaconEpoch

/-- What is done to a base reward before it enters a formula. -/
inductive Adjustment
  /-- Nothing. -/
  | none
  /-- It is scaled to the length of a slot, and a quarter of it is burned. -/
  | pulseChainBurn
deriving DecidableEq, Repr, Inhabited

namespace Adjustment

/-- All adjustments. -/
def all : List Adjustment := [none, pulseChainBurn]

/-- The name of an adjustment. -/
def name : Adjustment → String
  | none => "none"
  | pulseChainBurn => "pulse_chain_burn"

/-- The adjustment with exactly this name. -/
def ofName? (text : String) : Option Adjustment := all.find? (·.name == text)

theorem ofName?_name (adjustment : Adjustment) : ofName? adjustment.name = some adjustment := by
  cases adjustment <;> decide

end Adjustment

/-- A configuration. -/
structure Config where
  /-- The name of the network. -/
  name : String
  /-- The preset that the network says it is based on. -/
  presetBase : Preset
  /-- The first epoch of Altair. -/
  altairForkEpoch : Epoch
  /-- The first epoch of Bellatrix. -/
  bellatrixForkEpoch : Epoch
  /-- The first epoch of Capella. -/
  capellaForkEpoch : Epoch
  /-- The length of a slot. -/
  secondsPerSlot : PositiveWord
  /-- What an epoch of missing adds to an inactivity score. -/
  scoreBias : PositiveWord
  /-- What an epoch without a leak takes from an inactivity score. -/
  scoreRecoveryRate : UInt64
  /-- What is done to base rewards. -/
  adjustment : Adjustment
  /-- The keys of a configuration text that mean nothing here, in order and without repetition. -/
  unknown : List String := []
deriving DecidableEq

namespace Config

/-- The values of what a configuration text leaves out. -/
def default : Config where
  name := "default"
  presetBase := .mainnet
  altairForkEpoch := farFutureEpoch
  bellatrixForkEpoch := farFutureEpoch
  capellaForkEpoch := farFutureEpoch
  secondsPerSlot := ⟨12, by decide⟩
  scoreBias := ⟨4, by decide⟩
  scoreRecoveryRate := 16
  adjustment := .none

instance : Inhabited Config := ⟨default⟩

/-- The main network. -/
def mainnet : Config :=
  { default with
    name := "mainnet"
    altairForkEpoch := 74240
    bellatrixForkEpoch := 144896
    capellaForkEpoch := 194048 }

/-- The network of tests with small constants. -/
def minimal : Config :=
  { default with
    name := "minimal"
    presetBase := .minimal
    secondsPerSlot := ⟨6, by decide⟩ }

/-- The network with short slots and burned rewards. -/
def pulseChain : Config :=
  { default with
    name := "pulsechain"
    presetBase := .pulseChain
    altairForkEpoch := 1
    bellatrixForkEpoch := 2
    capellaForkEpoch := 3
    secondsPerSlot := ⟨10, by decide⟩
    adjustment := .pulseChainBurn }

/-- The fourth test network of `pulseChain`. -/
def pulseChainTestnetV4 : Config :=
  { pulseChain with
    name := "pulsechain-testnet-v4"
    capellaForkEpoch := 4200 }

/-! ## Validation -/

/-- What may be wrong with a configuration. -/
inductive Fault
  /-- The name is empty. -/
  | nameEmpty
  /-- The name has a character other than a small letter, a digit or a hyphen. -/
  | nameContainsIllegalCharacters
  /-- A later phase starts before an earlier one. -/
  | forkEpochsOutOfOrder
deriving DecidableEq, Repr

/-- The wording of a fault. -/
def Fault.message : Fault → String
  | nameEmpty => "configuration name is empty"
  | nameContainsIllegalCharacters => "configuration name contains illegal characters"
  | forkEpochsOutOfOrder => "fork epochs are not in chronological order"

/-- The characters of names: small letters, digits and the hyphen. -/
def isNameCharacter (c : Char) : Bool :=
  ('a' ≤ c && c ≤ 'z') || ('0' ≤ c && c ≤ '9') || c == '-'

/-- Fails with the first fault of a configuration. -/
def validate (config : Config) : Except Fault Unit :=
  if config.name.toList.isEmpty then .error .nameEmpty
  else if !config.name.toList.all isNameCharacter then .error .nameContainsIllegalCharacters
  else if config.altairForkEpoch ≤ config.bellatrixForkEpoch ∧
      config.bellatrixForkEpoch ≤ config.capellaForkEpoch then .ok ()
  else .error .forkEpochsOutOfOrder

theorem validate_eq_ok_iff {config : Config} :
    config.validate = .ok () ↔
      config.name.toList ≠ [] ∧ (∀ c ∈ config.name.toList, isNameCharacter c) ∧
        config.altairForkEpoch ≤ config.bellatrixForkEpoch ∧
        config.bellatrixForkEpoch ≤ config.capellaForkEpoch := by
  unfold validate
  split
  · simp_all
  · split
    · rename_i illegal
      simp only [Bool.not_eq_true', List.all_eq_false] at illegal
      obtain ⟨c, mem, bad⟩ := illegal
      exact ⟨nofun, fun h => absurd (h.2.1 c mem) bad⟩
    · split <;> simp_all

end Config

/-- The configuration that goes with a preset. -/
def Preset.defaultConfig : Preset → Config
  | mainnet => Config.mainnet
  | minimal => Config.minimal
  | pulseChain => Config.pulseChain

end BeaconEpoch
