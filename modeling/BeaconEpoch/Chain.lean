import BeaconEpoch.Attestation
import BeaconEpoch.Hash.Sha256
import BeaconEpoch.Shuffle
import BeaconEpoch.Time
import BeaconEpoch.Validator

/-!
# Chains

The part of a state that all phases share, and what can be read from it.

## Main definitions

* `Chain`: slot, history, registry, balances, randomness, slashings and finality.
* `Chain.currentEpoch`, `Chain.previousEpoch`, `Chain.nextEpoch`, `Chain.epochOf`: the epochs around
  the slot.
* `Chain.attestationEpoch`, `Chain.relativeEpoch`: how an epoch lies to the slot.
* `Chain.finalityDelay`, `Chain.isLeaking`: how long nothing was finalized.
* `Chain.blockRootAtSlot`, `Chain.blockRoot`, `Chain.randaoMix`: lookups in the circular histories.
* `Chain.seed`, `Chain.activeIndices`, `Chain.shuffledIndices`: the validators of an epoch in the
  order from which committees are cut.

## Design notes

* **The preset is a parameter of the type.** Everything that belongs together agrees on it without
  being told.
* **The lengths of the histories are not fixed.** A lookup beyond a short history fails like one
  outside the window.
-/

namespace BeaconEpoch

/-- The part of a state that all phases share. -/
structure Chain (preset : Preset) where
  /-- The slot that the state is at. -/
  slot : Slot
  /-- The roots of the blocks at recent slots, in a circle. -/
  blockRoots : Array Root
  /-- The registry. -/
  validators : Array Validator
  /-- One balance per validator. -/
  balances : Array Gwei
  /-- The randomness of recent epochs, in a circle. -/
  randaoMixes : Array Root
  /-- The amounts slashed in recent epochs, in a circle. -/
  slashings : Array Gwei
  /-- The last checkpoint that cannot be undone. -/
  finalizedCheckpoint : Checkpoint
deriving DecidableEq

namespace Chain

variable {preset : Preset}

/-- The chain at genesis without validators: histories of full length, all zero. -/
def empty (preset : Preset) : Chain preset where
  slot := genesisSlot
  blockRoots := Array.replicate preset.slotsPerHistoricalRoot.toNat Root.zero
  validators := #[]
  balances := #[]
  randaoMixes := Array.replicate preset.epochsPerHistoricalVector.toNat Root.zero
  slashings := Array.replicate preset.epochsPerSlashingsVector.toNat 0
  finalizedCheckpoint := ⟨genesisEpoch, Root.zero⟩

instance : Inhabited (Chain preset) := ⟨empty preset⟩

variable (chain : Chain preset)

/-! ## Epochs -/

/-- The epoch of the slot. -/
def currentEpoch : Epoch := preset.epochAt chain.slot

/-- The epoch before the current one; the first epoch is its own predecessor. -/
def previousEpoch : Epoch := Word.subSat chain.currentEpoch 1

theorem toNat_currentEpoch :
    chain.currentEpoch.toNat = chain.slot.toNat / preset.slotsPerEpoch.toNat :=
  preset.toNat_epochAt _

/-- There are far fewer epochs than words, because an epoch has several slots. -/
theorem toNat_currentEpoch_lt : chain.currentEpoch.toNat < 2 ^ 63 := by
  have slot := chain.slot.toNat_lt
  rw [toNat_currentEpoch]
  cases preset <;> simp [Preset.slotsPerEpoch] <;> omega

/-- The epoch after the current one. -/
def nextEpoch : Epoch :=
  Word.exact (chain.currentEpoch.toNat + 1) (by have := chain.toNat_currentEpoch_lt; omega)

/-- The epoch that a relative one is. -/
def epochOf : RelativeEpoch → Epoch
  | .previous => chain.previousEpoch
  | .current => chain.currentEpoch
  | .next => chain.nextEpoch

/-- How an epoch that is voted for lies to the slot. -/
def attestationEpoch (epoch : Epoch) : Except Error AttestationEpoch :=
  let current := chain.currentEpoch
  if current < epoch then .error .epochInTheFuture
  else if current - epoch = 0 then .ok .current
  else if current - epoch = 1 then .ok .previous
  else .error .epochBeforePrevious

/-- How an epoch lies to the slot. -/
def relativeEpoch (epoch : Epoch) : Except Error RelativeEpoch :=
  let next := chain.nextEpoch
  if next < epoch then .error .epochAfterNext
  else if next - epoch = 0 then .ok .next
  else if next - epoch = 1 then .ok .current
  else if next - epoch = 2 then .ok .previous
  else .error .epochBeforePrevious

/-- Whether rewards are due: in the first epoch there is no previous one to reward. -/
def isPastGenesis : Bool := genesisEpoch < chain.currentEpoch

/-! ## Finality -/

/-- The number of epochs between the finalized one and the previous one. -/
def finalityDelay : UInt64 := Word.subSat chain.previousEpoch chain.finalizedCheckpoint.epoch

/-- Whether nothing was finalized for so long that those who are missing lose stake. -/
def isLeaking : Bool := preset.minEpochsToInactivityPenalty < chain.finalityDelay

/-! ## History -/

/-- The root of the block at a slot before that of the state, as far as the history reaches. -/
def blockRootAtSlot (slot : Slot) : Except Error Root :=
  if slot < chain.slot ∧ chain.slot ≤ Word.addSat slot preset.slotsPerHistoricalRoot then
    match chain.blockRoots[(slot % preset.slotsPerHistoricalRoot).toNat]? with
    | some root => .ok root
    | none => .error (.slotOutOfRange slot)
  else .error (.slotOutOfRange slot)

/-- The root of the block at the start of an epoch. -/
def blockRoot (epoch : AttestationEpoch) : Except Error Root :=
  chain.blockRootAtSlot (preset.startSlot (chain.epochOf epoch.toRelative))

/-- Whether the block at the start of an epoch is the one with this root. -/
def isBlockRoot (epoch : AttestationEpoch) (root : Root) : Except Error Bool := do
  return root == (← chain.blockRoot epoch)

/-- Whether the block at a slot is the one with this root. -/
def isBlockRootAtSlot (slot : Slot) (root : Root) : Except Error Bool := do
  return root == (← chain.blockRootAtSlot slot)

/-- A check that is made under a condition; without it nothing is looked up. -/
def checkIf (condition : Bool) (check : Except Error Bool) : Except Error Bool :=
  if condition then check else .ok false

/-- The randomness of an epoch. -/
def randaoMix (epoch : Epoch) : Except Error Root :=
  match chain.randaoMixes[(epoch % preset.epochsPerHistoricalVector).toNat]? with
  | some mix => .ok mix
  | none => .error (.mixOutOfRange epoch)

/-! ## Shuffles -/

/-- The seed of an epoch for a purpose: a hash of the purpose, the epoch, and the randomness that
was fixed before it. -/
def seed (epoch : Epoch) (domain : List UInt8) : Except Error Root := do
  let ahead ← Word.checked (epoch.toNat + preset.epochsPerHistoricalVector.toNat)
  let fixed ← Word.difference (← Word.difference ahead preset.minSeedLookahead) 1
  let mix ← chain.randaoMix fixed
  return Sha256.digest (domain ++ littleEndian 8 epoch.toNat ++ mix.toList)

/-- The validators with duties in an epoch, in the order of the registry. -/
def activeIndices (epoch : Epoch) : Array ValidatorIndex :=
  chain.validators.zipIdx.filterMap fun (validator, index) =>
    if validator.isActive epoch then some index else none

/-- The validators with duties in an epoch, in the order from which committees are cut. -/
def shuffledIndices (epoch : Epoch) : Except Error (Array ValidatorIndex) := do
  let seed ← chain.seed epoch beaconAttesterDomain
  Shuffle.shuffle Sha256.digest seed preset.shuffleRoundCount (chain.activeIndices epoch)

/-- The stake with duties in an epoch, at least one increment. -/
def totalActive (epoch : Epoch) : GweiSum :=
  let active := chain.validators.filter (·.isActive epoch)
  max preset.effectiveBalanceIncrement (active.foldl (· + ·.effectiveBalance.toNat) 0)

/-! ## Small laws -/

theorem toNat_previousEpoch : chain.previousEpoch.toNat = chain.currentEpoch.toNat - 1 :=
  Word.toNat_subSat ..

theorem toNat_nextEpoch : chain.nextEpoch.toNat = chain.currentEpoch.toNat + 1 :=
  Word.toNat_exact _

end Chain

end BeaconEpoch
