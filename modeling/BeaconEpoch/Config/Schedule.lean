import BeaconEpoch.Config.Basic
import BeaconEpoch.Time

/-!
# Fork schedules

When the phases of a network start.

## Main definitions

* `Config.forkEpoch`, `Config.forkSlot?`: the first epoch and the first slot of a phase.
* `Config.phaseAtEpoch`, `Config.phaseAtSlot`: the phase of an epoch and of a slot.

## Design notes

* **A fork that is not reached hides the ones after it.** Both readers of the schedule go through
  the phases in order and stop at the first that has not started, so an unordered schedule still has
  one meaning.
-/

namespace BeaconEpoch

/-- The phases that follow a phase, in order. -/
def Phase.later : Phase → List FlagPhase
  | .phase0 => [.altair, .bellatrix, .capella]
  | .altair => [.bellatrix, .capella]
  | .bellatrix => [.capella]
  | .capella => []

namespace Config

variable (config : Config)

/-- The first epoch of a phase. -/
def forkEpoch : Phase → Epoch
  | .phase0 => genesisEpoch
  | .altair => config.altairForkEpoch
  | .bellatrix => config.bellatrixForkEpoch
  | .capella => config.capellaForkEpoch

/-- The first slot of a phase, unless it lies beyond the last slot of all. -/
def forkSlot? (preset : Preset) (phase : Phase) : Option Slot :=
  let slot := (config.forkEpoch phase).toNat * preset.slotsPerEpoch.toNat
  if slot < 2 ^ 64 then some (UInt64.ofNat slot) else none

/-- The phase of an epoch: the last of the phases after Phase 0 that have started one after
another. -/
def phaseAtEpoch (epoch : Epoch) : Phase :=
  let started := [Phase.altair, .bellatrix, .capella].takeWhile (config.forkEpoch · ≤ epoch)
  started.getLast?.getD .phase0

/-- The phase of a slot: the last of all phases that have started one after another. -/
def phaseAtSlot (preset : Preset) (slot : Slot) : Phase :=
  let started := Phase.all.takeWhile fun phase => (config.forkSlot? preset phase).any (· ≤ slot)
  started.getLast?.getD .phase0

/-- The phase of the first epoch. -/
def genesisPhase : Phase := config.phaseAtEpoch genesisEpoch

theorem forkSlot?_eq_some_iff {preset : Preset} {phase : Phase} {slot : Slot} :
    config.forkSlot? preset phase = some slot ↔
      slot.toNat = (config.forkEpoch phase).toNat * preset.slotsPerEpoch.toNat := by
  unfold forkSlot?
  have := slot.toNat_lt
  constructor
  · intro h
    simp only at h
    split at h
    · cases h
      exact Word.toNat_ofNat (by assumption)
    · cases h
  · intro h
    simp only [← h]
    rw [if_pos this]
    simp

end Config

end BeaconEpoch
