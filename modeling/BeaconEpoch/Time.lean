import BeaconEpoch.Preset

/-!
# Slots and epochs

How slots make up epochs.

## Main definitions

* `Preset.epochAt`, `Preset.startSlot`: the epoch of a slot, and the first slot of an epoch.
* `Preset.slotsSinceStart`, `Preset.isEpochStart`, `Preset.isEpochEnd`: where in its epoch a slot
  lies.
-/

namespace BeaconEpoch.Preset

variable (preset : Preset)

/-- The epoch that a slot lies in. -/
def epochAt (slot : Slot) : Epoch := slot / preset.slotsPerEpoch

/-- The first slot of an epoch, or the last slot of all if the epoch starts later. -/
def startSlot (epoch : Epoch) : Slot := Word.mulSat epoch preset.slotsPerEpoch

/-- The number of slots of the epoch that lie before a slot. -/
def slotsSinceStart (slot : Slot) : UInt64 := slot % preset.slotsPerEpoch

/-- Whether a slot is the first of its epoch. -/
def isEpochStart (slot : Slot) : Bool := preset.slotsSinceStart slot == 0

/-- Whether a slot is the last of its epoch. The last slot of all has no successor to tell. -/
def isEpochEnd (slot : Slot) : Except Error Bool := do
  let next ← Word.checked (slot.toNat + 1)
  return preset.isEpochStart next

theorem slotsPerEpoch_pos : 0 < preset.slotsPerEpoch.toNat := by cases preset <;> decide

@[simp] theorem toNat_epochAt (slot : Slot) :
    (preset.epochAt slot).toNat = slot.toNat / preset.slotsPerEpoch.toNat :=
  UInt64.toNat_div ..

@[simp] theorem toNat_startSlot (epoch : Epoch) :
    (preset.startSlot epoch).toNat =
      min (epoch.toNat * preset.slotsPerEpoch.toNat) (2 ^ 64 - 1) :=
  Word.toNat_mulSat ..

theorem isEpochStart_iff {slot : Slot} :
    preset.isEpochStart slot = true ↔ slot.toNat % preset.slotsPerEpoch.toNat = 0 := by
  rw [isEpochStart, slotsSinceStart, beq_iff_eq, ← UInt64.toNat_inj]
  simp

end BeaconEpoch.Preset
