import BeaconEpoch.Cache

/-!
# Committees

The active validators of an epoch are shuffled and cut into slices, one per slot and committee
index.

## Main definitions

* `Preset.committeesPerSlot`: how many committees share a slot.
* `membersBetween`: a part of the shuffled validators.
* `Chain.committeeCount`, `Chain.committee`: the number of committees in the slots of an epoch, and
  the members of one.
* `AttestationData` and bits to voters: `Chain.attestingIndices`.
-/

namespace BeaconEpoch

/-- The number of committees that share a slot, given the number of active validators: as many as
have the target size, but at least one and at most the largest number. -/
def Preset.committeesPerSlot (preset : Preset) (activeCount : Nat) : Nat :=
  max 1 (min preset.maxCommitteesPerSlot
    (activeCount / preset.slotsPerEpoch.toNat / preset.targetCommitteeSize))

/-- The members whose bits are set. -/
def voters (bits : List Bool) (members : List ValidatorIndex) : List ValidatorIndex :=
  (bits.zip members).filterMap fun (present, index) => if present then some index else none

/-- The validators from one position of a shuffle up to another, as long as it reaches that far. -/
def membersBetween (indices : Array ValidatorIndex) (start stop : Nat) :
    Except Error (List ValidatorIndex) :=
  if start ≤ stop ∧ stop ≤ indices.size then .ok (indices.extract start stop).toList
  else .error .committeeIndexOutOfBounds

namespace Chain

variable {preset : Preset} (chain : Chain preset)

/-- The number of committees in each slot of an epoch. -/
def committeeCount (epoch : RelativeEpoch) : Lookup Nat := do
  let indices ← chain.lookupShuffled epoch
  return preset.committeesPerSlot indices.size

/-- The members of a committee: the slice of the shuffled validators that belongs to its slot and
index. -/
def committee (slot : Slot) (index : UInt64) : Lookup (List ValidatorIndex) := do
  let epoch ← chain.relativeEpoch (preset.epochAt slot)
  let perSlot ← chain.committeeCount epoch
  if index.toNat < perSlot then
    let indices ← chain.lookupShuffled epoch
    let perEpoch ← Word.checked (perSlot * preset.slotsPerEpoch.toNat)
    let position ← Word.checked ((preset.slotsSinceStart slot).toNat * perSlot + index.toNat)
    let following ← Word.checked (position.toNat + 1)
    let start ← Word.checked (indices.size * position.toNat)
    let stop ← Word.checked (indices.size * following.toNat)
    let start ← quotient start.toNat perEpoch.toNat
    let stop ← quotient stop.toNat perEpoch.toNat
    membersBetween indices start stop
  else
    throw .committeeIndexOutOfBounds

/-- The validators that take part in a vote: the members of its committee whose bits are set. -/
def attestingIndices (data : AttestationData) (bits : List Bool) :
    Lookup (List ValidatorIndex) := do
  let members ← chain.committee data.slot data.index
  if members.length = bits.length then
    return voters bits members
  else
    throw (.committeeLengthMismatch bits.length members.length)

end Chain

end BeaconEpoch
