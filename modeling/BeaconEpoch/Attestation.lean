import BeaconEpoch.Quantity
import BeaconEpoch.Root

/-!
# Attestations

The votes of committees, and the flags that remain of them.

## Main definitions

* `Checkpoint`, `AttestationData`, `PendingAttestation`: a vote of some members of a committee, with
  the time of its inclusion.
* `ParticipationFlags`, `hasFlag`, `flag`: what is remembered of the votes of one validator.
* `AttestationEpoch`, `RelativeEpoch`: the epochs that votes and caches speak of.
-/

namespace BeaconEpoch

/-- The block at the start of an epoch. -/
structure Checkpoint where
  epoch : Epoch
  root : Root
deriving DecidableEq, Inhabited

/-- What a committee votes for. -/
structure AttestationData where
  /-- The slot of the vote. -/
  slot : Slot
  /-- Which committee of the slot votes. -/
  index : UInt64
  /-- The head of the chain. -/
  beaconBlockRoot : Root
  /-- The checkpoint that the vote builds on. -/
  source : Checkpoint
  /-- The checkpoint that the vote is for. -/
  target : Checkpoint
deriving DecidableEq, Inhabited

/-- A vote that was included in a block. -/
structure PendingAttestation where
  /-- One bit per member of the committee: whether it takes part. -/
  aggregationBits : List Bool
  /-- Where in its first byte the first of these bits stands when they are written down. -/
  firstBit : Fin 8 := 0
  /-- What is voted for. -/
  data : AttestationData
  /-- The number of slots between the vote and its inclusion. -/
  inclusionDelay : UInt64
  /-- The validator whose block included the vote, as claimed. -/
  proposerIndex : UInt64
deriving DecidableEq, Inhabited

/-! ## Flags -/

/-- What is remembered of the votes of a validator in an epoch: a bit per flag. -/
abbrev ParticipationFlags := UInt8

/-- Whether the flag at a position is set. -/
def hasFlag (flags : ParticipationFlags) (index : Nat) : Bool := flags.toNat.testBit index

/-- Whether the flag at a position is set; only the positions 0 to 7 hold flags. -/
def flagAt (flags : ParticipationFlags) (index : Nat) : Except Error Bool :=
  if index < 8 then .ok (hasFlag flags index) else .error .arithmeticOverflow

/-- The flags with a single one set. -/
def flag (index : Nat) : ParticipationFlags := UInt8.ofNat (2 ^ index)

/-! ## Epochs -/

/-- The epochs whose votes still count. -/
inductive AttestationEpoch
  | previous
  | current
deriving DecidableEq, Repr, Inhabited

/-- The epochs around that of a state. -/
inductive RelativeEpoch
  | previous
  | current
  | next
deriving DecidableEq, Repr, Inhabited

/-- An epoch whose votes still count, seen from the state. -/
def AttestationEpoch.toRelative : AttestationEpoch → RelativeEpoch
  | previous => .previous
  | current => .current

end BeaconEpoch
