import BeaconEpoch.Committee
import BeaconEpoch.State

/-!
# Upgrades

How a state enters the next phase.

## Main definitions

* `Chain.participationFlags`: the flags that an attestation earns its voters.
* `addFlags`: flags added to the entries of some voters.
* `PendingState.toFlags`: a state of Phase 0 as one of Altair.
* `BeaconState.upgrade`: a state in the phase that comes next.

## Design notes

* **Only votes for the previous epoch become flags.** At the first slot of an epoch there are no
  votes for the current one yet.
* **From Altair on** the phases differ in constants alone, so that an upgrade only renames.
-/

namespace BeaconEpoch

/-- The flags with more flags set for some voters, one after another. Every voter needs an entry. -/
def addFlags (earned : ParticipationFlags) (flags : Array ParticipationFlags)
    (voters : List ValidatorIndex) : Except Error (Array ParticipationFlags) :=
  voters.foldlM (fun flags voter =>
    if voter < flags.size then .ok (flags.modify voter (· ||| earned))
    else .error (.voterWithoutFlags voter)) flags

namespace Chain

variable {preset : Preset} (chain : Chain preset)

/-- The flags that an attestation earns its voters: for the source if it was included soon, for the
target if it is right and was included within an epoch, for the head if it is right too and was
included at once. -/
def participationFlags (data : AttestationData) (inclusionDelay : UInt64) :
    Except Error ParticipationFlags := do
  let epoch ← chain.attestationEpoch data.target.epoch
  let target ← chain.isBlockRoot epoch data.target.root
  let head ← checkIf target (chain.isBlockRootAtSlot data.slot data.beaconBlockRoot)
  let earn (earned : Bool) (index : Nat) : ParticipationFlags := if earned then flag index else 0
  return earn (inclusionDelay.toNat ≤ isqrt preset.slotsPerEpoch.toNat) timelySourceFlag |||
    earn (target && inclusionDelay ≤ preset.slotsPerEpoch) timelyTargetFlag |||
    earn (head && inclusionDelay == preset.minAttestationInclusionDelay) timelyHeadFlag

/-- The flags with those that an attestation earns its voters. -/
def creditAttestation (flags : Array ParticipationFlags) (attestation : PendingAttestation) :
    Lookup (Array ParticipationFlags) := do
  let voters ← chain.attestingIndices attestation.data attestation.aggregationBits
  let earned ← chain.participationFlags attestation.data attestation.inclusionDelay
  addFlags earned flags voters

/-- The flags that some attestations earn their voters, starting from none. -/
def creditAttestations (attestations : List PendingAttestation) :
    Lookup (Array ParticipationFlags) :=
  attestations.foldlM chain.creditAttestation (Array.replicate chain.validators.size 0)

end Chain

/-- A state of Phase 0 as one of Altair: its votes for the previous epoch become flags, and
everybody starts with a score of zero. -/
def PendingState.toFlags {preset : Preset} (state : PendingState preset) :
    Except Error (FlagState preset) :=
  let chain := state.chain
  match chain.creditAttestations state.votes.previous state.cache with
  | .ok previous cache =>
    let votes : FlagVotes := {
      previous
      current := Array.replicate chain.validators.size 0
      inactivityScores := Array.replicate chain.validators.size 0 }
    .ok { chain, votes, cache }
  | .error e _ => .error e

/-- A state in the phase that comes next. -/
def BeaconState.upgrade {preset : Preset} (next : FlagPhase) :
    BeaconState preset → Except Error (BeaconState preset)
  | .pending state => do return .flagged next (← state.toFlags)
  | .flagged _ state => .ok (.flagged next state)

end BeaconEpoch
