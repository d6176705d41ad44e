import BeaconEpoch.Tally.Basic

/-!
# Counting attestations

What pending attestations say about their voters.

## Main definitions

* `Marks`: what one attestation is worth.
* `Chain.marks`: the worth of an attestation, by its target and head.
* `Record.mark`, `markVoters`: an attestation entered for one voter and for several.
* `Chain.enterAttestation`: one attestation entered into the records of all its voters.
* `Chain.countAttestations`: all attestations of two epochs.

## Design notes

* **Roots are looked up only where they matter.** The root of an epoch is needed by the attestations
  that target it, and the root of a slot by those whose target is right.
* **The earliest inclusion wins.** Of two attestations included at the same slot the first one
  counts.
-/

namespace BeaconEpoch

/-- What one attestation is worth to its voters. -/
structure Marks where
  /-- It targets the current epoch. -/
  current : Bool
  /-- It targets the current epoch, and the right block. -/
  currentTarget : Bool
  /-- It targets the previous epoch. -/
  previous : Bool
  /-- It targets the previous epoch, and the right block. -/
  previousTarget : Bool
  /-- Besides, it names the right head. -/
  previousHead : Bool
deriving DecidableEq, Repr

/-- The slot at which an attestation was included. -/
def PendingAttestation.inclusionSlot (attestation : PendingAttestation) : Slot :=
  Word.addSat attestation.data.slot attestation.inclusionDelay

/-- A voter's record with an attestation entered. -/
def Record.mark (marks : Marks) (attestation : PendingAttestation) (record : Record) : Record :=
  let record := { record with
    currentAttester := record.currentAttester || marks.current
    currentTargetAttester := record.currentTargetAttester || marks.currentTarget
    previousAttester := record.previousAttester || marks.previous
    previousTargetAttester := record.previousTargetAttester || marks.previousTarget
    previousHeadAttester := record.previousHeadAttester || marks.previousHead }
  if marks.previous && attestation.inclusionSlot < record.inclusionSlot then
    { record with
      inclusionSlot := attestation.inclusionSlot
      inclusionDistance := attestation.inclusionDelay
      proposerIndex := attestation.proposerIndex }
  else record

/-- The records with an attestation entered for one voter. -/
def markVoter (marks : Marks) (attestation : PendingAttestation) (records : Array Record)
    (voter : ValidatorIndex) : Except Error (Array Record) :=
  if voter < records.size then .ok (records.modify voter (Record.mark marks attestation))
  else .error (.voterWithoutRecord voter)

/-- The records with an attestation entered for some voters, one after another. -/
def markVoters (marks : Marks) (attestation : PendingAttestation) (records : Array Record)
    (voters : List ValidatorIndex) : Except Error (Array Record) :=
  voters.foldlM (markVoter marks attestation) records

namespace Chain

variable {preset : Preset} (chain : Chain preset)

/-- What an attestation is worth. -/
def marks (attestation : PendingAttestation) : Except Error Marks := do
  let data := attestation.data
  if attestation.inclusionDelay = 0 then
    throw .inclusionDelayZero
  else
    let current := data.target.epoch == chain.currentEpoch
    let currentTarget ← checkIf current (chain.isBlockRoot .current data.target.root)
    let previous := data.target.epoch == chain.previousEpoch
    let previousTarget ← checkIf previous (chain.isBlockRoot .previous data.target.root)
    let previousHead ←
      checkIf previousTarget (chain.isBlockRootAtSlot data.slot data.beaconBlockRoot)
    return { current, currentTarget, previous, previousTarget, previousHead }

/-- The records with an attestation entered for all its voters. -/
def enterAttestation (records : Array Record) (attestation : PendingAttestation) :
    Lookup (Array Record) := do
  let marks ← chain.marks attestation
  let voters ← chain.attestingIndices attestation.data attestation.aggregationBits
  markVoters marks attestation records voters

/-- The tally with all attestations entered, those of the previous epoch first. -/
def countAttestations (votes : PendingVotes) (tally : Tally) : Lookup Tally := do
  let records ← (votes.previous ++ votes.current).foldlM chain.enterAttestation tally.records
  let totals ← tally.totals.countVotes preset .phase0 records
  return { records, totals }

end Chain

end BeaconEpoch
