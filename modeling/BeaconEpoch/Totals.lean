import BeaconEpoch.Attestation
import BeaconEpoch.Preset
import BeaconEpoch.Record

/-!
# Totals

Sums of stake by duty and by kind of vote.

## Main definitions

* `Totals`: active stake of two epochs, and the stake behind each kind of vote.
* `Totals.addActive`, `Totals.addAttested`: one validator's stake added.
* `Totals.addVotes`: the stake of all unslashed voters added.
* `Totals.floor`: at least one increment everywhere.
* `Totals.checked`: the totals, if every one fits its sum.

## Design notes

* **Adding never fails; fitting is checked once.** A sum only grows, so it leaves its range on the
  way exactly if its end value does.
-/

namespace BeaconEpoch

/-- Sums of effective balances. -/
structure Totals where
  activeCurrent : GweiSum := 0
  activePrevious : GweiSum := 0
  currentAttested : GweiSum := 0
  currentTargetAttested : GweiSum := 0
  previousAttested : GweiSum := 0
  previousTargetAttested : GweiSum := 0
  previousHeadAttested : GweiSum := 0
deriving DecidableEq, Repr, Inhabited

namespace Totals

/-- Adds to the active stake of an epoch. -/
def addActive (totals : Totals) (epoch : AttestationEpoch) (amount : Gwei) : Totals :=
  match epoch with
  | .previous => { totals with activePrevious := totals.activePrevious + amount.toNat }
  | .current => { totals with activeCurrent := totals.activeCurrent + amount.toNat }

/-- Adds to the stake behind a kind of vote. -/
def addAttested (totals : Totals) (category : Category) (amount : Gwei) : Totals :=
  match category with
  | .currentEpoch => { totals with currentAttested := totals.currentAttested + amount.toNat }
  | .currentEpochTarget =>
    { totals with currentTargetAttested := totals.currentTargetAttested + amount.toNat }
  | .previousEpoch => { totals with previousAttested := totals.previousAttested + amount.toNat }
  | .previousEpochTarget =>
    { totals with previousTargetAttested := totals.previousTargetAttested + amount.toNat }
  | .previousEpochHead =>
    { totals with previousHeadAttested := totals.previousHeadAttested + amount.toNat }

/-- The stake behind a kind of vote. -/
def attested (totals : Totals) : Category → GweiSum
  | .currentEpoch => totals.currentAttested
  | .currentEpochTarget => totals.currentTargetAttested
  | .previousEpoch => totals.previousAttested
  | .previousEpochTarget => totals.previousTargetAttested
  | .previousEpochHead => totals.previousHeadAttested

/-- Every total raised to at least one increment, so that none of them is zero. -/
def floor (preset : Preset) (totals : Totals) : Totals :=
  let raise := max preset.effectiveBalanceIncrement
  { activeCurrent := raise totals.activeCurrent
    activePrevious := raise totals.activePrevious
    currentAttested := raise totals.currentAttested
    currentTargetAttested := raise totals.currentTargetAttested
    previousAttested := raise totals.previousAttested
    previousTargetAttested := raise totals.previousTargetAttested
    previousHeadAttested := raise totals.previousHeadAttested }

/-- Whether every total fits its sum. -/
def fits (totals : Totals) : Bool :=
  totals.activeCurrent < GweiSum.bound && totals.activePrevious < GweiSum.bound &&
    Category.all.all (totals.attested · < GweiSum.bound)

/-- The totals, if every one fits its sum. -/
def checked (totals : Totals) : Except Error Totals :=
  if totals.fits then .ok totals else .error .arithmeticOverflow

/-! ## Votes -/

/-- Adds the stake of a validator to every kind of vote that it counts for. Slashed validators count
for none. -/
def addRecord (phase : Phase) (totals : Totals) (record : Record) : Totals :=
  if record.slashed then totals
  else Category.all.foldl (fun totals category =>
    if record.attested phase category then totals.addAttested category record.effectiveBalance
    else totals) totals

/-- Adds the stake of all voters. -/
def addVotes (phase : Phase) (records : Array Record) (totals : Totals) : Totals :=
  records.foldl (addRecord phase) totals

/-- Adds the stake of all voters, and raises every total to at least one increment. -/
def countVotes (preset : Preset) (phase : Phase) (records : Array Record) (totals : Totals) :
    Except Error Totals := do
  let counted ← (totals.addVotes phase records).checked
  return counted.floor preset

end Totals

end BeaconEpoch
