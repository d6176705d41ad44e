import BeaconEpoch.Tally.Basic

/-!
# Counting flags

What participation flags say about their validators.

## Main definitions

* `Record.readFlags`: a record with the flags of its validator entered.
* `countFlags`: all flags of two epochs.
* `Chain.unrealizedTotals`: the stake behind the targets, if the epoch ended now.
-/

namespace BeaconEpoch

/-- A record with the flags of its validator entered. Flags for an epoch without duties are ignored;
a vote for the right target is a vote, whatever its source. -/
def Record.readFlags (record : Record) (previous current : ParticipationFlags) : Record :=
  let previousHas flag := record.activePrevious && hasFlag previous flag
  let currentHas flag := record.activeCurrent && hasFlag current flag
  { record with
    currentAttester :=
      record.currentAttester || currentHas timelySourceFlag || currentHas timelyTargetFlag
    currentTargetAttester := record.currentTargetAttester || currentHas timelyTargetFlag
    previousAttester :=
      record.previousAttester || previousHas timelySourceFlag || previousHas timelyTargetFlag
    previousSourceAttester := record.previousSourceAttester || previousHas timelySourceFlag
    previousTargetAttester := record.previousTargetAttester || previousHas timelyTargetFlag
    previousHeadAttester := record.previousHeadAttester || previousHas timelyHeadFlag }

/-- The tally with all flags entered. -/
def countFlags (preset : Preset) (phase : Phase) (votes : FlagVotes) (tally : Tally) :
    Except Error Tally :=
  let count := tally.records.size
  if votes.previous.size = count ∧ votes.current.size = count then do
    let records := tally.records.zipWith (fun record (previous, current) =>
      record.readFlags previous current) (votes.previous.zip votes.current)
    let totals ← tally.totals.countVotes preset phase records
    return { records, totals }
  else
    .error (.participationCountMismatch count votes.previous.size votes.current.size)

/-- The stake behind the targets of both epochs, and the active stake, if the epoch ended now. Only
validators count that are active now and not slashed. Flags beyond the registry are ignored. -/
def Chain.unrealizedTotals {preset : Preset} (chain : Chain preset) (votes : FlagVotes) :
    Except Error Totals :=
  let count := chain.validators.size
  if count ≤ votes.previous.size ∧ count ≤ votes.current.size then do
    let totals := (chain.validators.zip (votes.previous.zip votes.current)).foldl
      (fun (totals : Totals) (validator, previous, current) =>
        if validator.slashed || !validator.isActive chain.currentEpoch then totals
        else
          let amount := validator.effectiveBalance
          let totals := totals.addActive .current amount
          let totals :=
            if hasFlag previous timelyTargetFlag then
              totals.addAttested .previousEpochTarget amount
            else totals
          if hasFlag current timelyTargetFlag then totals.addAttested .currentEpochTarget amount
          else totals) {}
    return (← totals.checked).floor preset
  else
    .error (.participationCountMismatch count votes.previous.size votes.current.size)

end BeaconEpoch
