import BeaconEpoch.Config.Basic
import BeaconEpoch.Tally.Basic

/-!
# Inactivity scores

How long each validator has been missing, counted up in epochs without its vote and down otherwise.

## Main definitions

* `Config.scoreOverflows`, `Config.nextScore`: the score of one validator after an epoch, and
  whether there is none.
* `Chain.nextScores`: the scores of all validators after an epoch.
* `withScores`: records that show given scores.
-/

namespace BeaconEpoch

/-- Whether an epoch counts against a validator: it missed the target, or it is slashed. -/
def Record.missedTarget (record : Record) : Bool :=
  !record.previousTargetAttester || record.slashed

/-- Whether the score of a record has to rise and cannot. -/
def Config.scoreOverflows (config : Config) (record : Record) : Bool :=
  record.eligible && record.missedTarget &&
    2 ^ 64 ≤ record.inactivityScore.toNat + config.scoreBias.val.toNat

/-- The score of a record after an epoch: one less for the right target, else more by the bias; and
outside of a leak less by the recovery rate. -/
def Config.nextScore (config : Config) (leaking : Bool) (record : Record) : InactivityScore :=
  let score :=
    if record.missedTarget then record.inactivityScore + config.scoreBias.val
    else Word.subSat record.inactivityScore 1
  if leaking then score else Word.subSat score config.scoreRecoveryRate

/-- A score that can rise where it has to does not outgrow its word. -/
theorem Config.toNat_nextScore {config : Config} {record : Record} (leaking : Bool)
    (eligible : record.eligible = true) (fits : ¬config.scoreOverflows record = true) :
    (config.nextScore leaking record).toNat =
      (if record.missedTarget then record.inactivityScore.toNat + config.scoreBias.val.toNat
        else record.inactivityScore.toNat - 1) -
        if leaking then 0 else config.scoreRecoveryRate.toNat := by
  simp only [scoreOverflows, eligible, Bool.true_and, Bool.and_eq_true, decide_eq_true_eq,
    not_and, Nat.not_le] at fits
  have raised : (if record.missedTarget then record.inactivityScore + config.scoreBias.val
      else Word.subSat record.inactivityScore 1).toNat =
        if record.missedTarget then record.inactivityScore.toNat + config.scoreBias.val.toNat
        else record.inactivityScore.toNat - 1 := by
    split
    · rw [UInt64.toNat_add]
      exact Nat.mod_eq_of_lt (fits ‹_›)
    · exact Word.toNat_subSat ..
  cases leaking with
  | true => exact raised
  | false => exact (Word.toNat_subSat ..).trans (congrArg (· - _) raised)

/-- The scores after an epoch; nothing in the first epoch. Those who are neither rewarded nor
penalized keep theirs. -/
def Chain.nextScores {preset : Preset} (chain : Chain preset) (config : Config)
    (scores : Array InactivityScore) (records : Array Record) :
    Except Error (Option (Array InactivityScore)) :=
  if !chain.isPastGenesis then .ok none
  else if records.size = scores.size then
    match records.findIdx? config.scoreOverflows with
    | some index => .error (.scoreOverflow index)
    | none => .ok (some (records.zipWith (fun record score =>
        if record.eligible then config.nextScore chain.isLeaking record else score) scores))
  else .error (.scoreCountMismatch records.size scores.size)

/-- The records with their scores replaced, if there are new ones. -/
def withScores (records : Array Record) : Option (Array InactivityScore) → Array Record
  | none => records
  | some scores =>
    records.zipWith (fun record score => { record with inactivityScore := score }) scores

end BeaconEpoch
