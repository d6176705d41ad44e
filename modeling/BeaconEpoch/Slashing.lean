import BeaconEpoch.Chain

/-!
# Slashing penalties

Halfway through their withdrawal delay slashed validators lose a part of their stake that depends on
how much stake was slashed around the same time.

## Main definitions

* `Chain.slashingIsDue`: whether a validator is penalized in the current epoch.
* `Preset.slashingPenalty`: what it loses.
* `PenaltyLog`: how penalties are collected.
* `Chain.slash`: the sweep over the registry.
-/

namespace BeaconEpoch

/-- What a validator loses: its stake times the slashed part of all active stake, in whole
increments. -/
def Preset.slashingPenalty (preset : Preset) (active slashedStake : GweiSum)
    (validator : Validator) : Except Error Gwei := do
  let increment := preset.effectiveBalanceIncrement
  let numerator ←
    GweiSum.checked (validator.effectiveBalance.toNat / increment * slashedStake)
  let penalty ← GweiSum.checked (numerator / active * increment)
  return Word.saturate penalty

/-- A way of collecting penalties. -/
structure PenaltyLog (Log : Type) where
  /-- The log without penalties. -/
  empty : Log
  /-- The log with the penalty of one more validator. -/
  add : Log → ValidatorIndex → Gwei → Log

namespace PenaltyLog

/-- Keeps nothing. -/
def discard : PenaltyLog Unit := ⟨(), fun _ _ _ => ()⟩

/-- Keeps each validator with its penalty, in the order of the registry. -/
def keep : PenaltyLog (Array (ValidatorIndex × Gwei)) :=
  ⟨#[], fun log index penalty => log.push (index, penalty)⟩

end PenaltyLog

namespace Chain

variable {preset : Preset} (chain : Chain preset)

/-- Whether a validator is penalized in the current epoch: it is slashed, and half of the delay lies
behind it. -/
def slashingIsDue (validator : Validator) : Bool :=
  validator.slashed && validator.withdrawableEpoch ==
    Word.addSat chain.currentEpoch (preset.epochsPerSlashingsVector / 2)

/-- The slashed stake that counts: the recently slashed amounts, weighed by a multiplier, at most
all active stake. -/
def slashedStake (active : GweiSum) (multiplier : Nat) : Except Error GweiSum := do
  let slashed ← GweiSum.checked (chain.slashings.foldl (· + ·.toNat) 0)
  return min (GweiSum.saturate (slashed * multiplier)) active

/-- The penalty of each validator, if one is due. -/
def slashingPenalties (active : GweiSum) (multiplier : Nat) :
    Except Error (Array (Option Gwei)) :=
  if chain.validators.any chain.slashingIsDue then do
    let slashedStake ← chain.slashedStake active multiplier
    chain.validators.mapM fun validator =>
      if chain.slashingIsDue validator then
        some <$> preset.slashingPenalty active slashedStake validator
      else .ok none
  else .ok (chain.validators.map fun _ => none)

/-- Takes all penalties that are due from the balances, and collects them. -/
def slash {Log : Type} (log : PenaltyLog Log) (active : GweiSum) (multiplier : Nat) :
    Except Error (Chain preset × Log) :=
  if chain.validators.size = chain.balances.size then do
    let penalties ← chain.slashingPenalties active multiplier
    let balances := chain.balances.zipWith (fun balance penalty =>
      Gwei.decrease balance (penalty.getD 0)) penalties
    let collected := penalties.zipIdx.foldl (fun collected (penalty, index) =>
      match penalty with
      | some penalty => log.add collected index penalty
      | none => collected) log.empty
    return ({ chain with balances }, collected)
  else .error (.balanceCountMismatch chain.validators.size chain.balances.size)

end Chain

end BeaconEpoch
