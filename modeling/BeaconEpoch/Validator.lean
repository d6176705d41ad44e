import BeaconEpoch.Quantity

/-!
# Validators

## Main definitions

* `Validator`: an entry of the registry.
* `Validator.isActive`: whether a validator has duties in an epoch.
* `Gwei.increase`, `Gwei.decrease`: how a balance grows and shrinks.
-/

namespace BeaconEpoch

/-- An entry of the registry. -/
structure Validator where
  /-- The stake that rewards and votes are weighed by. -/
  effectiveBalance : Gwei
  /-- Whether the validator was caught breaking the rules. -/
  slashed : Bool
  /-- When the validator became eligible to be activated. -/
  activationEligibilityEpoch : Epoch
  /-- The first epoch with duties. -/
  activationEpoch : Epoch
  /-- The first epoch without duties again. -/
  exitEpoch : Epoch
  /-- The first epoch in which the stake may be withdrawn. -/
  withdrawableEpoch : Epoch
deriving DecidableEq, Repr, Inhabited

/-- Whether a validator has duties in an epoch: from its activation up to its exit. -/
def Validator.isActive (validator : Validator) (epoch : Epoch) : Bool :=
  validator.activationEpoch ≤ epoch && epoch < validator.exitEpoch

/-! ## Balances -/

namespace Gwei

/-- A balance with an amount added to it, which fails beyond the largest amount. -/
def increase (balance amount : Gwei) : Except Error Gwei :=
  if balance.toNat + amount.toNat < 2 ^ 64 then .ok (balance + amount) else .error .balanceOverflow

/-- A balance with an amount taken from it, down to zero. -/
def decrease (balance amount : Gwei) : Gwei := Word.subSat balance amount

@[simp] theorem toNat_decrease (balance amount : Gwei) :
    (decrease balance amount).toNat = balance.toNat - amount.toNat := Word.toNat_subSat ..

end Gwei

end BeaconEpoch
