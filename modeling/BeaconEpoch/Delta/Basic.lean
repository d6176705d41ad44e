import BeaconEpoch.Tally.Basic

/-!
# Deltas

What an epoch gives to a validator and what it takes, and how the balances of all validators are
settled.

## Main definitions

* `Delta`: a reward and a penalty.
* `Delta.apply`: a balance after both.
* `Books`: a chain and the records of its validators.
* `noteBalances`: balances before and after, entered into the records.
* `Books.settle`: all deltas applied, or none.

## Design notes

* **All balances or none.** Settling stops at the first reward that does not fit and writes no
  balance; the records show how far it came.
-/

namespace BeaconEpoch

/-- A reward and a penalty. -/
structure Delta where
  reward : Gwei := 0
  penalty : Gwei := 0
deriving DecidableEq, Repr, Inhabited

namespace Delta

/-- Whether the reward fits on top of a balance. -/
def fits (delta : Delta) (balance : Gwei) : Bool := balance.toNat + delta.reward.toNat < 2 ^ 64

/-- A balance after a reward that fits, and then the penalty, down to zero. -/
def apply (delta : Delta) (balance : Gwei) : Gwei :=
  Gwei.decrease (balance + delta.reward) delta.penalty

theorem toNat_apply {delta : Delta} {balance : Gwei} (fits : delta.fits balance = true) :
    (delta.apply balance).toNat =
      balance.toNat + delta.reward.toNat - delta.penalty.toNat := by
  simp only [Delta.fits, decide_eq_true_eq] at fits
  rw [apply, Gwei.toNat_decrease, UInt64.toNat_add, Nat.mod_eq_of_lt fits]

end Delta

/-- A chain and the records of its validators. -/
structure Books (preset : Preset) where
  chain : Chain preset
  records : Array Record

/-- The records with the balances before and after their deltas noted. Of the record that is reached
and not passed only the balance before is known. -/
def noteBalances (records : Array Record) (changes : Array (Gwei × Delta)) (reached : Nat) :
    Array Record :=
  (records.zip changes).mapIdx fun index (record, balance, delta) =>
    if index < reached then
      { record with balanceBefore := balance, balanceAfter := delta.apply balance }
    else if index = reached then { record with balanceBefore := balance }
    else record

/-- Applies one delta to every balance and notes the balances before and after in the records. In
the first epoch there is nothing to settle. New balances are copied over the old ones, of which
there have to be as many. -/
def Books.settle {preset : Preset} (deltas : Array Delta) : Step (Books preset) Unit := fun books =>
  let chain := books.chain
  let count := books.records.size
  if count = chain.validators.size ∧ count = chain.balances.size ∧ count = deltas.size then
    if chain.isPastGenesis then
      let changes := chain.balances.zip deltas
      match changes.findIdx? fun (balance, delta) => !delta.fits balance with
      | none =>
        let records := noteBalances books.records changes count
        let balances := changes.map fun (balance, delta) => delta.apply balance
        if balances.size = chain.balances.size then
          .ok () { chain := { chain with balances }, records }
        else .error .arithmeticOverflow { chain, records }
      | some failure =>
        .error .balanceOverflow
          { chain, records := noteBalances books.records changes failure }
    else .ok () books
  else
    .error (.registryLengthMismatch count chain.validators.size chain.balances.size deltas.size)
      books

end BeaconEpoch
