import BeaconEpoch.Proofs.Sound
import BeaconEpoch.Proofs.Totals
import Mathlib.Algebra.Order.BigOperators.Group.List
import Mathlib.Algebra.Order.Group.Nat

/-!
# Ranges

How large the numbers of accounting get, and which checks of its own a computation therefore passes.

## Main definitions

* `Error.AccusesInput`: an error other than a failed check of accounting on itself.
* `Chain.Bounded`: a registry of fewer than `2 ^ 25` validators.
* `stakeBound`: no sum of stake exceeds this.
* `Totals.Bounded`: totals as they are counted from such a registry.

## Main statements

* `Word.checked_sound`, `Word.difference_sound`, `GweiSum.checked_sound`, `quotient_sound`: a value
  that fits is found.
* `Preset.increments_mul_lt`: stake counted in increments is so much smaller that a product with any
  weight is a word.
* `Chain.countVotes_sound`: counted totals are bounded.

## Design notes

* **Where the number of validators comes from.** The largest product of an epoch is a base reward
  times a weight times increments of stake. With `2 ^ 25` validators of the largest effective
  balance it stays just below `2 ^ 128`; this is what the bound is made for.
-/

namespace BeaconEpoch

/-- The error is not a failed check of accounting on itself. -/
def Error.AccusesInput (e : Error) : Prop := e ≠ .arithmeticOverflow

/-! ## Values that fit -/

section Fitting

variable {allowed : Error → Prop}

/-- A number below `2 ^ 64` becomes the word that it is. -/
theorem Word.checked_sound {n : Nat} (fits : n < 2 ^ 64) :
    Sound allowed (·.toNat = n) (checked n) := by
  unfold checked
  rw [if_pos fits]
  exact toNat_ofNat fits

theorem Word.difference_sound {a b : UInt64} (le : b ≤ a) :
    Sound allowed (·.toNat = a.toNat - b.toNat) (difference a b) := by
  rw [difference_eq_ok le]
  exact UInt64.toNat_sub_of_le a b le

/-- The same for sums of 128 bits. -/
theorem GweiSum.checked_sound {n : Nat} (fits : n < bound) :
    Sound allowed (· = n) (checked n) := by
  unfold checked
  rw [if_pos fits]
  rfl

theorem GweiSum.checked_gives (n : Nat) : Gives n (checked n) := by
  unfold checked
  split <;> trivial

theorem quotient_sound {n divisor : Nat} (nonzero : divisor ≠ 0) :
    Sound allowed (· = n / divisor) (quotient n divisor) := by
  unfold quotient
  rw [if_neg nonzero]
  rfl

theorem quotient_gives (n divisor : Nat) : Gives (n / divisor) (quotient n divisor) := by
  unfold quotient
  split <;> trivial

end Fitting

/-! ## Amounts -/

theorem sum_le_length_mul {list : List Nat} {bound : Nat} (each : ∀ n ∈ list, n ≤ bound) :
    list.sum ≤ list.length * bound :=
  List.sum_le_card_nsmul list bound each

theorem Word.saturate_le_saturate {n m : Nat} (le : n ≤ m) : saturate n ≤ saturate m := by
  rw [UInt64.le_iff_toNat_le, toNat_saturate, toNat_saturate]
  omega

/-- No sum of stake exceeds this: the stake of `2 ^ 25` validators. -/
def stakeBound : Nat := 2 ^ 25 * 2 ^ 64

theorem stakeBound_lt : stakeBound < GweiSum.bound := by decide

namespace Preset

variable (preset : Preset)

theorem increment_pos : 0 < preset.effectiveBalanceIncrement := by cases preset <;> decide

theorem increment_le_stakeBound : preset.effectiveBalanceIncrement ≤ stakeBound := by
  cases preset <;> decide

/-- The weight of a flag, times stake counted in increments, is a word. -/
theorem increments_mul_lt {weight stake : Nat} (light : weight ≤ 26) (small : stake ≤ stakeBound) :
    weight * (stake / preset.effectiveBalanceIncrement) < 2 ^ 64 :=
  calc
    _ ≤ 26 * (stakeBound / preset.effectiveBalanceIncrement) :=
      Nat.mul_le_mul light (Nat.div_le_div_right small)
    _ < 2 ^ 64 := by cases preset <;> decide

/-- Stake counted in increments is a word. -/
theorem increments_lt {stake : Nat} (small : stake ≤ stakeBound) :
    stake / preset.effectiveBalanceIncrement < 2 ^ 64 := by
  have product := preset.increments_mul_lt (show 1 ≤ 26 by decide) small
  rwa [Nat.one_mul] at product

/-- One effective balance has fewer than `2 ^ 36` increments. -/
theorem wholeIncrements_lt (balance : Gwei) :
    balance.toNat / preset.effectiveBalanceIncrement < 2 ^ 36 :=
  calc
    _ ≤ 2 ^ 64 / preset.effectiveBalanceIncrement :=
      Nat.div_le_div_right (Nat.le_of_lt balance.toNat_lt)
    _ < 2 ^ 36 := by cases preset <;> decide

end Preset

/-! ## Registries -/

/-- A chain with fewer than `2 ^ 25` validators. Its list of slashed amounts is as long as a list
can be whose length is a word. -/
structure Chain.Bounded {preset : Preset} (chain : Chain preset) : Prop where
  validators : chain.validators.size < 2 ^ 25
  slashings : chain.slashings.size < 2 ^ 64

/-- Totals that lie between one increment and the stake of all validators. -/
structure Totals.Bounded (preset : Preset) (totals : Totals) : Prop where
  within : totals.Within stakeBound stakeBound
  increment_le : preset.effectiveBalanceIncrement ≤ totals.activeCurrent

namespace Chain

variable {preset : Preset} {chain : Chain preset}

/-- All effective balances together stay within the bound, were they as large as words can be. -/
theorem Bounded.stake_le (bounded : chain.Bounded) :
    chain.validators.size * 2 ^ 64 ≤ stakeBound :=
  Nat.mul_le_mul_right _ (Nat.le_of_lt bounded.validators)

theorem Bounded.few (bounded : chain.Bounded) : chain.validators.size < 2 ^ 64 :=
  Nat.lt_trans bounded.validators (by decide)

/-- Votes are counted on one record per validator, so no total can grow beyond the stake of all. -/
theorem countVotes_sound {allowed : Error → Prop} (bounded : chain.Bounded) (phase : Phase)
    {records : Array Record} (size : records.size = chain.validators.size) :
    Sound allowed (Totals.Bounded preset)
      (chain.activeTotals.countVotes preset phase records) := by
  have voted : 0 + records.size * 2 ^ 64 ≤ stakeBound := by
    rw [size, Nat.zero_add]
    exact bounded.stake_le
  have within := (chain.activeTotals_within.addVotes phase records).mono bounded.stake_le voted
  rw [countVotes_fit bounded.few phase size]
  exact ⟨within.floor preset.increment_le_stakeBound, Nat.le_max_left ..⟩

/-- So does the active stake, with its floor of one increment. -/
theorem totalActive_le (bounded : chain.Bounded) :
    chain.totalActive chain.currentEpoch ≤ stakeBound := by
  rw [totalActive_currentEpoch]
  exact Nat.max_le.mpr ⟨preset.increment_le_stakeBound,
    Nat.le_trans chain.activeTotals_within.activeCurrent bounded.stake_le⟩

end Chain

end BeaconEpoch
