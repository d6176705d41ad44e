import BeaconEpoch.Proofs.Range.Basic
import BeaconEpoch.Slashing
import Mathlib.Algebra.BigOperators.Fin
import Mathlib.Algebra.Order.BigOperators.Group.Finset
import Mathlib.Data.Nat.Sqrt

/-!
# Stake of sets of validators

Totals are found by folds over the registry and over records. What they come to is the stake of a
set of validators. The sweep over the registry is due to take a part of the stake of those who
were slashed.

## Main definitions

* `Chain.Member`: a validator of the registry, by its position.
* `Chain.stake`: the stake of some validators, at least one increment.
* `Chain.activeIn`, `Chain.eligible`: the validators with duties in an epoch, and those who are
  rewarded or penalized.
* `Chain.blankRecord`: the record of a validator before its votes are read.
* `Chain.Shows`: records of the registry.
* `Chain.recentlySlashed`, `Chain.sweepLoss`: what the sweep takes from a validator.
* `Chain.duePenalty`: the slashing penalty of a validator.

## Main statements

* `isqrt_eq_sqrt`: the integer square root is the one of the library.
* `Chain.totalActive_eq_stake`, `Chain.active_countVotes`: active stake.
* `Chain.Shows.attested_countVotes`: the stake behind a kind of vote is that of the unslashed
  validators whose records have it.

## Design notes

* **Arrays are functions of positions.** Each array of an epoch has one entry per validator and is
  computed position by position, so it is written as `Array.ofFn` of what it holds.
* **Sums are over positions.** Two validators of equal stake are two summands, so sets are sets of
  positions and not of entries.
-/

namespace BeaconEpoch

theorem isqrt_eq_sqrt (n : Nat) : isqrt n = Nat.sqrt n := Nat.eq_sqrt.mpr (isqrt_bounds n)

/-- A reading that every turn of a loop raises by an amount is raised by the sum of all amounts. -/
theorem reading_foldl {α γ : Type} {turn : γ → α → γ} (reading : γ → Nat) (amount : α → Nat)
    (each : ∀ state a, reading (turn state a) = reading state + amount a) (xs : Array α)
    (start : γ) :
    reading (xs.foldl turn start) = reading start + (xs.toList.map amount).sum := by
  rw [← Array.foldl_toList]
  induction xs.toList generalizing start with
  | nil => rfl
  | cons a list ih =>
    rw [List.foldl_cons, ih, each, List.map_cons, List.sum_cons, Nat.add_assoc]

/-! ## Arrays as functions of positions -/

section Positions

variable {α β γ : Type} {count : Nat}

theorem eq_ofFn_getD {xs : Array α} (size : xs.size = count) (default : α) :
    xs = Array.ofFn fun index : Fin count => xs.getD index default := by
  refine Array.ext (by simp [size]) fun index inside inside' => ?_
  simp [inside]

theorem zipWith_ofFn (f : α → β → γ) (a : Fin count → α) (b : Fin count → β) :
    (Array.ofFn a).zipWith f (Array.ofFn b) = Array.ofFn fun index => f (a index) (b index) :=
  Array.ext (by simp) fun index inside inside' => by simp

theorem map_eq_ofFn (f : α → β) (xs : Array α) :
    xs.map f = Array.ofFn fun index : Fin xs.size => f xs[index] := by
  refine Array.ext (by simp) fun index inside inside' => by simp

theorem zip_ofFn (a : Fin count → α) (b : Fin count → β) :
    (Array.ofFn a).zip (Array.ofFn b) = Array.ofFn fun index => (a index, b index) :=
  zipWith_ofFn Prod.mk a b

/-- A reading that some entries raise is raised by the sum of their amounts. -/
theorem reading_foldl_ofFn {turn : γ → α → γ} (reading : γ → Nat) {counts : α → Bool}
    {amount : α → Nat}
    (each : ∀ state a, reading (turn state a) = reading state + if counts a then amount a else 0)
    (entry : Fin count → α) (start : γ) :
    reading ((Array.ofFn entry).foldl turn start) =
      reading start + ∑ index with counts (entry index) = true, amount (entry index) := by
  rw [reading_foldl reading _ each, Array.toList_ofFn, List.map_ofFn, List.sum_ofFn,
    Finset.sum_filter]
  rfl

end Positions

/-! ## Sets of validators -/

namespace Chain

variable {preset : Preset} (chain : Chain preset)

/-- A validator of the registry, by its position. -/
abbrev Member := Fin chain.validators.size

/-- What the registry holds about a validator. -/
abbrev validatorAt (validator : chain.Member) : Validator := chain.validators[validator]

/-- The stake of one validator. -/
def stakeOf (validator : chain.Member) : Nat := chain.validators[validator].effectiveBalance.toNat

/-- The stake of some validators, at least one increment. -/
def stake (validators : Finset chain.Member) : GweiSum :=
  max preset.effectiveBalanceIncrement (∑ validator ∈ validators, chain.stakeOf validator)

/-- The validators with duties in an epoch. -/
def activeIn (epoch : Epoch) : Finset chain.Member :=
  {validator | chain.validators[validator].isActive epoch}

/-- The validators that are rewarded or penalized: those with duties in the previous epoch, and
those who are slashed and cannot leave yet. -/
def eligible : Finset chain.Member :=
  {validator | chain.validators[validator].isActive chain.previousEpoch ∨
    chain.validators[validator].slashed ∧
      chain.currentEpoch < chain.validators[validator].withdrawableEpoch}

/-- The record of a validator before its votes are read. It shows whether the validator may
withdraw by some epoch. -/
def blankRecord (withdrawal : Epoch) (score : InactivityScore) (validator : chain.Member) :
    Record :=
  Record.ofValidator chain.previousEpoch chain.currentEpoch
    (chain.validators[validator].withdrawableEpoch ≤ withdrawal) score chain.validators[validator]

variable {chain} {validator : chain.Member} {epoch : Epoch}

@[simp] theorem mem_activeIn :
    validator ∈ chain.activeIn epoch ↔ chain.validators[validator].isActive epoch = true := by
  simp [activeIn]

/-- A record shows who is eligible, if it shows who may withdraw by now. -/
theorem eligible_blankRecord (score : InactivityScore) :
    (chain.blankRecord chain.currentEpoch score validator).eligible =
      decide (validator ∈ chain.eligible) := by
  simp only [Record.eligible, blankRecord, Record.ofValidator, eligible, Finset.mem_filter,
    Finset.mem_univ, true_and, Bool.decide_or, Bool.decide_and, Bool.decide_eq_true,
    ← UInt64.not_le, decide_not]

theorem increment_le_stake (validators : Finset chain.Member) :
    preset.effectiveBalanceIncrement ≤ chain.stake validators := Nat.le_max_left ..

theorem stake_mono {validators others : Finset chain.Member} (part : validators ⊆ others) :
    chain.stake validators ≤ chain.stake others :=
  max_le_max le_rfl (Finset.sum_le_sum_of_subset part)

theorem stake_pos (validators : Finset chain.Member) : 0 < chain.stake validators :=
  Nat.lt_of_lt_of_le preset.increment_pos (increment_le_stake validators)

/-! ### Active stake -/

/-- The sum over the registry is one over the validators that count. -/
theorem sum_registry (counts : Validator → Bool) :
    (chain.validators.toList.map fun validator =>
        if counts validator then validator.effectiveBalance.toNat else 0).sum =
      ∑ validator : chain.Member with counts chain.validators[validator] = true,
        chain.stakeOf validator := by
  rw [Finset.sum_filter]
  exact (Fin.sum_univ_fun_getElem chain.validators.toList _).symm

/-- A fold over those with duties in an epoch adds up the stake of them all. -/
theorem foldl_active_eq_sum (chain : Chain preset) (epoch : Epoch) :
    (chain.validators.filter (·.isActive epoch)).foldl (· + ·.effectiveBalance.toNat) 0 =
      ∑ validator ∈ chain.activeIn epoch, chain.stakeOf validator := by
  let amount (validator : Validator) : Nat :=
    if validator.isActive epoch then validator.effectiveBalance.toNat else 0
  let turn (sum : Nat) (validator : Validator) : Nat :=
    if validator.isActive epoch then sum + validator.effectiveBalance.toNat else sum
  have each (sum : Nat) (validator : Validator) : turn sum validator = sum + amount validator := by
    simp only [turn, amount]
    split <;> rfl
  have total : chain.validators.foldl turn 0 = _ :=
    reading_foldl id amount each chain.validators 0
  simp only [id, Nat.zero_add, amount, sum_registry (·.isActive epoch)] at total
  rw [Array.foldl_filter]
  exact total

/-- The active stake is the stake of the active validators. -/
theorem totalActive_eq_stake (chain : Chain preset) (epoch : Epoch) :
    chain.totalActive epoch = chain.stake (chain.activeIn epoch) :=
  congrArg (max _) (chain.foldl_active_eq_sum epoch)

/-- No votes are counted before the books are opened. -/
theorem attested_activeTotals (chain : Chain preset) (category : Category) :
    chain.activeTotals.attested category = 0 :=
  Nat.le_zero.mp (chain.activeTotals_within.attested category)

end Chain

/-! ## Counted votes -/

namespace Totals

variable {preset : Preset} {phase : Phase} {totals counted : Totals}

/-- Totals that pass the check are the sums of the votes, with the floor of one increment. -/
theorem eq_of_countVotes {records : Array Record}
    (passed : totals.countVotes preset phase records = .ok counted) :
    counted = (totals.addVotes phase records).floor preset := by
  have same : Sound (fun _ => True) (· = (totals.addVotes phase records).floor preset)
      (totals.countVotes preset phase records) := by
    unfold countVotes checked
    split
    · exact .pure rfl
    · trivial
  exact same.met_of_eq_ok passed

theorem active_floor (totals : Totals) (epoch : AttestationEpoch) :
    (totals.floor preset).active epoch =
      max preset.effectiveBalanceIncrement (totals.active epoch) := by
  cases epoch <;> rfl

theorem attested_floor (totals : Totals) (category : Category) :
    (totals.floor preset).attested category =
      max preset.effectiveBalanceIncrement (totals.attested category) := by
  cases category <;> rfl

/-- Counting the records of a table adds up the effective balances of those that count towards a
category. -/
theorem attested_addVotes (totals : Totals) {count : Nat} (record : Fin count → Record)
    (category : Category) :
    (totals.addVotes phase (Array.ofFn record)).attested category =
      totals.attested category +
        ∑ index : Fin count with
            (!(record index).slashed && (record index).attested phase category) = true,
          (record index).effectiveBalance.toNat :=
  reading_foldl_ofFn (Totals.attested · category) (attested_addRecord phase · · category) record
    totals

end Totals

namespace Chain

variable {preset : Preset} {chain : Chain preset}

/-- Records of the registry: each one shows the stake of its validator. -/
def Shows (chain : Chain preset) (record : chain.Member → Record) : Prop :=
  ∀ validator,
    (record validator).effectiveBalance = chain.validators[validator].effectiveBalance

section Counted

variable {record : chain.Member → Record} {phase : Phase} {counted : Totals}

/-- Active stake is that of those with duties, whatever the votes are. -/
theorem active_countVotes {records : Array Record}
    (passed : chain.activeTotals.countVotes preset phase records = .ok counted)
    (epoch : AttestationEpoch) :
    counted.active epoch = chain.stake (chain.activeIn (chain.epochOf epoch.toRelative)) := by
  rw [Totals.eq_of_countVotes passed, ← totalActive_eq_stake, totalActive_epochOf,
    Totals.active_floor]
  cases epoch with
  | previous => exact congrArg (max _) (Totals.active_addVotes ..).2
  | current => exact congrArg (max _) (Totals.active_addVotes ..).1

/-- **A total is the stake of those whose vote counts.** -/
theorem Shows.attested_countVotes (shown : chain.Shows record)
    (passed : chain.activeTotals.countVotes preset phase (Array.ofFn record) = .ok counted)
    (category : Category) :
    counted.attested category =
      chain.stake {validator |
        !(record validator).slashed && (record validator).attested phase category} := by
  rw [Totals.eq_of_countVotes passed, Totals.attested_floor, Totals.attested_addVotes,
    attested_activeTotals, Nat.zero_add]
  refine congrArg (max _) (Finset.sum_congr rfl fun validator _ => ?_)
  rw [shown validator]
  rfl

end Counted

end Chain

/-! ## Slashing penalties -/

namespace Chain

variable {preset : Preset} (chain : Chain preset)

/-- The stake that was slashed recently. -/
def recentlySlashed : Nat := (chain.slashings.toList.map (·.toNat)).sum

/-- What the sweep takes from a validator: if a penalty is due, its stake times the slashed part of
all active stake, in whole increments. -/
def sweepLoss (active : GweiSum) (multiplier : Nat) (validator : Validator) : Nat :=
  if chain.slashingIsDue validator then
    validator.effectiveBalance.toNat / preset.effectiveBalanceIncrement *
      min (multiplier * chain.recentlySlashed) active / active * preset.effectiveBalanceIncrement
  else 0

/-- The slashing penalty of a validator, if one is due: what the sweep takes with the active stake
of the chain. -/
def duePenalty (phase : Phase) (validator : chain.Member) : Option Gwei :=
  if chain.slashingIsDue chain.validators[validator] then
    some (Word.saturate (chain.sweepLoss (chain.totalActive chain.currentEpoch)
      (preset.slashingMultiplier phase) chain.validators[validator]))
  else none

variable {chain}

theorem isSome_duePenalty {phase : Phase} {validator : chain.Member} :
    (chain.duePenalty phase validator).isSome =
      chain.slashingIsDue chain.validators[validator] := by
  unfold duePenalty
  split <;> simp_all

/-- The sweep takes the penalty of a validator, or nothing. -/
theorem getD_duePenalty (phase : Phase) (validator : chain.Member) :
    (chain.duePenalty phase validator).getD 0 =
      Word.saturate (chain.sweepLoss (chain.totalActive chain.currentEpoch)
        (preset.slashingMultiplier phase) chain.validators[validator]) := by
  unfold duePenalty
  split
  · rfl
  · rename_i notDue
    rw [sweepLoss, if_neg notDue]
    rfl

end Chain

end BeaconEpoch
