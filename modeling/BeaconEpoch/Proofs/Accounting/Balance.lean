import BeaconEpoch.Proofs.Accounting.Stake
import BeaconEpoch.Proofs.Epoch

/-!
# Balances after an epoch

An epoch gives and takes what its deltas say, and then takes what the sweep over the registry finds
due. Both are functions of the position of a validator.

## Main definitions

* `Chain.balanceOf`: the balance of a validator.
* `Chain.balanceAfter`: a balance after an epoch, given what the deltas say.

## Main statements

* `Books.settle_ofFn`: rewards and penalties.
* `Chain.slash_ofFn`: the sweep.
* `State.balances_conclude`: both, one after the other.

## Design notes

* **Success is the only assumption.** A sum that does not fit fails an epoch, so one that was found
  is exact. Nothing has to be known of the size of a registry.
-/

namespace BeaconEpoch

/-! ## Balances -/

namespace Chain

variable {preset : Preset} (chain : Chain preset)

/-- The balance of a validator. -/
def balanceOf (validator : chain.Member) : Gwei := chain.balances.getD validator 0

variable {chain}

theorem balances_eq_ofFn (size : chain.balances.size = chain.validators.size) :
    chain.balances = Array.ofFn chain.balanceOf := eq_ofFn_getD size 0

end Chain

/-! ## Rewards and penalties -/

/-- Past the first epoch every balance has room for its reward, and gets its delta. -/
theorem Books.settle_ofFn {preset : Preset} {books final : Books preset} {count : Nat}
    {balance : Fin count → Gwei} {delta : Fin count → Delta}
    (settled : Books.settle (Array.ofFn delta) books = .ok () final)
    (balances : books.chain.balances = Array.ofFn balance)
    (past : books.chain.isPastGenesis = true) :
    (∀ index, (delta index).fits (balance index) = true) ∧
      final.chain = { books.chain with
        balances := Array.ofFn fun index => (delta index).apply (balance index) } := by
  simp only [Books.settle, balances, zip_ofFn, past, if_true] at settled
  split at settled
  · split at settled
    · rename_i none_fails
      split at settled
      · cases settled
        refine ⟨fun index => ?_, ?_⟩
        · have fits := Array.findIdx?_eq_none_iff.mp none_fails _ (Array.mem_ofFn.mpr ⟨index, rfl⟩)
          simpa using fits
        · rw [Array.map_ofFn]
          rfl
      · cases settled
    · cases settled
  · cases settled

/-! ## The sweep -/

namespace Chain

variable {preset : Preset} {chain : Chain preset} {active : GweiSum} {multiplier : Nat}

theorem slashedStake_gives (fits : active < GweiSum.bound) :
    Gives (min (multiplier * chain.recentlySlashed) active)
      (chain.slashedStake active multiplier) := by
  refine (GweiSum.checked_gives _).bind (Sound.pure ?_)
  have sum := reading_foldl id (·.toNat) (fun _ _ => rfl) chain.slashings 0
  simp only [id, Nat.zero_add] at sum
  -- the active stake is a sum, so being the smaller one it hides where the product saturates
  rw [GweiSum.saturate, sum, Nat.mul_comm]
  show min (min _ _) _ = min (_ * recentlySlashed chain) _
  have below : active ≤ GweiSum.bound - 1 := Nat.le_pred_of_lt fits
  rw [Nat.min_assoc, Nat.min_eq_right below]
  rfl

end Chain

/-- A part of the active stake, divided by the active stake, cancels. -/
theorem wholeIncrements_part_le (stake increment : Nat) {part active : Nat}
    (small : part ≤ active) : stake / increment * part / active * increment ≤ stake := by
  have cancelled : stake / increment * part / active ≤ stake / increment := by
    refine Nat.div_le_of_le_mul ?_
    rw [Nat.mul_comm active]
    exact Nat.mul_le_mul_left _ small
  exact Nat.le_trans (Nat.mul_le_mul_right _ cancelled) (Nat.div_mul_le_self ..)

theorem Preset.slashingPenalty_gives (preset : Preset) (active part : GweiSum)
    (validator : Validator) :
    Gives (Word.saturate (validator.effectiveBalance.toNat / preset.effectiveBalanceIncrement *
      part / active * preset.effectiveBalanceIncrement))
      (preset.slashingPenalty active part validator) :=
  (GweiSum.checked_gives _).bind ((GweiSum.checked_gives _).bind (.pure rfl))

namespace Chain

variable {preset : Preset} {chain other : Chain preset} {active : GweiSum} {multiplier : Nat}

/-- Nobody loses more than its stake. -/
theorem sweepLoss_le (validator : Validator) :
    chain.sweepLoss active multiplier validator ≤ validator.effectiveBalance.toNat := by
  unfold sweepLoss
  split
  · exact wholeIncrements_part_le _ _ (Nat.min_le_right ..)
  · exact Nat.zero_le _

theorem toNat_saturate_sweepLoss (validator : Validator) :
    (Word.saturate (chain.sweepLoss active multiplier validator)).toNat =
      chain.sweepLoss active multiplier validator := by
  have least : chain.sweepLoss active multiplier validator ≤ _ := sweepLoss_le validator
  have stake := validator.effectiveBalance.toNat_lt
  rw [Word.toNat_saturate]
  omega

/-- Where no penalty is due the sweep does not look at the slashed stake, which changes nothing. -/
theorem slashingPenalties_gives (fits : active < GweiSum.bound) :
    Gives (chain.validators.map fun validator =>
        if chain.slashingIsDue validator then
          some (Word.saturate (chain.sweepLoss active multiplier validator))
        else none)
      (chain.slashingPenalties active multiplier) := by
  unfold slashingPenalties
  split
  · refine (slashedStake_gives fits).bind (Gives.mapM _ _ fun validator _ => ?_)
    refine .ite (fun due => ?_) fun _ => rfl
    rw [sweepLoss, if_pos due]
    exact (preset.slashingPenalty_gives ..).map
  · rename_i nobody
    refine Array.map_congr_left fun validator listed => ?_
    rw [if_neg fun due => nobody (Array.any_eq_true'.mpr ⟨validator, listed, due⟩)]

/-- The sweep takes from every balance what is due. -/
theorem slash_ofFn {Log : Type} {log : PenaltyLog Log} {collected : Log}
    {balance : chain.Member → Gwei} (balances : chain.balances = Array.ofFn balance)
    (fits : active < GweiSum.bound)
    (swept : chain.slash log active multiplier = .ok (other, collected)) :
    other = { chain with
      balances := Array.ofFn fun index => Gwei.decrease (balance index)
        (Word.saturate (chain.sweepLoss active multiplier (chain.validatorAt index))) } := by
  unfold slash at swept
  split at swept
  · have gives : Gives _ (chain.slashingPenalties active multiplier) :=
      slashingPenalties_gives fits
    cases found : chain.slashingPenalties active multiplier with
    | ok penalties =>
      have lowered : chain.balances.zipWith (fun balance penalty =>
          Gwei.decrease balance (penalty.getD 0)) penalties = Array.ofFn fun index =>
            Gwei.decrease (balance index)
              (Word.saturate (chain.sweepLoss active multiplier (chain.validatorAt index))) := by
        rw [gives.met_of_eq_ok found, balances, map_eq_ofFn, zipWith_ofFn]
        refine congrArg Array.ofFn (funext fun index => ?_)
        split
        · rfl
        · rename_i notDue
          rw [sweepLoss, if_neg notDue]
          rfl
      rw [found] at swept
      cases swept
      rw [lowered]
    | error e =>
      rw [found] at swept
      cases swept
  · cases swept

end Chain

/-! ## Both -/

/-- The balance of a validator after an epoch: its reward is added, then its penalty and what the
sweep takes are subtracted, each down to zero. -/
def Chain.balanceAfter {preset : Preset} (chain : Chain preset) (phase : Phase)
    (delta : chain.Member → Delta) (validator : chain.Member) : Nat :=
  (chain.balanceOf validator).toNat + (delta validator).reward.toNat -
    (delta validator).penalty.toNat -
      chain.sweepLoss (chain.stake (chain.activeIn chain.currentEpoch))
        (preset.slashingMultiplier phase) (chain.validatorAt validator)

namespace State

variable {preset : Preset} {Votes : Type} {state final : State preset Votes} {phase : Phase}
  {amend : Votes → Votes} {rotate : Votes → Nat → Votes} {plan : Plan} {report : Report}
  {delta : state.chain.Member → Delta}

/-- **Balances after an epoch.** Past the first epoch every balance has room for its reward, and
ends as specified. The active stake that the sweep divides by is that of the chain, whatever the
cache knows. -/
theorem balances_conclude (ran : conclude phase amend rotate plan state = .ok report final)
    (coherent : state.cache.CoherentWith state.chain) (past : state.chain.isPastGenesis = true)
    (deltas : plan.deltas = Array.ofFn delta) :
    (∀ validator, (state.chain.balanceOf validator).toNat + (delta validator).reward.toNat <
        2 ^ 64) ∧
      final.chain.balances.map (·.toNat) =
        Array.ofFn (state.chain.balanceAfter phase delta) := by
  obtain ⟨⟨settledChain, records⟩, active, settled, looked, swept, -⟩ := conclude_eq_ok ran
  obtain ⟨only, sizes⟩ := Books.settle_eq_ok settled
  have size : state.chain.balances.size = state.chain.validators.size := by
    obtain ⟨balances, size, equal⟩ := only
    rw [equal] at sizes
    exact size.symm.trans sizes.symm
  have still := coherent.congr only.sameDuties
  rw [deltas] at settled
  obtain ⟨fits, rfl⟩ := Books.settle_ofFn settled (Chain.balances_eq_ofFn size) past
  obtain ⟨after, -, answered⟩ := Chain.lookupTotalActive_answers state.cache still
  obtain ⟨total, -⟩ := Step.lift_eq_ok_iff.mp (answered.symm.trans looked)
  obtain ⟨small, rfl⟩ := GweiSum.checked_eq_ok_iff.mp total
  rw [Chain.slash_ofFn rfl small swept, Array.map_ofFn]
  refine ⟨fun validator => by simpa [Delta.fits] using fits validator, ?_⟩
  refine congrArg Array.ofFn (funext fun validator => ?_)
  rw [Function.comp_apply, Gwei.toNat_decrease, Delta.toNat_apply (fits validator),
    Chain.toNat_saturate_sweepLoss, Chain.totalActive_eq_stake]
  rfl

end State

end BeaconEpoch
