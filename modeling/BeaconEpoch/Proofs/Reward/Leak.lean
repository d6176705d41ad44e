import BeaconEpoch.Proofs.Accounting.Pending
import BeaconEpoch.Proofs.Accounting.Report
import BeaconEpoch.Proofs.Range.Epoch

/-!
# Leaks

In an inactivity leak nobody gains. From Altair on there are no rewards then, and in Phase 0 every
reward is taken back by a penalty that a perfect validator breaks even with.

## Main definitions

* `Record.Perfect`: a validator that has done all that it could.

## Main statements

* `Books.settle_lowers`, `Chain.slash_lowers`: settling without rewards, and the sweep, raise no
  balance.
* `State.processFlags_leaking`: an epoch of Altair or later.
* `Chain.pendingReward_le_pendingPenalty`, `Chain.pendingReward_eq_pendingPenalty`: a record of
  Phase 0.
* `Chain.leak_never_pays`: both.

## Design notes

* **What makes the cancellation exact.** The reward for an early inclusion and the penalty of a leak
  both leave the share of a proposer out, and base rewards are so small that neither is cut off by
  the end of a word.
-/

namespace BeaconEpoch

/-! ## Altair and later -/

/-- Balances that fall twice have fallen. -/
theorem forall₂_le_trans {first second third : List Gwei} (fall : List.Forall₂ (· ≤ ·) second first)
    (fall' : List.Forall₂ (· ≤ ·) third second) : List.Forall₂ (· ≤ ·) third first := by
  induction fall generalizing third with
  | nil => exact fall'
  | cons le _ ih =>
    cases fall' with
    | cons le' rest => exact .cons (UInt64.le_trans le' le) (ih rest)

theorem Gwei.decrease_le (balance amount : Gwei) : decrease balance amount ≤ balance := by
  rw [UInt64.le_iff_toNat_le, toNat_decrease]
  exact Nat.sub_le ..

/-- Without rewards settling raises no balance. -/
theorem Books.settle_lowers {preset : Preset} {books final : Books preset} {deltas : Array Delta}
    (settled : settle deltas books = .ok () final) (nothing : ∀ delta ∈ deltas, delta.reward = 0) :
    List.Forall₂ (· ≤ ·) final.chain.balances.toList books.chain.balances.toList := by
  obtain ⟨-, balances, size⟩ := settle_counts settled
  have balances := Chain.balances_eq_ofFn balances
  rw [eq_ofFn_getD size {}] at settled nothing
  rw [settle_chain settled balances, balances, Array.toList_ofFn, Array.toList_ofFn]
  refine forall₂_ofFn fun index => ?_
  have unrewarded := nothing _ (Array.mem_ofFn.mpr ⟨index, rfl⟩)
  split
  · rw [Delta.apply, unrewarded, UInt64.add_zero]
    exact Gwei.decrease_le ..
  · exact UInt64.le_refl _

namespace Chain

variable {preset : Preset} {chain other : Chain preset}

/-- The sweep raises no balance. -/
theorem slash_lowers {Log : Type} {log : PenaltyLog Log} {active : GweiSum} {multiplier : Nat}
    {collected : Log} (swept : chain.slash log active multiplier = .ok (other, collected)) :
    List.Forall₂ (· ≤ ·) other.balances.toList chain.balances.toList := by
  unfold slash at swept
  split at swept
  · rename_i sizes
    cases found : chain.slashingPenalties active multiplier with
    | ok penalties =>
      have size : penalties.size = chain.validators.size :=
        (chain.slashingPenalties_size active multiplier).met_of_eq_ok found
      rw [found] at swept
      cases swept
      dsimp only
      rw [balances_eq_ofFn sizes.symm, eq_ofFn_getD size none, zipWith_ofFn, Array.toList_ofFn,
        Array.toList_ofFn]
      exact forall₂_ofFn fun validator => Gwei.decrease_le ..
    | error e =>
      rw [found] at swept
      cases swept
  · cases swept

end Chain

/-- In a leak no flag is rewarded. -/
theorem FlagRates.delta_leaking {rates : FlagRates} (leaking : rates.leaking = true)
    (record : Record) : Sound (fun _ => True) (·.reward = 0) (rates.delta record) := by
  have nothing : ∀ baseReward : Gwei, True → ∀ entry : Nat × Nat, Sound (fun _ => True) (· ≤ 0)
      (rates.flagReward record baseReward entry.1 entry.2) := by
    intro baseReward _ entry
    simp only [flagReward, leaking, Bool.not_true, Bool.and_false, Bool.false_eq_true, if_false]
    exact Nat.le_refl 0
  refine (delta_reward_le record (Sound.any _) nothing).mono fun delta le => ?_
  rw [← UInt64.toNat_inj]
  exact Nat.le_zero.mp (Nat.le_trans le (by split <;> exact Nat.le_refl 0))

namespace Chain

variable {preset : Preset} {chain : Chain preset}

theorem flagDeltas_leaking (leaking : chain.isLeaking = true) (config : Config) (phase : Phase)
    (tally : Tally) :
    Sound (fun _ => True) (fun deltas => ∀ delta ∈ deltas, delta.reward = 0)
      (chain.flagDeltas config phase tally) := by
  unfold flagDeltas
  split
  · intro delta listed
    obtain ⟨_, -, rfl⟩ := Array.mem_map.mp listed
    rfl
  · have rates : Sound (fun _ => True) (·.leaking = true)
        (chain.flagRates config phase tally.totals) :=
      (Sound.any _).bind fun _ _ => (Sound.any _).bind fun _ _ => .pure leaking
    refine rates.bind fun rates leaking => ?_
    exact (Sound.mapM _ _ fun record _ => FlagRates.delta_leaking leaking record).mono
      fun deltas found => found.2

end Chain

namespace State

variable {preset : Preset} {state final : FlagState preset} {report : Report}

/-- In a leak an epoch of Altair or later raises no balance. -/
theorem processFlags_leaking {config : Config} {phase : Phase} {cancelled : Bool}
    (leaking : state.chain.isLeaking = true)
    (ran : processFlags config phase cancelled state = .ok report final) :
    List.Forall₂ (· ≤ ·) final.chain.balances.toList state.chain.balances.toList := by
  unfold processFlags at ran
  rw [Step.get_bind_apply] at ran
  obtain ⟨plan, _, asked, concluded⟩ := Step.bind_eq_ok_iff.mp ran
  obtain ⟨cache, planned, rfl⟩ := ask_eq_ok_iff.mp asked
  obtain ⟨-, -, -, -, -, -, due⟩ := Chain.planFlags_eq_ok planned
  obtain ⟨books, active, settled, -, swept, -⟩ := conclude_eq_ok concluded
  have nothing : ∀ delta ∈ plan.deltas, delta.reward = 0 := by
    refine Sound.met_of_eq_ok (Chain.dueDeltas_sound
      (Chain.flagDeltas_leaking leaking config phase plan.tally) fun delta listed => ?_) due
    obtain ⟨_, -, rfl⟩ := Array.mem_map.mp listed
    rfl
  exact forall₂_le_trans (Books.settle_lowers settled nothing) (Chain.slash_lowers swept)

end State

/-! ## Phase 0 -/

/-- A validator has done all that it could: it voted for the right source, target and head, and its
vote was included in the next slot. -/
structure Record.Perfect (record : Record) : Prop where
  unslashed : record.slashed = false
  source : record.previousAttester = true
  target : record.previousTargetAttester = true
  head : record.previousHeadAttester = true
  inclusion : record.inclusionDistance = 1

namespace Chain

variable {preset : Preset} {chain : Chain preset} {config : Config} {totals : Totals}
  {record : Record}

section Leak

variable (leaking : chain.isLeaking = true) (mild : config.IsMild)
  (increment : preset.effectiveBalanceIncrement ≤ totals.activeCurrent)

include mild increment

/-- What a perfect validator would earn is a word. -/
theorem perfectReward_fits (record : Record) :
    (Word.saturate (baseRewardsPerEpoch *
      (config.pendingBaseReward preset totals record).toNat)).toNat =
    baseRewardsPerEpoch * (config.pendingBaseReward preset totals record).toNat := by
  have small := mild.baseReward_le preset increment record.effectiveBalance.toNat
  rw [← Config.pendingBaseReward_eq] at small
  have stake := record.effectiveBalance.toNat_lt
  rw [Word.toNat_saturate]
  omega

include leaking

/-- **No reward is worth it:** the penalty of a leak alone is as large as the largest reward. -/
theorem pendingReward_le_pendingPenalty :
    chain.pendingReward config totals record ≤ chain.pendingPenalty config totals record := by
  have earned : chain.pendingReward config totals record ≤ _ :=
    pendingReward_le fun normal => absurd (leaking.symm.trans normal) nofun
  have canceling : baseRewardsPerEpoch * (config.pendingBaseReward preset totals record).toNat -
        (preset.proposerShare (config.pendingBaseReward preset totals record)).toNat ≤
      chain.leakAmount (config.pendingBaseReward preset totals record) record := by
    rw [leakAmount, if_pos leaking, perfectReward_fits mild increment]
    exact Nat.le_add_right ..
  exact Nat.le_trans earned (Nat.le_trans canceling (Nat.le_add_left ..))

/-- A perfect validator breaks even. -/
theorem pendingReward_eq_pendingPenalty (perfect : record.Perfect) :
    chain.pendingReward config totals record = chain.pendingPenalty config totals record := by
  have fits := perfectReward_fits mild increment record
  unfold pendingReward pendingPenalty
  generalize config.pendingBaseReward preset totals record = baseReward at fits
  have share := UInt64.le_iff_toNat_le.mp (preset.proposerShare_le baseReward)
  have votes : record.pendingVotes totals = [(true, totals.previousAttested),
      (true, totals.previousTargetAttested), (true, totals.previousHeadAttested)] := by
    simp [Record.pendingVotes, perfect.unslashed, perfect.source, perfect.target, perfect.head]
  have inclusion : chain.inclusionAmount baseReward record =
      baseReward.toNat - (preset.proposerShare baseReward).toNat := by
    simp [inclusionAmount, perfect.unslashed, perfect.source, perfect.inclusion]
  have leak : chain.leakAmount baseReward record =
      baseRewardsPerEpoch * baseReward.toNat - (preset.proposerShare baseReward).toNat := by
    simp [leakAmount, leaking, fits, perfect.unslashed, perfect.target]
  have vote (attested : GweiSum) :
      chain.voteAmount totals baseReward attested = baseReward.toNat := if_pos leaking
  dsimp only
  rw [votes, inclusion, leak]
  simp only [List.map_cons, List.map_nil, List.sum_cons, List.sum_nil, if_true, vote,
    baseRewardsPerEpoch]
  omega

end Leak

/-- The deltas of Phase 0 in a leak. -/
theorem pendingDeltas_leaking (leaking : chain.isLeaking = true) (mild : config.IsMild)
    {tally : Tally} (increment : preset.effectiveBalanceIncrement ≤ tally.totals.activeCurrent) :
    ∃ deltas, chain.pendingDeltas config tally = .ok deltas ∧
      List.Forall₂ (fun record delta =>
          delta.reward ≤ delta.penalty ∧ (record.Perfect → delta.reward = delta.penalty))
        tally.records.toList deltas.toList := by
  have fits (record : Record) : chain.RewardsFit config tally.totals record :=
    fun normal => absurd (leaking.symm.trans normal) nofun
  refine ⟨_, pendingDeltas_eq fun record _ => (fits record).productsFit, ?_⟩
  rw [Array.toList_map, List.forall₂_map_right_iff]
  refine List.forall₂_same.mpr fun record _ => ?_
  split
  · exact ⟨UInt64.le_refl _, fun _ => rfl⟩
  · refine ⟨Word.saturate_le_saturate ?_, fun perfect => congrArg Word.saturate ?_⟩
    · exact pendingReward_le_pendingPenalty leaking mild increment
    · exact pendingReward_eq_pendingPenalty leaking mild increment perfect

end Chain

/-! ## All phases -/

namespace Chain

variable {preset : Preset} {chain : Chain preset}

/-- **A leak never pays.** In an inactivity leak a successful epoch of Altair or later raises no
balance. In Phase 0 there are deltas for all records, whatever they show, with any totals that have
one increment of active stake: as long as base rewards are not raised, nobody is rewarded more than
it is penalized, and a perfect validator breaks even. -/
theorem leak_never_pays (leaking : chain.isLeaking = true) :
    (∀ (config : Config) (phase : FlagPhase) (cancelled : Bool) (state final : FlagState preset)
      (report : Report), state.chain = chain →
      State.processFlags config phase.toPhase cancelled state = .ok report final →
      List.Forall₂ (· ≤ ·) final.chain.balances.toList chain.balances.toList) ∧
    (∀ (config : Config) (tally : Tally), config.IsMild →
      preset.effectiveBalanceIncrement ≤ tally.totals.activeCurrent →
      ∃ deltas, chain.pendingDeltas config tally = .ok deltas ∧
        List.Forall₂ (fun record delta =>
            delta.reward ≤ delta.penalty ∧ (record.Perfect → delta.reward = delta.penalty))
          tally.records.toList deltas.toList) := by
  refine ⟨?flags, ?pending⟩
  case flags =>
    rintro config phase cancelled state final report rfl ran
    exact State.processFlags_leaking leaking ran
  case pending =>
    intro config tally mild increment
    exact pendingDeltas_leaking leaking mild increment

/-- A chain at the end of its eighth epoch that has never finalized anything. -/
def neverFinalized : Chain .minimal := { State.threeFates.chain with slot := 63 }

/-- Records of a perfect validator, and of one that is late. -/
def twoRecords : Tally where
  records := #[
    { effectiveBalance := 32000000000, activePrevious := true, previousAttester := true,
      previousTargetAttester := true, previousHeadAttester := true, inclusionDistance := 1 },
    { effectiveBalance := 17000000000, activePrevious := true, previousAttester := true,
      previousTargetAttester := true, inclusionDistance := 3 }]
  totals := { activeCurrent := 49000000000 }

theorem leak_never_pays_neverFinalized :
    neverFinalized.isLeaking = true ∧
      (∃ report final,
        State.processFlags Config.minimal .altair false
          { State.threeFates with chain := neverFinalized } = .ok report final ∧
        List.Forall₂ (· ≤ ·) final.chain.balances.toList neverFinalized.balances.toList) ∧
      ∃ deltas, neverFinalized.pendingDeltas Config.minimal twoRecords = .ok deltas ∧
        (deltas.map fun delta => decide (delta.reward < delta.penalty)) = #[false, true] ∧
        List.Forall₂ (fun record delta =>
            delta.reward ≤ delta.penalty ∧ (record.Perfect → delta.reward = delta.penalty))
          twoRecords.records.toList deltas.toList := by
  have leaking : neverFinalized.isLeaking = true := by decide
  have succeeds : Step.Result.succeeds (State.processFlags Config.minimal .altair false
      { State.threeFates with chain := neverFinalized }) = true := by decide +kernel
  obtain ⟨report, final, ran⟩ := Step.Result.eq_ok_of_succeeds succeeds
  obtain ⟨flags, pending⟩ := leak_never_pays leaking
  obtain ⟨deltas, found, fair⟩ := pending Config.minimal twoRecords (.inl rfl) (by decide)
  have gains : (match neverFinalized.pendingDeltas Config.minimal twoRecords with
    | .ok deltas => deltas.map fun delta => decide (delta.reward < delta.penalty)
    | .error _ => #[]) = #[false, true] := by decide +kernel
  rw [found] at gains
  exact ⟨leaking, ⟨report, final, ran, flags _ .altair false _ final report rfl ran⟩, deltas, found,
    gains, fair⟩

end Chain

end BeaconEpoch
