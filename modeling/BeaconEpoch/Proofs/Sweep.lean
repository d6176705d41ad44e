import BeaconEpoch.Proofs.Accounting.Report
import BeaconEpoch.Proofs.Itinerary
import BeaconEpoch.Proofs.Range.Epoch
import BeaconEpoch.Proofs.Tenure

/-!
# The sweep

The sweep over the registry takes from every validator what it is due to lose, neither more nor
less, and it does so once in the life of a chain.

## Main definitions

* `Chain.PenaltyDue`: a validator has half of its withdrawal delay behind it.
* `Chain.proportionalPenalty`: what it loses.
* `Chain.Swept`: what a sweep leaves and what it collects.
* `Chain.Penalizes`: a log of the slashing penalties of some epochs.
* `Action.penalties`, `BeaconState.penaltiesAlong`: the slashing penalties of an action and of a
  walk.

## Main statements

* `Chain.slash_swept`: a sweep succeeds, and does as specified.
* `Chain.proportionalPenalty_mono`: penalties grow with what was slashed.
* `Chain.Penalizes.append`: different epochs penalize different validators.
* `BeaconState.Follows.penalizes`: the penalties of a walk.
* `BeaconState.sweep_exact_and_once`: sweeps are exact, and nobody is penalized twice.

## Design notes

* **A date is met once.** The sweep looks at nothing but the date at which a validator may withdraw,
  which no walk changes. So the epoch in which a validator is penalized can be told from the
  registry, and that it is the only one follows from epochs being processed in order. Neither the
  active stake nor the multiplier, which is another one after a fork, comes into it.
-/

namespace BeaconEpoch

open Step

/-! ## One sweep -/

namespace Chain

variable {preset : Preset} (chain : Chain preset)

/-- A validator is slashed, and may withdraw half of the usual delay after the current epoch. -/
def PenaltyDue (validator : Validator) : Prop :=
  validator.slashed = true ∧ validator.withdrawableEpoch.toNat =
    chain.currentEpoch.toNat + preset.epochsPerSlashingsVector.toNat / 2

/-- The whole increments of a validator's stake, times the slashed part of all active stake, in
whole increments. Nothing, if there is no active stake. -/
def proportionalPenalty (active : GweiSum) (multiplier : Nat) (validator : Validator) : Nat :=
  validator.effectiveBalance.toNat / preset.effectiveBalanceIncrement *
    min (multiplier * chain.recentlySlashed) active / active * preset.effectiveBalanceIncrement

/-- What a sweep leaves of a chain, and what it collects. -/
structure Swept (active : GweiSum) (multiplier : Nat) (final : Chain preset)
    (log : List (ValidatorIndex × Gwei)) : Prop where
  /-- Whose penalty is due loses it, down to nothing. -/
  taken : ∀ validator : chain.Member, chain.PenaltyDue (chain.validatorAt validator) →
    (final.balances.getD validator 0).toNat =
      (chain.balanceOf validator).toNat -
        chain.proportionalPenalty active multiplier (chain.validatorAt validator)
  /-- All others keep their balances. -/
  spared : ∀ validator : chain.Member, ¬chain.PenaltyDue (chain.validatorAt validator) →
    final.balances.getD validator 0 = chain.balanceOf validator
  /-- Nobody loses more than its stake. -/
  bounded : ∀ validator : chain.Member,
    chain.proportionalPenalty active multiplier (chain.validatorAt validator) ≤
      (chain.validatorAt validator).effectiveBalance.toNat
  /-- The penalties that are collected are those that are due, to the last unit. -/
  collected : ∀ index amount, (index, amount) ∈ log ↔
    ∃ validator : chain.Member, validator.val = index ∧
      chain.PenaltyDue (chain.validatorAt validator) ∧
      amount.toNat = chain.proportionalPenalty active multiplier (chain.validatorAt validator)
  /-- Each is collected once. -/
  once : (log.map (·.1)).Nodup
  /-- There are as many balances as before, and nothing else has changed. -/
  frame : chain.OnlyBalances final

variable {chain other : Chain preset} {active : GweiSum} {multiplier : Nat} {validator : Validator}

theorem sweepLoss_of_due (due : chain.PenaltyDue validator) :
    chain.sweepLoss active multiplier validator =
      chain.proportionalPenalty active multiplier validator :=
  if_pos (slashingIsDue_iff.mpr due)

theorem sweepLoss_of_not_due (spared : ¬chain.PenaltyDue validator) :
    chain.sweepLoss active multiplier validator = 0 :=
  if_neg (mt slashingIsDue_iff.mp spared)

theorem proportionalPenalty_le :
    chain.proportionalPenalty active multiplier validator ≤ validator.effectiveBalance.toNat :=
  wholeIncrements_part_le _ _ (Nat.min_le_right ..)

/-- Penalties grow with every amount that was slashed recently. -/
theorem proportionalPenalty_mono
    (larger : List.Forall₂ (· ≤ ·) chain.slashings.toList other.slashings.toList) :
    chain.proportionalPenalty active multiplier validator ≤
      other.proportionalPenalty active multiplier validator := by
  have sums : chain.recentlySlashed ≤ other.recentlySlashed := by
    refine List.Forall₂.sum_le_sum ?_
    rw [List.forall₂_map_left_iff, List.forall₂_map_right_iff]
    exact larger.imp fun _ _ => UInt64.le_iff_toNat_le.mp
  have parts : min (multiplier * chain.recentlySlashed) active ≤
      min (multiplier * other.recentlySlashed) active :=
    min_le_min_right _ (Nat.mul_le_mul_left _ sums)
  exact Nat.mul_le_mul_right _ (Nat.div_le_div_right (Nat.mul_le_mul_left _ parts))

section Sweep

variable (sizes : chain.validators.size = chain.balances.size)
  (short : chain.slashings.size < 2 ^ 64) (small : active < 2 ^ 92)

include sizes short small

/-- A sweep never fails: none of its sums and products outgrows its word, so it could only fail on a
registry of the wrong length. -/
theorem slash_succeeds {Log : Type} (log : PenaltyLog Log) (multiplier : Nat) :
    ∃ final collected, chain.slash log active multiplier = .ok (final, collected) := by
  cases swept : chain.slash log active multiplier with
  | ok result => exact ⟨result.1, result.2, rfl⟩
  | error e =>
    have accuses := (slash_sound short log small multiplier).allowed_of_eq_error swept
    have overflow := (slash_error log active multiplier sizes).allowed_of_eq_error swept
    exact absurd overflow accuses

theorem slash_swept (multiplier : Nat) :
    ∃ final collected,
      chain.slash PenaltyLog.keep active multiplier = .ok (final, collected) ∧
      chain.slash PenaltyLog.discard active multiplier = .ok (final, ()) ∧
      chain.Swept active multiplier final collected.toList := by
  have fits : active < GweiSum.bound := Nat.lt_trans small (by decide)
  have balances := balances_eq_ofFn sizes.symm
  obtain ⟨final, collected, swept⟩ := slash_succeeds sizes short small PenaltyLog.keep multiplier
  obtain ⟨other, _, discarded⟩ := slash_succeeds sizes short small PenaltyLog.discard multiplier
  have left := slash_ofFn balances fits swept
  have gives : Gives _ (chain.slashingPenalties active multiplier) := slashingPenalties_gives fits
  rw [map_eq_ofFn] at gives
  have listed := slash_keep_ofFn gives swept
  have lowered (validator : chain.Member) : (final.balances.getD validator 0).toNat =
      (chain.balanceOf validator).toNat -
        chain.sweepLoss active multiplier (chain.validatorAt validator) := by
    rw [← toNat_saturate_sweepLoss, ← Gwei.toNat_decrease, left]
    simp
  refine ⟨final, collected, swept, ?_, {
    taken := fun validator due => ?_
    spared := fun validator spared => ?_
    bounded := fun validator => proportionalPenalty_le
    collected := fun index amount => ?_
    once := ?_
    frame := slash_eq_ok swept }⟩
  · rw [discarded, left, slash_ofFn balances fits discarded]
  · rw [lowered, sweepLoss_of_due due]
  · rw [← UInt64.toNat_inj, lowered, sweepLoss_of_not_due spared, Nat.sub_zero]
  · rw [listed, PenaltyLog.mem_entries]
    refine exists_congr fun validator => ?_
    rw [Option.ite_none_right_eq_some, slashingIsDue_iff]
    constructor
    · rintro ⟨⟨due, equal⟩, place⟩
      refine ⟨place, due, ?_⟩
      rw [← Option.some.inj equal, toNat_saturate_sweepLoss, sweepLoss_of_due due]
    · rintro ⟨place, due, exact⟩
      refine ⟨⟨due, congrArg some (UInt64.toNat_inj.mp ?_)⟩, place⟩
      rw [toNat_saturate_sweepLoss, sweepLoss_of_due due, exact]
  · rw [listed]
    exact PenaltyLog.nodup_entries

end Sweep

/-! ## What a sweep goes by -/

/-- Whatever the active stake is said to be, penalties are found for those who are due to be
penalized, and for nobody else. -/
theorem slashingPenalties_due (chain : Chain preset) (active : GweiSum) (multiplier : Nat) :
    ∃ penalty : Validator → Gwei, Gives (chain.validators.map fun validator =>
        if chain.slashingIsDue validator then some (penalty validator) else none)
      (chain.slashingPenalties active multiplier) := by
  unfold slashingPenalties
  split
  · cases chain.slashedStake active multiplier with
    | ok part =>
      refine ⟨fun validator => Word.saturate (validator.effectiveBalance.toNat /
        preset.effectiveBalanceIncrement * part / active * preset.effectiveBalanceIncrement), ?_⟩
      refine Gives.mapM _ _ fun validator _ => .ite (fun _ => ?_) fun _ => rfl
      exact (preset.slashingPenalty_gives ..).map
    | error e => exact ⟨fun _ => 0, trivial⟩
  · rename_i nobody
    refine ⟨fun _ => 0, Array.map_congr_left fun validator listed => ?_⟩
    rw [if_neg fun due => nobody (Array.any_eq_true'.mpr ⟨validator, listed, due⟩)]

/-- A validator of the registry that may withdraw half of the usual delay after an epoch. -/
def DueIn (chain : Chain preset) (epoch : Epoch) (index : ValidatorIndex) : Prop :=
  ∃ validator, chain.validators[index]? = some validator ∧
    validator.withdrawableEpoch.toNat = epoch.toNat + preset.epochsPerSlashingsVector.toNat / 2

/-- The date of a validator names one epoch. -/
theorem DueIn.unique {epoch epoch' : Epoch} {index : ValidatorIndex}
    (due : chain.DueIn epoch index) (due' : chain.DueIn epoch' index) : epoch = epoch' := by
  obtain ⟨validator, listed, date⟩ := due
  obtain ⟨validator', listed', date'⟩ := due'
  cases listed.symm.trans listed'
  rw [← UInt64.toNat_inj]
  omega

/-- The slashing penalties of some epochs: nobody is listed twice, and the date of everybody who is
listed is in one of them. -/
structure Penalizes (chain : Chain preset) (epochs : List Epoch)
    (log : List (ValidatorIndex × Gwei)) : Prop where
  once : (log.map (·.1)).Nodup
  dates : ∀ entry ∈ log, ∃ epoch ∈ epochs, chain.DueIn epoch entry.1

namespace Penalizes

variable {epochs epochs' : List Epoch} {log log' : List (ValidatorIndex × Gwei)}

theorem nil : chain.Penalizes epochs [] := ⟨.nil, nofun⟩

/-- Earlier and later epochs penalize different validators. -/
theorem append (first : chain.Penalizes epochs log) (second : chain.Penalizes epochs' log')
    (order : ∀ early ∈ epochs, ∀ late ∈ epochs', early < late) :
    chain.Penalizes (epochs ++ epochs') (log ++ log') where
  once := by
    rw [List.map_append, List.nodup_append]
    refine ⟨first.once, second.once, ?_⟩
    rintro _ inFirst _ inSecond rfl
    obtain ⟨entry, listed, rfl⟩ := List.mem_map.mp inFirst
    obtain ⟨entry', listed', same⟩ := List.mem_map.mp inSecond
    obtain ⟨early, processed, date⟩ := first.dates entry listed
    obtain ⟨late, processed', date'⟩ := second.dates entry' listed'
    -- one date would have to be in two epochs
    have before := order early processed late processed'
    rw [date.unique (same ▸ date')] at before
    exact UInt64.lt_irrefl _ before
  dates := by
    intro entry listed
    rcases List.mem_append.mp listed with listed | listed
    · obtain ⟨epoch, processed, date⟩ := first.dates entry listed
      exact ⟨epoch, List.mem_append_left _ processed, date⟩
    · obtain ⟨epoch, processed, date⟩ := second.dates entry listed
      exact ⟨epoch, List.mem_append_right _ processed, date⟩

theorem of_sameRegistry (same : chain.SameRegistry other) (penalizes : other.Penalizes epochs log) :
    chain.Penalizes epochs log where
  once := penalizes.once
  dates := by
    intro entry listed
    obtain ⟨epoch, processed, date⟩ := penalizes.dates entry listed
    rw [DueIn, same.validators] at date
    exact ⟨epoch, processed, date⟩

end Penalizes

/-- A sweep collects the penalty of a validator once, and when its date has come. -/
theorem slash_keep_penalizes {collected : Array (ValidatorIndex × Gwei)}
    (swept : chain.slash PenaltyLog.keep active multiplier = .ok (other, collected)) :
    chain.Penalizes [chain.currentEpoch] collected.toList := by
  obtain ⟨penalty, gives⟩ := chain.slashingPenalties_due active multiplier
  rw [map_eq_ofFn] at gives
  rw [slash_keep_ofFn gives swept]
  refine ⟨PenaltyLog.nodup_entries, ?_⟩
  rintro ⟨index, amount⟩ listed
  obtain ⟨validator, shown, rfl⟩ := PenaltyLog.mem_entries.mp listed
  obtain ⟨due, -⟩ := Option.ite_none_right_eq_some.mp shown
  refine ⟨_, List.mem_singleton_self _, _, Array.getElem?_eq_getElem validator.isLt, ?_⟩
  exact (slashingIsDue_iff.mp due).2

end Chain

/-! ## The penalties of a walk -/

namespace Action

variable {preset : Preset}

/-- The slashing penalties of an action that is performed on a state. -/
def penalties (config : Config) (state : BeaconState preset) :
    Action → List (ValidatorIndex × Gwei)
  | epoch _ _ =>
    match BeaconState.processEpoch config false state with
    | .ok report _ => report.slashingPenalties.toList
    | .error _ _ => []
  | advance _ => []
  | upgrade _ _ => []

end Action

/-- The slashing penalties of some actions that are performed one after another, up to the first
failure. -/
def BeaconState.penaltiesAlong {preset : Preset} (config : Config) :
    List Action → Run (BeaconState preset) → List (ValidatorIndex × Gwei)
  | [], _ => []
  | action :: rest, run =>
    action.penalties config run.state ++
      match action.perform config run with
      | .ok _ middle => penaltiesAlong config rest middle
      | .error _ _ => []

namespace State

variable {preset : Preset} {Votes : Type} {state final : State preset Votes}

/-- The sweep of an epoch comes after balances have been settled, which changes nothing that the
sweep goes by. -/
theorem ask_conclude_penalizes (amend : Plan → Votes → Votes)
    {question : Chain preset → Lookup Plan} {phase : Phase} {rotate : Votes → Nat → Votes}
    {report : Report}
    (ran : (ask question >>= fun plan => conclude phase (amend plan) rotate plan) state =
      .ok report final) :
    state.chain.Penalizes [state.chain.currentEpoch] report.slashingPenalties.toList := by
  obtain ⟨plan, _, asked, concluded⟩ := bind_eq_ok_iff.mp ran
  obtain ⟨cache, -, rfl⟩ := ask_eq_ok_iff.mp asked
  obtain ⟨⟨_, records⟩, active, settled, -, swept, -⟩ := conclude_eq_ok concluded
  obtain ⟨balances, -, rfl⟩ := (Books.settle_eq_ok settled).1
  have penalizes := Chain.slash_keep_penalizes swept
  exact ⟨penalizes.once, penalizes.dates⟩

/-- A slot is left with the same registry. -/
theorem advanceSlot_sameRegistry (ran : advanceSlot state = .ok () final) :
    state.chain.SameRegistry final.chain := by
  unfold advanceSlot at ran
  rw [get_bind_apply] at ran
  obtain ⟨slot, -, ran⟩ := lift_bind_eq_ok_iff.mp ran
  cases ran
  exact ⟨rfl, rfl⟩

end State

namespace BeaconState

variable {preset : Preset} {config : Config} {run middle : Run (BeaconState preset)}

theorem processEpoch_penalizes {cancelled : Bool} {state after : BeaconState preset}
    {report : Report} (ran : processEpoch config cancelled state = .ok report after) :
    state.chain.Penalizes [state.chain.currentEpoch] report.slashingPenalties.toList := by
  obtain ⟨start, final, rfl, inner, rfl⟩ | ⟨phase, start, final, rfl, inner, rfl⟩ :=
    dispatch_eq_ok ran
  · exact State.ask_conclude_penalizes (fun _ => id) inner
  · unfold State.processFlags at inner
    rw [get_bind_apply] at inner
    exact State.ask_conclude_penalizes
      (fun plan votes => FlagVotes.withScores votes plan.scores) inner

theorem processEpoch_sameRegistry {cancelled : Bool} {state after : BeaconState preset}
    {report : Report} (ran : processEpoch config cancelled state = .ok report after) :
    state.chain.SameRegistry after.chain := by
  obtain ⟨start, final, rfl, inner, rfl⟩ | ⟨phase, start, final, rfl, inner, rfl⟩ :=
    dispatch_eq_ok ran
  · exact (State.processPending_eq_ok inner).1.sameRegistry
  · obtain ⟨_, _, -, only, -⟩ := State.processFlags_eq_ok inner
    exact only.sameRegistry

theorem perform_sameRegistry {action : Action}
    (ran : action.perform config run = .ok () middle) :
    run.state.chain.SameRegistry middle.state.chain := by
  cases action with
  | epoch phase slot =>
    simp only [Action.perform, Run.processEpoch] at ran
    rw [get_bind_apply] at ran
    obtain ⟨report, _, processed, ran⟩ := bind_eq_ok_iff.mp ran
    obtain ⟨after, inner, rfl⟩ := zoom_eq_ok_iff.mp processed
    cases ran
    exact processEpoch_sameRegistry inner
  | advance slot =>
    simp only [Action.perform] at ran
    obtain ⟨start, rfl⟩ | ⟨phase, start, rfl⟩ := run.move_cases
    · rw [advanceSlot_pending] at ran
      obtain ⟨_, moved, rfl⟩ := move_eq_ok_iff.mp ran
      obtain ⟨after, inner, rfl⟩ := zoom_eq_ok_iff.mp moved
      exact State.advanceSlot_sameRegistry inner
    · rw [advanceSlot_flagged] at ran
      obtain ⟨_, moved, rfl⟩ := move_eq_ok_iff.mp ran
      obtain ⟨after, inner, rfl⟩ := zoom_eq_ok_iff.mp moved
      exact State.advanceSlot_sameRegistry inner
  | upgrade next slot =>
    rw [show middle.state.chain = run.state.chain from (enter_eq_ok ran).1]
    exact .refl _

/-- An action that is due penalizes those whose date is in its epoch. -/
theorem penalties_of_due {action : Action} {state : BeaconState preset} (due : action.Due state) :
    state.chain.Penalizes (action.epoch? preset).toList (action.penalties config state) := by
  cases action with
  | epoch phase slot =>
    obtain ⟨rfl, -⟩ := due
    simp only [Action.penalties]
    split
    · rename_i report after ran
      exact processEpoch_penalizes ran
    · exact .nil
  | advance slot => exact .nil
  | upgrade next slot => exact .nil

/-- **Nobody is penalized twice on a walk.** The induction is on the actions of the walk; what has
been done and what is left to do are in different epochs. -/
theorem Follows.penalizes {actions : List Action}
    {result : Result (Run (BeaconState preset)) Unit} (follows : Follows config actions run result)
    (sorted : (preset.epochsOf actions).Pairwise (· < ·)) :
    run.state.chain.Penalizes (preset.epochsOf actions) (penaltiesAlong config actions run) := by
  induction actions generalizing run with
  | nil => exact .nil
  | cons action rest ih =>
    obtain ⟨due, follows⟩ := follows
    rw [Preset.epochsOf_cons] at sorted ⊢
    obtain ⟨-, sorted, order⟩ := List.pairwise_append.mp sorted
    rw [penaltiesAlong]
    refine (penalties_of_due due).append ?_ order
    cases ran : action.perform config run with
    | ok _ middle =>
      rw [ran] at follows
      exact (ih follows sorted).of_sameRegistry (perform_sameRegistry ran)
    | error e final => exact .nil

/-! ## Exact sweeps, once -/

/-- **The sweep is exact, and nobody meets it twice.** Let there be one balance per validator and an
active stake below `2 ^ 92`. With any multiplier the sweep succeeds: it takes from every validator
its proportional penalty, if that is due, and changes nothing else. A penalty grows with every
amount that was slashed recently. What is collected is what was taken, and a sweep that collects
nothing leaves the same chain. And on every walk, over any number of epochs and forks and under any
configuration, each validator is penalized once at most. -/
theorem sweep_exact_and_once (chain : Chain preset) (active : GweiSum) (multiplier : Nat)
    (sizes : chain.validators.size = chain.balances.size)
    (short : chain.slashings.size < 2 ^ 64) (small : active < 2 ^ 92) :
    (∃ final collected,
      chain.slash PenaltyLog.keep active multiplier = .ok (final, collected) ∧
      chain.slash PenaltyLog.discard active multiplier = .ok (final, ()) ∧
      chain.Swept active multiplier final collected.toList) ∧
    (∀ (other : Chain preset) (validator : Validator),
      List.Forall₂ (· ≤ ·) chain.slashings.toList other.slashings.toList →
      chain.proportionalPenalty active multiplier validator ≤
        other.proportionalPenalty active multiplier validator) ∧
    (∀ (config : Config) (target : Slot) (run : Run (BeaconState preset)),
      if run.state.slot < target then
        let way := config.itinerary preset target run.state.phase.later run.state.phase
          run.state.slot
        Follows config way run (processSlots config target run) ∧
          ((penaltiesAlong config way run).map (·.1)).Nodup
      else processSlots config target run = .error (.slotNotLater run.state.slot target) run) := by
  refine ⟨Chain.slash_swept sizes short small multiplier, ?grows, ?once⟩
  case grows => exact fun other validator larger => Chain.proportionalPenalty_mono larger
  case once =>
    intro config target run
    split
    · rename_i ahead
      have follows : Follows config _ run _ := processSlots_follows ahead
      exact ⟨follows, (follows.penalizes (config.itinerary_epochs _ _ _).1).once⟩
    · rename_i behind
      exact processSlots_of_not_lt behind

/-- The minimal configuration for a chain that starts in Altair and enters Bellatrix with its third
epoch, at slot 16. -/
def secondFork : Config := { Config.minimal with altairForkEpoch := 0, bellatrixForkEpoch := 2 }

/-- Of three validators one is slashed and has half of its delay behind it. It is penalized in the
first of two epochs, and not in the second one, which has another multiplier. -/
theorem sweep_exact_and_once_threeFates :
    ∃ final collected,
      State.threeFates.chain.slash PenaltyLog.keep 96000000000 2 = .ok (final, collected) ∧
      State.threeFates.chain.Swept 96000000000 2 final collected.toList ∧
      Follows secondFork
        (secondFork.itinerary .minimal 25 [.bellatrix, .capella] .altair 15)
        ⟨.flagged .altair State.threeFates, #[]⟩
        (processSlots secondFork 25 ⟨.flagged .altair State.threeFates, #[]⟩) ∧
      (penaltiesAlong secondFork
        (secondFork.itinerary .minimal 25 [.bellatrix, .capella] .altair 15)
        ⟨.flagged .altair State.threeFates, #[]⟩).map (·.1) = [1] := by
  obtain ⟨⟨final, collected, swept, -, exact⟩, -, once⟩ :=
    sweep_exact_and_once State.threeFates.chain 96000000000 2 (by decide) (by decide) (by decide)
  obtain ⟨follows, -⟩ := once secondFork 25 ⟨.flagged .altair State.threeFates, #[]⟩
  exact ⟨final, collected, swept, exact, follows, by decide +kernel⟩

end BeaconState

end BeaconEpoch
