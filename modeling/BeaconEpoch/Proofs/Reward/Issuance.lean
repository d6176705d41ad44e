import BeaconEpoch.Proofs.Progress.Tally
import Mathlib.Algebra.BigOperators.Ring.List
import Mathlib.Algebra.Ring.Nat

/-!
# Issuance

The rewards of an epoch, all together, are capped by base rewards: in Phase 0 by four for every
unslashed validator, the shares of proposers among them, and from Altair on by the weights of the
three flags for every unslashed validator that is eligible.

## Main definitions

* `sumOver`, `totalRewards`: sums over records, and the sum of all rewards.
* `Totals.PartsOfActive`: the stake behind each vote is a part of the active stake.
* `Config.shareOf`: what the vote of a record may be worth to a proposer.
* `Config.flagBaseReward`: the base reward from Altair on.
* `FlagRates.ComesFrom`: rates that divide such base rewards by the active stake.

## Main statements

* `Config.creditProposer_le`, `Config.proposerRewards_le`: one vote that is included, and all of
  them.
* `Chain.pendingReward_add_shareOf_le`, `Chain.epochDeltas_le`: one vote of Phase 0 with its share,
  and all rewards.
* `FlagRates.flagReward_le`, `FlagRates.delta_le`, `Chain.flagDeltas_le`: the rewards of Altair and
  later, for one flag, for one validator and for all.
* `Chain.issuance_capped`: all phases.

## Design notes

* **A vote is paid once.** The share of a proposer goes to whoever the record names, so proposers
  are summed up by the votes that they include and not one by one. Where a reward is cut off at the
  end of a word, less is paid.
-/

namespace BeaconEpoch

/-! ## Sums -/

/-- The sum of an amount over the records that count. -/
def sumOver (records : Array Record) (counts : Record → Bool) (amount : Record → Nat) : Nat :=
  (records.toList.map fun record => if counts record then amount record else 0).sum

/-- The sum of all rewards. -/
def totalRewards (deltas : Array Delta) : Nat := (deltas.toList.map (·.reward.toNat)).sum

/-- A list whose entries are combined from two lists comes to no more than both, if each entry
does. -/
theorem sum_zipWith_le {α β γ : Type} {combine : α → β → γ} {reading : γ → Nat} (first : α → Nat)
    (second : β → Nat) (each : ∀ a b, reading (combine a b) ≤ first a + second b) (as : List α)
    (bs : List β) :
    ((as.zipWith combine bs).map reading).sum ≤ (as.map first).sum + (bs.map second).sum := by
  induction as generalizing bs with
  | nil => exact Nat.zero_le _
  | cons a as ih =>
    cases bs with
    | nil => exact Nat.zero_le _
    | cons b bs =>
      have head := each a b
      have tail := ih bs
      simp only [List.zipWith_cons_cons, List.map_cons, List.sum_cons]
      omega

/-- An entry that is raised by some amount at most raises the sum by no more. -/
theorem sum_modify_le {change : Gwei → Gwei} {amount : Nat}
    (each : ∀ w, (change w).toNat ≤ w.toNat + amount) (list : List Gwei) (index : Nat) :
    ((list.modify index change).map (·.toNat)).sum ≤ (list.map (·.toNat)).sum + amount := by
  induction list generalizing index with
  | nil => simp
  | cons w list ih =>
    cases index with
    | zero =>
      have head := each w
      simp only [List.modify_zero_cons, List.map_cons, List.sum_cons]
      omega
    | succ index =>
      have tail := ih index
      simp only [List.modify_succ_cons, List.map_cons, List.sum_cons]
      omega

/-- The stake behind each vote for the previous epoch is a part of the active stake, which is far
from the end of its range. -/
structure Totals.PartsOfActive (totals : Totals) : Prop where
  source : totals.previousAttested ≤ totals.activeCurrent
  target : totals.previousTargetAttested ≤ totals.activeCurrent
  head : totals.previousHeadAttested ≤ totals.activeCurrent
  small : totals.activeCurrent < 2 ^ 85

theorem Totals.PartsOfActive.moderate {totals : Totals} (parts : totals.PartsOfActive) :
    totals.Moderate := by
  have active : totals.activeCurrent ≤ stakeBound :=
    Nat.le_trans (Nat.le_of_lt parts.small) (by decide)
  exact ⟨active, Nat.le_trans parts.source active, Nat.le_trans parts.target active,
    Nat.le_trans parts.head active⟩

/-! ## Phase 0 -/

namespace Config

variable (config : Config) (preset : Preset) (totals : Totals)

/-- The share of a base reward that the vote of a record may be worth to a proposer. -/
def shareOf (record : Record) : Nat :=
  if !record.slashed then
    (preset.proposerShare (config.pendingBaseReward preset totals record)).toNat
  else 0

/-- One vote that is included is worth no more than its share, whoever gets it. -/
theorem creditProposer_le (rewards : Array Gwei) (record : Record) :
    Sound (fun _ => True)
      (fun credited => (credited.toList.map (·.toNat)).sum ≤
        (rewards.toList.map (·.toNat)).sum + config.shareOf preset totals record)
      (config.creditProposer preset totals rewards record) := by
  simp only [creditProposer]
  split
  · split
    · rename_i counts
      have unslashed : (!record.slashed) = true := (Bool.and_eq_true_iff.mp counts).2
      rw [shareOf, if_pos unslashed]
      show _ ≤ _
      rw [Array.toList_modify]
      refine sum_modify_le (fun reward => ?_) _ _
      rw [Word.toNat_addSat]
      exact Nat.min_le_left ..
    · exact Nat.le_add_right ..
  · trivial

/-- **All votes together are worth no more than their shares.** -/
theorem creditProposers_le (records : List Record) (rewards : Array Gwei) :
    Sound (fun _ => True)
      (fun credited => (credited.toList.map (·.toNat)).sum ≤
        (rewards.toList.map (·.toNat)).sum + (records.map (config.shareOf preset totals)).sum)
      (records.foldlM (config.creditProposer preset totals) rewards) := by
  induction records generalizing rewards with
  | nil => exact Nat.le_add_right ..
  | cons record records ih =>
    rw [List.foldlM_cons]
    refine (config.creditProposer_le preset totals rewards record).bind fun credited first => ?_
    refine (ih credited).mono fun final rest => ?_
    simp only [List.map_cons, List.sum_cons]
    omega

theorem proposerRewards_le (tally : Tally) :
    Sound (fun _ => True)
      (fun rewards => (rewards.toList.map (·.toNat)).sum ≤
        (tally.records.toList.map (config.shareOf preset tally.totals)).sum)
      (config.proposerRewards preset tally) := by
  have nothing :
      ((Array.replicate tally.records.size (0 : Gwei)).toList.map (·.toNat)).sum = 0 := by
    simp
  unfold proposerRewards
  rw [← Array.foldlM_toList]
  refine (config.creditProposers_le preset tally.totals _ _).mono fun rewards le => ?_
  rwa [nothing, Nat.zero_add] at le

end Config

namespace Chain

variable {preset : Preset} {chain : Chain preset} {config : Config} {totals : Totals}

/-- What a vote earns, for the voter and for whoever includes it, is four base rewards at most. -/
theorem pendingReward_add_shareOf_le (parts : totals.PartsOfActive) (record : Record) :
    chain.pendingReward config totals record + config.shareOf preset totals record ≤
      baseRewardsPerEpoch *
        if !record.slashed then (config.pendingBaseReward preset totals record).toNat else 0 := by
  unfold Config.shareOf
  cases slashed : record.slashed with
  | true =>
    rw [pendingReward_of_slashed slashed]
    exact Nat.le_refl 0
  | false =>
    simp only [Bool.not_false, if_true]
    have own : chain.pendingReward config totals record ≤ _ :=
      pendingReward_le fun _ => record.pendingVotes_le parts.source parts.target parts.head
    have share := UInt64.le_iff_toNat_le.mp
      (preset.proposerShare_le (config.pendingBaseReward preset totals record))
    dsimp only [baseRewardsPerEpoch] at own ⊢
    omega

/-- **The rewards of Phase 0.** They sum up to no more than four base rewards for every unslashed
validator, whoever the proposers are. -/
theorem epochDeltas_le {tally : Tally} (parts : tally.totals.PartsOfActive) :
    Sound (fun _ => True)
      (fun deltas => totalRewards deltas ≤ baseRewardsPerEpoch *
        sumOver tally.records (fun record => !record.slashed) fun record =>
          (config.pendingBaseReward preset tally.totals record).toNat)
      (chain.epochDeltas config tally) := by
  unfold epochDeltas
  rw [pendingDeltas_eq fun record _ =>
    (rewardsFit_of_moderate config parts.moderate record).productsFit]
  refine (config.proposerRewards_le preset tally).bind fun rewards shares => .pure ?_
  unfold totalRewards sumOver
  rw [Array.toList_zipWith, Array.toList_map,
    ← List.sum_map_mul_left tally.records.toList _ baseRewardsPerEpoch]
  -- each reward is split into the part of the voter and that of the proposer
  refine Nat.le_trans (sum_zipWith_le (·.reward.toNat) (·.toNat) ?_ _ _) ?_
  · intro delta reward
    rw [Word.toNat_addSat]
    exact Nat.min_le_left ..
  refine Nat.le_trans (Nat.add_le_add_left shares _) ?_
  rw [List.map_map, ← List.sum_map_add]
  refine List.sum_le_sum fun record _ => ?_
  have earned : chain.pendingReward config tally.totals record + _ ≤ _ :=
    pendingReward_add_shareOf_le parts record
  refine Nat.le_trans (Nat.add_le_add_right ?_ _) earned
  dsimp only [Function.comp_apply]
  split
  · exact Nat.zero_le _
  · rw [Word.toNat_saturate]
    exact Nat.min_le_left ..

end Chain

/-! ## Altair and later -/

/-- The base reward from Altair on, as the configuration adjusts it. -/
def Config.flagBaseReward (config : Config) (preset : Preset) (totals : Totals) (record : Record) :
    Gwei :=
  config.adjust (Word.saturate
    (record.effectiveBalance.toNat / preset.effectiveBalanceIncrement *
      preset.baseRewardPerIncrement totals.activeCurrent))

/-- Rates that divide such base rewards by the active stake. -/
structure FlagRates.ComesFrom (rates : FlagRates) (config : Config) (preset : Preset)
    (totals : Totals) : Prop where
  sameTotals : rates.totals = totals
  rewardDivisor : rates.rewardDivisor =
    rates.totals.activeCurrent / rates.preset.effectiveBalanceIncrement * weightDenominator
  baseReward : ∀ record,
    Gives (config.flagBaseReward preset totals record) (rates.baseReward record)

theorem Chain.flagRates_comesFrom {preset : Preset} (chain : Chain preset) (config : Config)
    (phase : Phase) (totals : Totals) :
    Sound (fun _ => True) (·.ComesFrom config preset totals)
      (chain.flagRates config phase totals) := by
  refine Sound.bind (GweiSum.checked_gives _) ?_
  rintro rewardDivisor divisor
  refine (Sound.any _).bind fun inactivityDivisor _ => .pure ⟨rfl, divisor, fun record => ?_⟩
  exact (GweiSum.checked_gives _).bind (.pure rfl)

theorem Record.unslashed_of_flagVote {record : Record} {totals : Totals} {flag : Nat}
    (counts : (record.flagVote totals flag).1 = true) : record.slashed = false := by
  unfold Record.flagVote at counts
  grind

namespace FlagRates

variable {rates : FlagRates} {config : Config} {preset : Preset} {totals : Totals}

/-- A flag earns its weight of a base reward at most, and nothing for a slashed validator. -/
theorem flagReward_le (source : rates.ComesFrom config preset totals)
    (parts : totals.PartsOfActive) (record : Record) (baseReward : Gwei) (flag weight : Nat) :
    Sound (fun _ => True)
      (· ≤ if record.slashed then 0 else baseReward.toNat * weight / weightDenominator)
      (rates.flagReward record baseReward flag weight) := by
  by_cases earned : ((record.flagVote rates.totals flag).1 && !rates.leaking) = true
  case neg =>
    simp only [flagReward, if_neg earned]
    exact Nat.zero_le _
  case pos =>
    simp only [flagReward, if_pos earned]
    rw [Record.unslashed_of_flagVote (Bool.and_eq_true_iff.mp earned).1, source.rewardDivisor,
      source.sameTotals]
    have increments := Nat.div_le_div_right (c := rates.preset.effectiveBalanceIncrement)
      (record.flagVote_le parts.source parts.target parts.head flag)
    refine Sound.bind (GweiSum.checked_gives _) ?_
    rintro product rfl
    refine .pure ?_
    rcases Nat.eq_zero_or_pos (totals.activeCurrent / rates.preset.effectiveBalanceIncrement) with
      none_active | some_active
    · rw [none_active, Nat.zero_mul, Nat.div_zero]
      exact Nat.zero_le _
    · calc
        _ ≤ baseReward.toNat * weight *
              (totals.activeCurrent / rates.preset.effectiveBalanceIncrement) /
            (totals.activeCurrent / rates.preset.effectiveBalanceIncrement * weightDenominator) :=
          Nat.div_le_div_right (Nat.mul_le_mul_left _ increments)
        _ = baseReward.toNat * weight / weightDenominator := by
          rw [Nat.mul_comm (baseReward.toNat * weight)]
          exact Nat.mul_div_mul_left _ _ some_active

/-- All flags of an eligible validator earn all the weights of a base reward at most. -/
theorem delta_le (source : rates.ComesFrom config preset totals) (parts : totals.PartsOfActive)
    (record : Record) :
    Sound (fun _ => True)
      (fun delta => delta.reward.toNat ≤
        if !record.slashed && record.eligible then
          54 * (config.flagBaseReward preset totals record).toNat / weightDenominator
        else 0)
      (rates.delta record) := by
  have each : ∀ baseReward, baseReward = config.flagBaseReward preset totals record →
      ∀ entry : Nat × Nat, Sound (fun _ => True)
        (· ≤ if record.slashed then 0 else
          (config.flagBaseReward preset totals record).toNat * entry.2 / weightDenominator)
        (rates.flagReward record baseReward entry.1 entry.2) := by
    rintro _ rfl entry
    exact flagReward_le source parts record _ entry.1 entry.2
  refine (delta_reward_le record (source.baseReward record) each).mono fun delta le => ?_
  refine Nat.le_trans le ?_
  cases record.slashed <;> cases record.eligible
  case false.true =>
    simp only [participationWeights, List.map_cons, List.map_nil, List.sum_cons, List.sum_nil,
      Bool.false_eq_true, if_false, Bool.not_false, Bool.and_true, if_true, weightDenominator]
    omega
  all_goals exact Nat.le_refl 0

end FlagRates

/-- **The rewards of Altair and later.** They sum up to no more than the weights of all flags for
every unslashed validator that is eligible. -/
theorem Chain.flagDeltas_le {preset : Preset} {chain : Chain preset} {config : Config}
    {phase : Phase} {tally : Tally} (parts : tally.totals.PartsOfActive) :
    Sound (fun _ => True)
      (fun deltas => totalRewards deltas ≤
        sumOver tally.records (fun record => !record.slashed && record.eligible) fun record =>
          54 * (config.flagBaseReward preset tally.totals record).toNat / weightDenominator)
      (chain.flagDeltas config phase tally) := by
  unfold flagDeltas
  split
  · have nothing : totalRewards (tally.records.map fun _ => {}) = 0 := by simp [totalRewards]
    exact Nat.le_trans (Nat.le_of_eq nothing) (Nat.zero_le _)
  · refine (chain.flagRates_comesFrom config phase tally.totals).bind fun rates source => ?_
    refine (Sound.mapM_forall₂ _ fun record _ =>
      FlagRates.delta_le source parts record).mono fun deltas each => ?_
    unfold totalRewards sumOver
    refine List.Forall₂.sum_le_sum ?_
    rw [List.forall₂_map_left_iff, List.forall₂_map_right_iff]
    exact each.flip

/-! ## All phases -/

namespace Chain

variable {preset : Preset} (chain : Chain preset)

/-- **Issuance is capped by base rewards.** Let the stake behind each vote for the previous epoch be
a part of the active stake. Where an epoch of Phase 0 finds deltas, all rewards together, those of
proposers included, are no more than four base rewards for every unslashed validator. It does find
them if records name proposers of the registry. From Altair on there are deltas for all records, and
all rewards together are no more than `54 / 64` of a base reward, rounded down for each, for every
unslashed validator that is eligible. -/
theorem issuance_capped (config : Config) {tally : Tally} (parts : tally.totals.PartsOfActive) :
    (∀ deltas, chain.epochDeltas config tally = .ok deltas →
      totalRewards deltas ≤ baseRewardsPerEpoch *
        sumOver tally.records (fun record => !record.slashed) fun record =>
          (config.pendingBaseReward preset tally.totals record).toNat) ∧
    (RecordsFit tally.records.size tally.records →
      ∃ deltas, chain.epochDeltas config tally = .ok deltas ∧
        deltas.size = tally.records.size) ∧
    ∀ phase : FlagPhase, ∃ deltas, chain.flagDeltas config phase.toPhase tally = .ok deltas ∧
      deltas.size = tally.records.size ∧
      totalRewards deltas ≤
        sumOver tally.records (fun record => !record.slashed && record.eligible) fun record =>
          54 * (config.flagBaseReward preset tally.totals record).toNat / weightDenominator := by
  refine ⟨?pending, ?found, fun phase => ?flags⟩
  case pending =>
    intro deltas found
    exact (epochDeltas_le parts).met_of_eq_ok found
  case found =>
    intro fit
    exact Sound.found (epochDeltas_found config parts.moderate fit)
  case flags =>
    obtain ⟨deltas, found, size⟩ :=
      Sound.found (chain.flagDeltas_sound config phase.toPhase parts.moderate)
    exact ⟨deltas, found, size, (flagDeltas_le parts).met_of_eq_ok found⟩

/-- A chain in its second epoch. -/
def inSecondEpoch : Chain .minimal := { Chain.empty .minimal with slot := 15 }

/-- Records of a validator that has done all that it could, of one that is late, and of a slashed
one that has included the vote of the first. -/
def threeVoters : Tally where
  records := #[
    { effectiveBalance := 32000000000, activePrevious := true, previousAttester := true,
      previousSourceAttester := true, previousTargetAttester := true, previousHeadAttester := true,
      inclusionDistance := 1, proposerIndex := 2 },
    { effectiveBalance := 17000000000, activePrevious := true, previousAttester := true,
      previousSourceAttester := true, previousTargetAttester := true, inclusionDistance := 3 },
    { effectiveBalance := 32000000000, slashed := true, previousAttester := true }]
  totals :=
    { activeCurrent := 49000000000, previousAttested := 49000000000,
      previousTargetAttested := 49000000000, previousHeadAttested := 32000000000 }

theorem issuance_capped_threeVoters :
    threeVoters.totals.PartsOfActive ∧ RecordsFit 3 threeVoters.records ∧
      (∃ deltas, inSecondEpoch.epochDeltas Config.minimal threeVoters = .ok deltas ∧
        totalRewards deltas = 11419006 ∧ totalRewards deltas ≤ 14167028) ∧
      ∃ deltas, inSecondEpoch.flagDeltas Config.minimal .altair threeVoters = .ok deltas ∧
        totalRewards deltas = 10176096 ∧ totalRewards deltas ≤ 11953429 := by
  have parts : threeVoters.totals.PartsOfActive := by constructor <;> decide
  have fit : RecordsFit 3 threeVoters.records := ⟨rfl, by decide⟩
  have pendingCap : baseRewardsPerEpoch *
      (sumOver threeVoters.records (fun record => !record.slashed) fun record =>
        (Config.minimal.pendingBaseReward .minimal threeVoters.totals record).toNat) =
      14167028 := by decide +kernel
  have flagCap :
      (sumOver threeVoters.records (fun record => !record.slashed && record.eligible) fun record =>
        54 * (Config.minimal.flagBaseReward .minimal threeVoters.totals record).toNat /
          weightDenominator) = 11953429 := by decide +kernel
  obtain ⟨capped, found, flags⟩ := issuance_capped inSecondEpoch Config.minimal parts
  obtain ⟨pending, ran, -⟩ := found fit
  obtain ⟨flagged, ran', -, capped'⟩ := flags .altair
  have paid : (inSecondEpoch.epochDeltas Config.minimal threeVoters).toOption.map totalRewards =
      some 11419006 := by decide +kernel
  have paid' : (inSecondEpoch.flagDeltas Config.minimal .altair threeVoters).toOption.map
      totalRewards = some 10176096 := by decide +kernel
  rw [ran] at paid
  rw [show FlagPhase.altair.toPhase = .altair from rfl] at ran'
  rw [ran'] at paid'
  exact ⟨parts, fit, ⟨pending, ran, Option.some.inj paid, pendingCap ▸ capped pending ran⟩,
    flagged, ran', Option.some.inj paid', flagCap ▸ capped'⟩

end Chain

end BeaconEpoch
