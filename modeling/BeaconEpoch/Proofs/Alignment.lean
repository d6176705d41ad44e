import BeaconEpoch.Proofs.Progress.Walk
import BeaconEpoch.Proofs.Range.Walk

/-!
# Aligned walks

From Altair on a state has five lists with one entry per validator, and a walk keeps it that way. So
nothing goes wrong on the way but a sum that outgrows its word; and an inactivity score does not
outgrow its word either, if the bias is not too large and the score was not too high to begin with.

## Main definitions

* `FlagState.Aligned`: one entry per validator in all lists.
* `FlagState.ScoresAccrued`: scores that epochs up to now can have come to.
* `BeaconState.Flagged`: a state of Altair or later that is of some kind.

## Main statements

* `Chain.nextScores_within`: an epoch raises no score by more than the bias.
* `FlagState.Aligned.processFlags_leaves_of`: an epoch keeps states aligned.
* `FlagState.aligned_sustains`, `FlagState.accrued_sustains`: walks within a phase.
* `BeaconState.processSlots_aligned`: walks through all phases from Altair on.

## Design notes

* **Scores against the clock.** A score rises by the bias in an epoch at most, and with a bias of at
  most one unit per slot it never overtakes the slot, which is a word.
-/

namespace BeaconEpoch

/-! ## Scores -/

theorem Config.nextScore_le (config : Config) (leaking : Bool) {record : Record} {limit : Nat}
    (room : record.inactivityScore.toNat + config.scoreBias.val.toNat ≤ limit) :
    (config.nextScore leaking record).toNat ≤ limit := by
  have raised : (if record.missedTarget then record.inactivityScore + config.scoreBias.val
      else Word.subSat record.inactivityScore 1).toNat ≤ limit := by
    split
    · rw [UInt64.toNat_add]
      exact Nat.le_trans (Nat.mod_le ..) room
    · rw [Word.toNat_subSat]
      omega
  simp only [nextScore]
  split
  · exact raised
  · rw [Word.toNat_subSat]
    exact Nat.le_trans (Nat.sub_le ..) raised

/-- No new score is above a limit. -/
def ScoresAtMost (limit : Nat) (found : Option (Array InactivityScore)) : Prop :=
  ∀ new ∈ found, ∀ score ∈ new, score.toNat ≤ limit

/-- **An epoch raises no score by more than the bias,** and if there is room for that all new scores
are found. -/
theorem Chain.nextScores_within {preset : Preset} {allowed : Error → Prop} (chain : Chain preset)
    (config : Config) {scores : Array InactivityScore} {records : Array Record} {limit : Nat}
    (sizes : records.size = scores.size)
    (shown : ∀ record ∈ records, record.inactivityScore ∈ scores)
    (room : ∀ score ∈ scores, score.toNat + config.scoreBias.val.toNat ≤ limit)
    (fits : limit < 2 ^ 64) :
    Sound allowed (fun found => (∀ new ∈ found, new.size = records.size) ∧
        ScoresAtMost limit found)
      (chain.nextScores config scores records) := by
  unfold nextScores
  rw [if_pos sizes]
  split
  · exact ⟨nofun, nofun⟩
  split
  · rename_i index found
    obtain ⟨inside, overflows, -⟩ := Array.findIdx?_eq_some_iff_getElem.mp found
    have fits' := room _ (shown _ (Array.getElem_mem inside))
    simp only [Config.scoreOverflows, Bool.and_eq_true, decide_eq_true_eq] at overflows
    omega
  · refine ⟨?_, ?_⟩ <;> rintro _ ⟨⟩
    · rw [Array.size_zipWith, ← sizes, Nat.min_self]
    · intro score listed
      obtain ⟨index, inside, rfl⟩ := Array.getElem_of_mem listed
      rw [Array.size_zipWith] at inside
      have old := room _ (Array.getElem_mem (show index < scores.size by omega))
      rw [Array.getElem_zipWith]
      split
      · exact config.nextScore_le _ (room _ (shown _ (Array.getElem_mem _)))
      · omega

/-! ## Aligned states -/

/-- A bounded state of Altair or later with one entry per validator in all lists. -/
structure FlagState.Aligned {preset : Preset} (state : FlagState preset) : Prop
    extends State.Bounded state where
  balances : state.chain.balances.size = state.chain.validators.size
  votes : state.votes.Fit state.chain.validators.size

namespace FlagState

variable {preset : Preset}

/-- No score is above a limit. -/
def ScoresWithin (limit : Nat) (state : FlagState preset) : Prop :=
  ∀ score ∈ state.votes.inactivityScores, score.toNat ≤ limit

/-- No score is above what all epochs up to now can have added to it. -/
def ScoresAccrued (config : Config) (state : FlagState preset) : Prop :=
  ScoresWithin (config.scoreBias.val.toNat * state.chain.currentEpoch.toNat) state

variable {state : FlagState preset} {slot : Slot} {config : Config} {phase : Phase}

theorem Aligned.movedTo (aligned : state.Aligned)
    (later : slot.toNat = state.chain.slot.toNat + 1) :
    FlagState.Aligned (State.movedTo slot state) where
  toBounded := aligned.toBounded.movedTo later
  balances := aligned.balances
  votes := aligned.votes

/-- **An epoch keeps states aligned.** Where plans are found it fails only when a balance outgrows
its word or as its plan does. -/
theorem Aligned.processFlags_leaves_of (aligned : state.Aligned) (phase : Phase)
    (allowed : Error → Prop) (post : Option (Array InactivityScore) → Prop)
    (overflow : allowed .balanceOverflow)
    (finds : state.chain.Finds allowed
      (fun plan => plan.Fits state.chain.validators.size ∧ post plan.scores)
      (state.chain.planFlags config phase false state.votes)) :
    Step.Leaves allowed
      (fun final => FlagState.Aligned final ∧
        final.chain.currentEpoch = state.chain.currentEpoch ∧
        ∃ scores, post scores ∧
          final.votes.inactivityScores = (state.votes.withScores scores).inactivityScores)
      (fun final => FlagState.Aligned final ∧ ∃ cache, final = { state with cache })
      (State.processFlags config phase false state) := by
  have safe := State.processFlags_safe config phase false state aligned.toBounded
  cases ran : State.processFlags config phase false state with
  | ok report final =>
    obtain ⟨bounded, -⟩ := safe.of_ok ran
    obtain ⟨plan, cache, planned, only, votes⟩ := State.processFlags_eq_ok ran
    obtain ⟨-, fits, met⟩ := (finds state.cache aligned.cache).of_ok planned
    have same := only.sameDuties
    have fit : final.votes.Fit final.chain.validators.size := by
      rw [votes, same.validators]
      exact (aligned.votes.withScores fits.scores).rotate
    refine ⟨⟨bounded, ?_, fit⟩, same.currentEpoch, plan.scores, met, by rw [votes]; rfl⟩
    obtain ⟨balances, size, equal⟩ := only
    rw [equal]
    exact size.trans aligned.balances
  | error e final =>
    obtain ⟨outgrown, cache, still, rfl⟩ := State.allowed_of_ask_conclude_eq_error
      (·.planFlags config phase false state.votes) overflow aligned.balances aligned.cache
      (Chain.planFlags_hasAnswer config phase false state.votes)
      (finds.mono fun _ => And.left) ran (safe.of_error ran)
    exact ⟨outgrown, ⟨⟨aligned.chain, still⟩, aligned.balances, aligned.votes⟩, cache, rfl⟩

/-! ## Within a phase -/

theorem aligned_sustains (config : Config) (phase : Phase) :
    State.Sustains Error.IsOutgrown
      (State.processFlags config phase false : Step (FlagState preset) Report)
      FlagState.Aligned FlagState.Aligned FlagState.Aligned where
  epoch {state _} aligned _ _ := by
    have finds := Chain.planFlags_finds aligned.chain config phase aligned.votes
    have leaves := aligned.processFlags_leaves_of phase Error.IsOutgrown (fun _ => True)
      balanceOverflow_isOutgrown (finds.mono fun _ fits => ⟨fits, trivial⟩)
    exact leaves.mono (fun _ => And.left) fun _ => And.left
  keepsSlot := BeaconState.flags_keepsSlot
  start aligned later _ := aligned.movedTo later
  inside aligned later _ := aligned.movedTo later

/-- The plan of an epoch is found if there is room for the bias above all scores. -/
theorem Aligned.planFlags_finds_within {allowed : Error → Prop} (aligned : state.Aligned)
    {limit : Nat}
    (room : ∀ score ∈ state.votes.inactivityScores,
      score.toNat + config.scoreBias.val.toNat ≤ limit) (fits : limit < 2 ^ 64) :
    state.chain.Finds allowed
      (fun plan => plan.Fits state.chain.validators.size ∧ ScoresAtMost limit plan.scores)
      (state.chain.planFlags config phase false state.votes) :=
  Chain.planFlags_finds_of_scores aligned.chain config phase aligned.votes
    fun _ sizes shown => state.chain.nextScores_within config sizes shown room fits

/-- **A score never overtakes the clock.** At the end of an epoch the next slot is a word, and it is
at least the bias times the number of epochs. -/
theorem accrued_lt_of_isEpochStart (mild : config.scoreBias.val ≤ preset.slotsPerEpoch)
    (later : slot.toNat = state.chain.slot.toNat + 1) (start : preset.isEpochStart slot = true) :
    config.scoreBias.val.toNat * (state.chain.currentEpoch.toNat + 1) < 2 ^ 64 := by
  have next : (preset.epochAt slot).toNat = state.chain.currentEpoch.toNat + 1 :=
    Preset.toNat_epochAt_of_isEpochStart later start
  calc
    _ ≤ preset.slotsPerEpoch.toNat * (preset.epochAt slot).toNat := by
      rw [next]
      exact Nat.mul_le_mul_right _ (UInt64.le_iff_toNat_le.mp mild)
    _ ≤ slot.toNat := by
      rw [Preset.toNat_epochAt]
      exact Nat.mul_div_le ..
    _ < 2 ^ 64 := slot.toNat_lt

/-- With a bias of at most one unit per slot epochs fail only when a balance outgrows its word. -/
theorem accrued_sustains {config : Config} (mild : config.scoreBias.val ≤ preset.slotsPerEpoch)
    (phase : Phase) :
    State.Sustains (· = .balanceOverflow)
      (State.processFlags config phase false : Step (FlagState preset) Report)
      (fun state => FlagState.Aligned state ∧ FlagState.ScoresAccrued config state)
      (fun state => FlagState.Aligned state ∧
        FlagState.ScoresWithin
          (config.scoreBias.val.toNat * (state.chain.currentEpoch.toNat + 1)) state)
      (fun state => FlagState.Aligned state ∧ FlagState.ScoresAccrued config state) where
  epoch {state slot} holds later start := by
    obtain ⟨aligned, accrued⟩ := holds
    have room (score : InactivityScore) (listed : score ∈ state.votes.inactivityScores) :
        score.toNat + config.scoreBias.val.toNat ≤
          config.scoreBias.val.toNat * (state.chain.currentEpoch.toNat + 1) := by
      rw [Nat.mul_succ]
      exact Nat.add_le_add_right (accrued score listed) _
    have leaves := aligned.processFlags_leaves_of phase (· = .balanceOverflow) (ScoresAtMost _) rfl
      (aligned.planFlags_finds_within room (accrued_lt_of_isEpochStart mild later start))
    refine leaves.mono ?_ ?_
    · rintro final ⟨still, same, scores, within, shown⟩
      refine ⟨still, ?_⟩
      rw [same, ScoresWithin, shown]
      cases scores with
      | none => exact fun score listed => Nat.le_trans (Nat.le_add_right ..) (room score listed)
      | some new => exact within new rfl
    · rintro final ⟨still, cache, rfl⟩
      exact ⟨still, accrued⟩
  keepsSlot := BeaconState.flags_keepsSlot
  start {state slot} holds later start := by
    have next : (preset.epochAt slot).toNat = state.chain.currentEpoch.toNat + 1 :=
      Preset.toNat_epochAt_of_isEpochStart later start
    refine ⟨holds.1.movedTo later, ?_⟩
    have within := holds.2
    rwa [← next] at within
  inside {state slot} holds later inside := by
    have same : preset.epochAt slot = state.chain.currentEpoch :=
      Preset.epochAt_of_not_isEpochStart later inside
    refine ⟨holds.1.movedTo later, ?_⟩
    have within := holds.2
    rwa [ScoresAccrued, ← same] at within

end FlagState

/-! ## Through all phases from Altair on -/

namespace BeaconState

variable {preset : Preset}

/-- A state of Altair or later of some kind. -/
def Flagged (kind : FlagState preset → Prop) : BeaconState preset → Prop
  | .pending _ => False
  | .flagged _ state => kind state

/-- From Altair on upgrades only rename, so what epochs sustain all phases sustain. -/
theorem flagged_sustains {allowed : Error → Prop} {config : Config}
    {kind closed : FlagState preset → Prop}
    (sustains : ∀ phase,
      State.Sustains allowed (State.processFlags config phase false) kind closed kind) :
    Sustains allowed config (Flagged kind) (Flagged kind) where
  pending := ⟨fun _ => False, nofun, pending_keepsSlot, nofun, nofun⟩
  flagged phase := ⟨closed, sustains phase.toPhase⟩
  upgrade next state holds := by
    cases state with
    | pending state => exact holds.elim
    | flagged phase state => exact holds
  keep holds := holds

theorem flagged_processSlots_leaves {allowed : Error → Prop} {config : Config}
    {kind closed : FlagState preset → Prop}
    (sustains : ∀ phase,
      State.Sustains allowed (State.processFlags config phase false) kind closed kind)
    (phase : FlagPhase) {target : Slot} (journal : Array Event) {state : FlagState preset}
    (holds : kind state) (later : state.chain.slot < target) :
    Step.Leaves allowed (fun final => final.state.Flagged kind)
      (fun final => final.state.Flagged kind)
      (processSlots config target ⟨.flagged phase state, journal⟩) := by
  let start : Run (BeaconState preset) := ⟨.flagged phase state, journal⟩
  have fits : start.state.Flagged kind := holds
  exact (flagged_sustains sustains).processSlots_leaves fits later

theorem Flagged.mono {kind weaker : FlagState preset → Prop} {state : BeaconState preset}
    (holds : state.Flagged kind) (weaken : ∀ state, kind state → weaker state) :
    state.Flagged weaker := by
  cases state with
  | pending state => exact holds
  | flagged phase state => exact weaken state holds

/-- **From Altair on states stay aligned,** and nothing goes wrong but an overflow. Let a bounded
state of Altair or later with a coherent cache have one entry per validator in all lists. Then a
walk to any later slot, over any number of epochs and forks, fails only when a balance or an
inactivity score has outgrown its word, and the state that it leaves is such a state again, whether
it succeeds or fails. If moreover the bias is at most one unit per slot, and no score is above the
bias times the current epoch, then no score outgrows its word, however late the target is, and no
score of the state that is left is above the bias times the current epoch there. -/
theorem processSlots_aligned (config : Config) (phase : FlagPhase) (target : Slot)
    (journal : Array Event) {state : FlagState preset} (aligned : state.Aligned)
    (later : state.chain.slot < target) :
    ((∀ final, processSlots config target ⟨.flagged phase state, journal⟩ = .ok () final →
        final.state.Flagged FlagState.Aligned) ∧
      ∀ e final, processSlots config target ⟨.flagged phase state, journal⟩ = .error e final →
        (e = .balanceOverflow ∨ ∃ index, e = .scoreOverflow index) ∧
          final.state.Flagged FlagState.Aligned) ∧
    (config.scoreBias.val ≤ preset.slotsPerEpoch → state.ScoresAccrued config →
      (∀ final, processSlots config target ⟨.flagged phase state, journal⟩ = .ok () final →
          final.state.Flagged (FlagState.ScoresAccrued config)) ∧
        ∀ e final, processSlots config target ⟨.flagged phase state, journal⟩ = .error e final →
          e = .balanceOverflow ∧ final.state.Flagged (FlagState.ScoresAccrued config)) := by
  have leaves := flagged_processSlots_leaves
    (fun phase => FlagState.aligned_sustains config phase) phase journal aligned later
  refine ⟨⟨fun final ran => leaves.of_ok ran, fun e final failed => leaves.of_error failed⟩, ?_⟩
  intro mild accrued
  have leaves := flagged_processSlots_leaves
    (fun phase => FlagState.accrued_sustains mild phase) phase journal ⟨aligned, accrued⟩ later
  refine ⟨fun final ran => (leaves.of_ok ran).mono fun _ => And.right, fun e final failed => ?_⟩
  obtain ⟨overflow, kept⟩ := leaves.of_error failed
  exact ⟨overflow, kept.mono fun _ => And.right⟩

/-- A state in the last epoch but one, with the largest bias for which scores cannot overtake the
slot, and with a score that is as high as it can have become. -/
def nearlyLast : FlagState .minimal where
  chain := { Chain.empty .minimal with
    slot := 18446744073709551607
    validators := #[⟨32000000000, false, 0, 0, farFutureEpoch, farFutureEpoch⟩]
    balances := #[32000000000] }
  votes := ⟨#[0], #[0], #[18446744073709551600]⟩

/-- A schedule whose bias is one unit per slot. -/
def unitBias : Config := { Config.minimal with scoreBias := ⟨8, by decide⟩ }

theorem nearlyLast_aligned : FlagState.Aligned nearlyLast where
  chain := ⟨by decide, by decide⟩
  cache := Cache.CoherentWith.empty _
  balances := by decide
  votes := ⟨by decide, by decide, by decide⟩

theorem nearlyLast_accrued : FlagState.ScoresAccrued unitBias nearlyLast := by
  intro score listed
  obtain rfl := Array.mem_singleton.mp listed
  decide

theorem processSlots_aligned_nearlyLast :
    FlagState.Aligned nearlyLast ∧ FlagState.ScoresAccrued unitBias nearlyLast ∧
      (∀ final, processSlots unitBias Word.max ⟨.flagged .capella nearlyLast, #[]⟩ = .ok () final →
          final.state.Flagged (FlagState.ScoresAccrued unitBias)) ∧
        ∀ e final, processSlots unitBias Word.max ⟨.flagged .capella nearlyLast, #[]⟩ =
          .error e final →
            e = .balanceOverflow ∧ final.state.Flagged (FlagState.ScoresAccrued unitBias) :=
  ⟨nearlyLast_aligned, nearlyLast_accrued,
    (processSlots_aligned unitBias .capella Word.max #[] nearlyLast_aligned (by decide)).2
      (by decide) nearlyLast_accrued⟩

end BeaconState

end BeaconEpoch
