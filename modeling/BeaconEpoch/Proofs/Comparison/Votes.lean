import BeaconEpoch.Proofs.Comparison.Epoch
import Mathlib.Algebra.Order.BigOperators.Group.List

/-!
# More votes never hurt

If some validators had voted for more in the previous epoch, then nobody would be worse off, neither
they themselves nor anybody else.

## Main definitions

* `Record.KeenerThan`: a record with more votes, and no higher a score.
* `Comparison.moreVotes`: two epochs, the second of which has more votes.
* `FlagState.MoreVotes`: two states, the second of which has more flags for the previous epoch.
* `NobodyWorse`: what more votes lead to.

## Main statements

* `Totals.countVotes_moreVotes`: more votes have more stake behind them.
* `Config.nextScore_moreVotes`: scores do not get higher.
* `FlagRates.delta_moreVotes`: rewards do not get smaller, and penalties do not get larger.
* `State.processFlags_moreVotes`: whole epochs.

## Design notes

* **Only successes are compared.** A larger total or a larger reward may not fit its word where the
  smaller one did, so that more votes can make an epoch fail.
* **Active stake does not move.** It divides rewards, but votes have no part in it; the stake behind
  a flag stands above the line only.
-/

namespace BeaconEpoch

/-! ## Records -/

/-- The second record has at least the votes of the first one and at most its score, and is about
the same validator. -/
structure Record.KeenerThan (other record : Record) : Prop where
  effectiveBalance : other.effectiveBalance = record.effectiveBalance
  slashed : other.slashed = record.slashed
  withdrawable : other.withdrawable = record.withdrawable
  activePrevious : other.activePrevious = record.activePrevious
  attested : ∀ phase category, record.attested phase category = true →
    other.attested phase category = true
  score : other.inactivityScore ≤ record.inactivityScore

namespace Record.KeenerThan

variable {record other : Record} (keener : other.KeenerThan record)

include keener

theorem eligible : other.eligible = record.eligible := by
  simp only [Record.eligible, keener.activePrevious, keener.slashed, keener.withdrawable]

theorem target (voted : record.previousTargetAttester = true) :
    other.previousTargetAttester = true := keener.attested .altair .previousEpochTarget voted

theorem missedTarget (missed : other.missedTarget = true) : record.missedTarget = true := by
  have target := keener.target
  simp only [Record.missedTarget, keener.slashed, Bool.or_eq_true, Bool.not_eq_true'] at missed ⊢
  grind

/-- A flag that counts for the first record counts for the second one. -/
theorem flagVote {totals totals' : Totals} {flag : Nat}
    (counts : (record.flagVote totals flag).1 = true) :
    (other.flagVote totals' flag).1 = true := by
  have source := keener.attested .altair .previousEpoch
  have target := keener.target
  have head := keener.attested .altair .previousEpochHead
  simp only [Record.attested] at source head
  simp only [Record.flagVote, keener.slashed] at counts ⊢
  grind

end Record.KeenerThan

/-- More flags for the previous epoch make a record with more votes. -/
theorem Record.keener_readFlags (record : Record) {previous previous' : ParticipationFlags}
    (current : ParticipationFlags)
    (more : ∀ flag ≤ timelyHeadFlag, hasFlag previous flag = true → hasFlag previous' flag = true) :
    (record.readFlags previous' current).KeenerThan (record.readFlags previous current) := by
  refine ⟨rfl, rfl, rfl, rfl, ?_, UInt64.le_refl _⟩
  have grows {seen active : Bool} {flag : Nat} (known : flag ≤ timelyHeadFlag)
      (voted : (seen || (active && hasFlag previous flag)) = true) :
      (seen || (active && hasFlag previous' flag)) = true := by
    rw [Bool.or_eq_true, Bool.and_eq_true] at voted ⊢
    exact voted.imp_right (And.imp_right (more flag known))
  intro phase category voted
  cases category with
  | currentEpoch => exact voted
  | currentEpochTarget => exact voted
  | previousEpochTarget => exact grows (by decide) voted
  | previousEpochHead => exact grows (Nat.le_refl _) voted
  | previousEpoch =>
    cases phase
    case phase0 =>
      -- a vote for the source or for the target
      have source := more timelySourceFlag (by decide)
      have target := more timelyTargetFlag (by decide)
      simp only [attested, readFlags] at voted ⊢
      grind
    all_goals exact grows (by decide) voted

/-! ## Totals -/

namespace Totals

/-- The second totals have at least as much stake behind every kind of vote. -/
structure MoreVotes (totals other : Totals) : Prop where
  activeCurrent : other.activeCurrent = totals.activeCurrent
  attested : ∀ category, totals.attested category ≤ other.attested category

theorem MoreVotes.flagVote {totals other : Totals} (more : totals.MoreVotes other)
    (record record' : Record) (flag : Nat) :
    (record.flagVote totals flag).2 ≤ (record'.flagVote other flag).2 := by
  have source := more.attested .previousEpoch
  have target := more.attested .previousEpochTarget
  have head := more.attested .previousEpochHead
  simp only [Record.flagVote]
  split
  · exact source
  · split
    · exact target
    · exact head

/-- **More votes have more stake behind them.** -/
theorem countVotes_moreVotes {preset : Preset} {phase : Phase} {count : Nat}
    {record record' : Fin count → Record} (totals : Totals)
    (keener : ∀ index, (record' index).KeenerThan (record index)) :
    Tied .loose MoreVotes (totals.countVotes preset phase (Array.ofFn record))
      (totals.countVotes preset phase (Array.ofFn record')) := by
  refine Tied.loose fun counted counted' found found' => ?_
  rw [eq_of_countVotes found, eq_of_countVotes found']
  constructor
  · show max _ (addVotes ..).activeCurrent = max _ (addVotes ..).activeCurrent
    rw [(active_addVotes ..).1, (active_addVotes ..).1]
  · intro category
    rw [attested_floor, attested_floor, attested_addVotes, attested_addVotes]
    refine max_le_max_left _ (Nat.add_le_add_left ?_ _)
    simp only [(keener _).effectiveBalance, (keener _).slashed]
    refine Finset.sum_le_sum_of_subset ?_
    refine Finset.monotone_filter_right _ fun index _ counts => ?_
    simp only [Bool.and_eq_true] at counts ⊢
    exact ⟨counts.1, (keener index).attested phase category counts.2⟩

end Totals

/-! ## Scores -/

/-- **Scores do not get higher.** -/
theorem Config.nextScore_moreVotes {config : Config} (leaking : Bool) {record record' : Record}
    (keener : record'.KeenerThan record) (eligible : record.eligible = true)
    (fits : ¬config.scoreOverflows record = true) (fits' : ¬config.scoreOverflows record' = true) :
    config.nextScore leaking record' ≤ config.nextScore leaking record := by
  have eligible' : record'.eligible = true := keener.eligible.trans eligible
  rw [UInt64.le_iff_toNat_le, toNat_nextScore leaking eligible fits,
    toNat_nextScore leaking eligible' fits']
  refine Nat.sub_le_sub_right ?_ _
  have before := UInt64.le_iff_toNat_le.mp keener.score
  cases missed' : record'.missedTarget with
  | true =>
    -- who misses the target with more votes misses it with fewer
    rw [keener.missedTarget missed']
    exact Nat.add_le_add_right before _
  | false =>
    cases record.missedTarget with
    | true => exact Nat.le_trans (Nat.sub_le ..) (Nat.le_trans before (Nat.le_add_right ..))
    | false => exact Nat.sub_le_sub_right before 1

/-! ## Deltas -/

namespace FlagRates

variable {rates : FlagRates} {totals : Totals} {record record' : Record}

/-- The same rates for other totals. -/
abbrev withTotals (rates : FlagRates) (totals : Totals) : FlagRates := { rates with totals }

/-- Rewards for votes do not get smaller. -/
theorem flagReward_moreVotes (more : rates.totals.MoreVotes totals)
    (keener : record'.KeenerThan record) (baseReward : Gwei) (flag weight : Nat) :
    Tied .loose (· ≤ ·) (rates.flagReward record baseReward flag weight)
      ((rates.withTotals totals).flagReward record' baseReward flag weight) := by
  have counts : (record.flagVote rates.totals flag).1 = true →
      (record'.flagVote totals flag).1 = true := keener.flagVote
  have stake := more.flagVote record record' flag
  simp only [flagReward]
  cases voted : (record.flagVote rates.totals flag).1 with
  | false => exact Tied.ok_left Nat.zero_le
  | true =>
    rw [counts voted]
    split
    · have product : baseReward.toNat * weight *
            ((record.flagVote rates.totals flag).2 / rates.preset.effectiveBalanceIncrement) ≤
          baseReward.toNat * weight *
            ((record'.flagVote totals flag).2 / rates.preset.effectiveBalanceIncrement) :=
        Nat.mul_le_mul_left _ (Nat.div_le_div_right stake)
      refine Tied.bind (Tied.checked product) fun product product' le => ?_
      exact Nat.div_le_div_right le
    · exact Nat.le_refl 0

/-- Penalties for missing votes do not get larger. -/
theorem flagPenalty_moreVotes (rates : FlagRates) (totals : Totals)
    (keener : record'.KeenerThan record) (baseReward : Gwei) (flag weight : Nat) :
    Tied .loose (· ≥ ·) (rates.flagPenalty record baseReward flag weight)
      ((rates.withTotals totals).flagPenalty record' baseReward flag weight) := by
  have counts : (record.flagVote rates.totals flag).1 = true →
      (record'.flagVote totals flag).1 = true := keener.flagVote
  simp only [flagPenalty]
  cases voted' : (record'.flagVote totals flag).1 || flag == timelyHeadFlag with
  | true => exact Tied.ok_right Nat.zero_le
  | false =>
    have voted : ((record.flagVote rates.totals flag).1 || flag == timelyHeadFlag) = false := by
      simp only [Bool.or_eq_false_iff] at voted' ⊢
      exact ⟨Bool.eq_false_iff.mpr (mt counts (Bool.eq_false_iff.mp voted'.1)), voted'.2⟩
    rw [voted]
    exact (Tied.refl .loose _).mono fun penalty _ equal => equal.ge

/-- Penalties for inactivity do not get larger. -/
theorem inactivityPenalty_moreVotes (keener : record'.KeenerThan record) :
    Tied .loose (· ≥ ·) (rates.inactivityPenalty record)
      ((rates.withTotals totals).inactivityPenalty record') := by
  have missed := keener.missedTarget
  unfold Record.missedTarget at missed
  simp only [inactivityPenalty]
  cases missed' : !record'.previousTargetAttester || record'.slashed with
  | false => exact Tied.ok_right Nat.zero_le
  | true =>
    rw [missed missed', keener.effectiveBalance]
    have product : record.effectiveBalance.toNat * record'.inactivityScore.toNat ≤
        record.effectiveBalance.toNat * record.inactivityScore.toNat :=
      Nat.mul_le_mul_left _ (UInt64.le_iff_toNat_le.mp keener.score)
    have stake : Tied .loose (· ≥ ·)
        (GweiSum.checked (record.effectiveBalance.toNat * record.inactivityScore.toNat))
        (GweiSum.checked (record.effectiveBalance.toNat * record'.inactivityScore.toNat)) :=
      Tied.checked product
    refine stake.bind fun product product' le => ?_
    simp only [quotient]
    split
    · exact fun _ => rfl
    · exact Nat.div_le_div_right le

/-- **More votes, no smaller rewards and no larger penalties.** -/
theorem delta_moreVotes (more : rates.totals.MoreVotes totals)
    (keener : record'.KeenerThan record) :
    Tied .loose (fun delta delta' => delta.reward ≤ delta'.reward ∧ delta'.penalty ≤ delta.penalty)
      (rates.delta record) ((rates.withTotals totals).delta record') := by
  have base : (rates.withTotals totals).baseReward record' = rates.baseReward record := by
    simp only [baseReward, keener.effectiveBalance]
  simp only [delta, keener.eligible, base]
  split
  · exact ⟨UInt64.le_refl _, UInt64.le_refl _⟩
  refine (Tied.refl .loose (rates.baseReward record)).bind ?_
  rintro baseReward _ rfl
  have rewarded (entry : Nat × Nat) := flagReward_moreVotes more keener baseReward entry.1 entry.2
  refine (Tied.mapM_list (List.forall₂_same.mpr fun entry _ => rewarded entry)).bind ?_
  intro rewards rewards' raised
  refine (Tied.checked raised.sum_le_sum).bind ?_
  intro reward reward' raised
  have penalized (entry : Nat × Nat) :=
    flagPenalty_moreVotes rates totals keener baseReward entry.1 entry.2
  refine (Tied.mapM_list (List.forall₂_same.mpr fun entry _ => penalized entry)).bind ?_
  intro penalties penalties' lowered
  refine (inactivityPenalty_moreVotes keener).bind ?_
  intro inactivity inactivity' lowerInactivity
  have sums : penalties'.sum + inactivity' ≤ penalties.sum + inactivity :=
    Nat.add_le_add lowered.flip.sum_le_sum lowerInactivity
  have summed : Tied .loose (· ≥ ·) (GweiSum.checked (penalties.sum + inactivity))
      (GweiSum.checked (penalties'.sum + inactivity')) := Tied.checked sums
  refine summed.bind ?_
  intro penalty penalty' lowered
  exact ⟨Word.saturate_le_saturate raised, Word.saturate_le_saturate lowered⟩

end FlagRates

/-! ## Epochs -/

namespace Comparison

variable {preset : Preset} {config : Config} {phase : Phase}

/-- Two epochs, the second of which has more votes. -/
def moreVotes (count : Nat) : Comparison count where
  likeness := .loose
  order := .refl _
  record record record' := record'.KeenerThan record
  totals := Totals.MoreVotes
  score := (· ≥ ·)
  delta delta delta' := delta.reward ≤ delta'.reward ∧ delta'.penalty ≤ delta.penalty
  balance := (· ≤ ·)

theorem moreVotes_lawful {count : Nat} : (moreVotes count).Lawful preset config phase := by
  constructor
  case inOrder =>
    intro _
    rfl
  case countVotes =>
    intro record record' totals keener
    exact totals.countVotes_moreVotes keener
  case activeCurrent =>
    intro totals totals' more
    exact more.activeCurrent
  case eligible =>
    intro record record' keener
    exact keener.eligible
  case scoreOverflows => exact fun strict => absurd rfl strict
  case keepScore => exact UInt64.le_refl
  case nextScore =>
    intro leaking record record' keener
    exact config.nextScore_moreVotes leaking keener
  case withScore =>
    intro record record' score score' keener lower
    exact { keener with score := lower }
  case noDelta => exact ⟨UInt64.le_refl 0, UInt64.le_refl 0⟩
  case flagDelta =>
    intro rates totals record record' more keener
    exact FlagRates.delta_moreVotes more keener
  case fits => exact fun strict => absurd rfl strict
  case apply =>
    rintro delta delta' balance balance' ⟨reward, penalty⟩ richer fits fits'
    show delta.apply balance ≤ delta'.apply balance'
    have richer := UInt64.le_iff_toNat_le.mp richer
    have reward := UInt64.le_iff_toNat_le.mp reward
    have penalty := UInt64.le_iff_toNat_le.mp penalty
    rw [UInt64.le_iff_toNat_le, Delta.toNat_apply fits, Delta.toNat_apply fits']
    omega
  case noted =>
    intro record record' delta delta' balance balance' keener _ _
    exact { keener with }
  case decrease =>
    intro balance balance' amount richer
    show Gwei.decrease balance amount ≤ Gwei.decrease balance' amount
    rw [UInt64.le_iff_toNat_le, Gwei.toNat_decrease, Gwei.toNat_decrease]
    exact Nat.sub_le_sub_right (UInt64.le_iff_toNat_le.mp richer) _

end Comparison

/-! ## States -/

/-- Two states of the same chain, the second of which has at least the flags of the first one for
the previous epoch. -/
structure FlagState.MoreVotes {preset : Preset} (state other : FlagState preset) : Prop where
  chain : other.chain = state.chain
  scores : other.votes.inactivityScores = state.votes.inactivityScores
  current : other.votes.current = state.votes.current
  previous : ∀ validator : state.chain.Member, ∀ flag ≤ timelyHeadFlag,
    hasFlag (state.votes.previous.getD validator 0) flag = true →
      hasFlag (other.votes.previous.getD validator 0) flag = true

/-- More flags make records with more votes. -/
theorem FlagState.MoreVotes.keener {preset : Preset} {state other : FlagState preset}
    (more : state.MoreVotes other) (validator : state.chain.Member) :
    ((other.holdingAt validator).record state.chain.previousEpoch
        state.chain.currentEpoch).KeenerThan
      ((state.holdingAt validator).record state.chain.previousEpoch state.chain.currentEpoch) := by
  have current : (other.holdingAt validator).current = (state.holdingAt validator).current := by
    simp only [State.holdingAt, more.current]
  have flags : ∀ flag ≤ timelyHeadFlag, hasFlag (state.holdingAt validator).previous flag = true →
      hasFlag (other.holdingAt validator).previous flag = true := more.previous validator
  unfold Holding.record
  rw [State.blank_holdingAt more.chain more.scores, current]
  exact Record.keener_readFlags _ _ flags

/-- What one epoch reports and leaves is no worse for any of a number of validators than what
another one does. -/
structure NobodyWorse {preset : Preset} (count : Nat) (report : Report) (final : FlagState preset)
    (report' : Report) (final' : FlagState preset) : Prop where
  /-- Every list has one entry per validator. -/
  deltas_size : report.deltas.size = count ∧ report'.deltas.size = count
  balances_size : final.chain.balances.size = count ∧ final'.chain.balances.size = count
  scores_size :
    final.votes.inactivityScores.size = count ∧ final'.votes.inactivityScores.size = count
  rewards : ∀ validator : Fin count,
    (report.deltaOf validator).reward ≤ (report'.deltaOf validator).reward
  penalties : ∀ validator : Fin count,
    (report'.deltaOf validator).penalty ≤ (report.deltaOf validator).penalty
  slashingPenalties : report'.slashingPenalties = report.slashingPenalties
  balances : ∀ validator : Fin count,
    final.chain.balances.getD validator 0 ≤ final'.chain.balances.getD validator 0
  scores : ∀ validator : Fin count,
    final'.votes.inactivityScores.getD validator 0 ≤ final.votes.inactivityScores.getD validator 0

/-! ## Whole epochs -/

namespace State

variable {preset : Preset}

/-- **More votes never hurt.** Let two states of the same chain differ in their flags for the
previous epoch only, and in their caches, which are coherent; and let the second one have all the
flags of the first one. If an epoch succeeds on both then nobody is worse off after the second one:
balances and rewards are not smaller, inactivity scores and penalties are not larger, and slashing
penalties are the same. -/
theorem processFlags_moreVotes {config : Config} {phase : Phase} {cancelled : Bool}
    {state other : FlagState preset} (more : state.MoreVotes other)
    (complete : FlagState.Complete state) (complete' : FlagState.Complete other)
    (coherent : state.cache.CoherentWith state.chain)
    (coherent' : other.cache.CoherentWith other.chain) {report report' : Report}
    {final final' : FlagState preset}
    (ran : processFlags config phase cancelled state = .ok report final)
    (ran' : processFlags config phase cancelled other = .ok report' final') :
    NobodyWorse state.chain.validators.size report final report' final' := by
  have starts : (Comparison.moreVotes state.chain.validators.size).Starts state other :=
    .of_chain rfl UInt64.le_refl more.chain more.scores complete complete' coherent coherent'
      more.keener
  have tied : Step.Tied .loose (Comparison.Ends _) (processFlags config phase cancelled state)
      (processFlags config phase cancelled other) :=
    Comparison.processFlags_tied Comparison.moreVotes_lawful cancelled starts
  rw [ran, ran'] at tied
  exact {
    deltas_size := tied.deltas.sizes
    balances_size := tied.balances.sizes
    scores_size := tied.scores.sizes
    rewards := fun validator => (tied.deltas.getD validator {} {}).1
    penalties := fun validator => (tied.deltas.getD validator {} {}).2
    slashingPenalties := tied.slashingPenalties.eq
    balances := fun validator => tied.balances.getD validator 0 0
    scores := fun validator => tied.scores.getD validator 0 0 }

/-- The state with three fates, with all flags of everybody for the previous epoch. -/
def allFlags : FlagState .minimal :=
  { threeFates with votes := ⟨#[255, 255, 255], #[7, 7, 0], #[0, 0, 5]⟩ }

theorem processFlags_moreVotes_allFlags :
    ∃ report final report' final',
      processFlags Config.minimal .altair false threeFates = .ok report final ∧
      processFlags Config.minimal .altair false allFlags = .ok report' final' ∧
      NobodyWorse 3 report final report' final' := by
  have more : threeFates.MoreVotes allFlags := ⟨rfl, rfl, rfl, by decide +kernel⟩
  have succeeds :
      Step.Result.succeeds (processFlags Config.minimal .altair false threeFates) = true := by
    decide +kernel
  have succeeds' :
      Step.Result.succeeds (processFlags Config.minimal .altair false allFlags) = true := by
    decide +kernel
  obtain ⟨report, final, ran⟩ := Step.Result.eq_ok_of_succeeds succeeds
  obtain ⟨report', final', ran'⟩ := Step.Result.eq_ok_of_succeeds succeeds'
  exact ⟨report, final, report', final', ran, ran', processFlags_moreVotes more ⟨rfl, rfl, rfl, rfl⟩
    ⟨rfl, rfl, rfl, rfl⟩ (.empty _) (.empty _) ran ran'⟩

end State

end BeaconEpoch
