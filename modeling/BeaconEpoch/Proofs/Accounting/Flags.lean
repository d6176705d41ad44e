import BeaconEpoch.Proofs.Accounting.Balance

/-!
# Accounting by flags

An epoch of Altair or later does what it is specified to do: rewards, penalties and scores are given
by the sets of validators whose flags were timely, and by the stake of these sets.

## Main definitions

* `FlagEpoch`: what an epoch is computed from.
* `FlagEpoch.timely`: the validators whose flag counts.
* `FlagEpoch.newScore`, `FlagEpoch.delta`: the specification, validator by validator.
* `FlagEpoch.record`: what accounting notes about a validator.

## Main statements

* `FlagEpoch.flagVote_record`, `FlagEpoch.eligible_record`: records show who is in which set.
* `FlagEpoch.delta_gives`: the delta of a validator.
* `FlagEpoch.planFlags_eq_ok`: what is planned.
* `FlagEpoch.Describes`: what an epoch is specified to report and to leave.
* `State.processFlags_as_specified`: whole epochs.

## Design notes

* **Sets first, records last.** The specification speaks of sets of validators and of their stake
  only. Records, phases and kinds of votes are means to compute it, and every law about them says
  which set they stand for.
-/

namespace BeaconEpoch

/-! ## The specification -/

/-- What an epoch of Altair or later is computed from. -/
structure FlagEpoch (preset : Preset) where
  config : Config
  phase : FlagPhase
  chain : Chain preset
  votes : FlagVotes

namespace FlagEpoch

variable {preset : Preset} (epoch : FlagEpoch preset)

/-- The active stake. -/
def total : GweiSum := epoch.chain.stake (epoch.chain.activeIn epoch.chain.currentEpoch)

/-- The flags of a validator for the previous epoch. -/
def flagsOf (validator : epoch.chain.Member) : ParticipationFlags :=
  epoch.votes.previous.getD validator 0

/-- The inactivity score of a validator. -/
def scoreOf (validator : epoch.chain.Member) : InactivityScore :=
  epoch.votes.inactivityScores.getD validator 0

/-- The unslashed validators with duties in the previous epoch that have a flag for it. -/
def timely (flag : Nat) : Finset epoch.chain.Member :=
  {validator | ¬epoch.chain.validators[validator].slashed ∧
    epoch.chain.validators[validator].isActive epoch.chain.previousEpoch ∧
    hasFlag (epoch.flagsOf validator) flag}

/-- The score of an eligible validator: one less for a timely target, else more by the bias; and
outside of a leak less by the recovery rate. Others keep theirs. -/
def newScore (validator : epoch.chain.Member) : Nat :=
  let old := (epoch.scoreOf validator).toNat
  let raised :=
    if validator ∈ epoch.timely timelyTargetFlag then old - 1
    else old + epoch.config.scoreBias.val.toNat
  if validator ∈ epoch.chain.eligible then
    if epoch.chain.isLeaking then raised else raised - epoch.config.scoreRecoveryRate.toNat
  else old

/-- The base reward: that of one increment for every whole increment, as the configuration adjusts
it. -/
def baseReward (validator : epoch.chain.Member) : Gwei :=
  let perIncrement :=
    preset.effectiveBalanceIncrement * preset.baseRewardFactor / Nat.sqrt epoch.total
  epoch.config.adjust (Word.saturate
    (epoch.chain.stakeOf validator / preset.effectiveBalanceIncrement * perIncrement))

/-- The reward for a flag: outside of a leak, for a timely flag, the weighted part of a base reward,
scaled by the share of active stake behind that flag. -/
def flagReward (validator : epoch.chain.Member) (flag weight : Nat) : Nat :=
  if validator ∈ epoch.timely flag ∧ ¬epoch.chain.isLeaking then
    (epoch.baseReward validator).toNat * weight *
      (epoch.chain.stake (epoch.timely flag) / preset.effectiveBalanceIncrement) /
        (epoch.total / preset.effectiveBalanceIncrement * weightDenominator)
  else 0

/-- The penalty for a flag that was not timely, other than that for the head: the weighted part of a
base reward. -/
def flagPenalty (validator : epoch.chain.Member) (flag weight : Nat) : Nat :=
  if validator ∈ epoch.timely flag ∨ flag = timelyHeadFlag then 0
  else (epoch.baseReward validator).toNat * weight / weightDenominator

/-- The penalty for a target that was not timely: a part of the stake that grows with the new
score. -/
def inactivityPenalty (validator : epoch.chain.Member) : Nat :=
  if validator ∈ epoch.timely timelyTargetFlag then 0
  else epoch.chain.stakeOf validator * epoch.newScore validator /
    (epoch.config.scoreBias.val.toNat * preset.inactivityPenaltyQuotient epoch.phase.toPhase)

/-- The delta of a validator: all its rewards and all its penalties, if it is eligible. -/
def delta (validator : epoch.chain.Member) : Delta :=
  if validator ∈ epoch.chain.eligible then
    { reward := Word.saturate
        (participationWeights.map fun (flag, weight) => epoch.flagReward validator flag weight).sum
      penalty := Word.saturate
        ((participationWeights.map fun (flag, weight) =>
          epoch.flagPenalty validator flag weight).sum + epoch.inactivityPenalty validator) }
  else {}

/-! ## Records -/

/-- What accounting notes about a validator, given its score. -/
def record (score : InactivityScore) (validator : epoch.chain.Member) : Record :=
  (epoch.chain.blankRecord epoch.chain.currentEpoch score validator).readFlags
    (epoch.flagsOf validator) (epoch.votes.current.getD validator 0)

variable {epoch} {score : InactivityScore} {validator : epoch.chain.Member}

theorem mem_timely {flag : Nat} :
    validator ∈ epoch.timely flag ↔
      epoch.chain.validators[validator].slashed = false ∧
        epoch.chain.validators[validator].isActive epoch.chain.previousEpoch = true ∧
        hasFlag (epoch.flagsOf validator) flag = true := by
  simp [timely]

theorem eligible_record :
    (epoch.record score validator).eligible = decide (validator ∈ epoch.chain.eligible) :=
  Chain.eligible_blankRecord score

theorem missedTarget_record :
    (epoch.record score validator).missedTarget =
      decide (validator ∉ epoch.timely timelyTargetFlag) := by
  simp only [Record.missedTarget, record, Record.readFlags, Chain.blankRecord, Record.ofValidator,
    mem_timely]
  grind

/-- A flag of a record counts for those for whom it was timely. -/
theorem flagVote_record (totals : Totals) {entry : Nat × Nat} (mem : entry ∈ participationWeights) :
    ((epoch.record score validator).flagVote totals entry.1).1 =
      decide (validator ∈ epoch.timely entry.1) := by
  simp only [participationWeights, List.mem_cons, List.not_mem_nil, or_false] at mem
  obtain rfl | rfl | rfl := mem
  all_goals
    simp only [Record.flagVote, record, Record.readFlags, Chain.blankRecord, Record.ofValidator,
      mem_timely]
    grind [timelySourceFlag, timelyTargetFlag, timelyHeadFlag]

/-! ## Totals -/

variable (epoch) in
/-- Totals of active stake and of the stake behind each flag. -/
structure Counted (totals : Totals) : Prop where
  active : totals.activeCurrent = epoch.total
  source : totals.previousAttested = epoch.chain.stake (epoch.timely timelySourceFlag)
  target : totals.previousTargetAttested = epoch.chain.stake (epoch.timely timelyTargetFlag)
  head : totals.previousHeadAttested = epoch.chain.stake (epoch.timely timelyHeadFlag)

theorem Counted.stake_flagVote {totals : Totals} (counted : epoch.Counted totals) (record : Record)
    {entry : Nat × Nat} (mem : entry ∈ participationWeights) :
    (record.flagVote totals entry.1).2 = epoch.chain.stake (epoch.timely entry.1) := by
  simp only [participationWeights, List.mem_cons, List.not_mem_nil, or_false] at mem
  obtain rfl | rfl | rfl := mem
  · exact counted.source
  · exact counted.target
  · exact counted.head

/-- Totals that pass their check are the stake of the sets of validators that the specification
speaks of. -/
theorem counted_of_countVotes {scores : epoch.chain.Member → InactivityScore} {totals : Totals}
    (passed : epoch.chain.activeTotals.countVotes preset epoch.phase.toPhase
      (Array.ofFn fun validator => epoch.record (scores validator) validator) = .ok totals) :
    epoch.Counted totals := by
  have shown : epoch.chain.Shows fun validator => epoch.record (scores validator) validator :=
    fun _ => rfl
  have attested (category : Category) := shown.attested_countVotes passed category
  refine ⟨Chain.active_countVotes passed .current, (attested .previousEpoch).trans ?_,
    (attested .previousEpochTarget).trans ?_, (attested .previousEpochHead).trans ?_⟩
  all_goals
    refine congrArg _ (Finset.filter_congr fun validator _ => ?_)
    simp only [record, Record.readFlags, Chain.blankRecord, Record.ofValidator, Record.attested]
    cases epoch.phase <;> grind [FlagPhase.toPhase]

/-! ## Deltas -/

variable (epoch) in
/-- The rates of an epoch, given its totals. -/
def rates (totals : Totals) : FlagRates where
  preset
  config := epoch.config
  totals
  leaking := epoch.chain.isLeaking
  perIncrement := preset.baseRewardPerIncrement totals.activeCurrent
  rewardDivisor := totals.activeCurrent / preset.effectiveBalanceIncrement * weightDenominator
  inactivityDivisor :=
    epoch.config.scoreBias.val.toNat * preset.inactivityPenaltyQuotient epoch.phase.toPhase

@[simp] theorem rates_totals (totals : Totals) : (epoch.rates totals).totals = totals := rfl

/-- The rates are those of the specification, if they are found at all. -/
theorem flagRates_gives (totals : Totals) :
    Gives (epoch.rates totals)
      (epoch.chain.flagRates epoch.config epoch.phase.toPhase totals) :=
  (GweiSum.checked_gives _).bind ((GweiSum.checked_gives _).bind (.pure rfl))

section Delta

variable {totals : Totals}

theorem baseReward_gives (counted : epoch.Counted totals) :
    Gives (epoch.baseReward validator)
      ((epoch.rates totals).baseReward (epoch.record score validator)) := by
  refine (GweiSum.checked_gives _).bind (Sound.pure ?_)
  show epoch.config.adjust (Word.saturate (_ * (_ / isqrt totals.activeCurrent))) = _
  rw [counted.active, isqrt_eq_sqrt]
  rfl

theorem flagReward_gives (counted : epoch.Counted totals) {entry : Nat × Nat}
    (mem : entry ∈ participationWeights) :
    Gives (epoch.flagReward validator entry.1 entry.2)
      ((epoch.rates totals).flagReward (epoch.record score validator) (epoch.baseReward validator)
        entry.1 entry.2) := by
  simp only [FlagRates.flagReward, rates_totals, flagVote_record totals mem,
    counted.stake_flagVote _ mem, flagReward, Bool.and_eq_true, decide_eq_true_eq,
    Bool.not_eq_true', ← Bool.not_eq_true]
  refine .ite (fun _ => (GweiSum.checked_gives _).bind (Sound.pure ?_)) fun _ => rfl
  rw [← counted.active]
  rfl

theorem flagPenalty_gives {entry : Nat × Nat} (mem : entry ∈ participationWeights) :
    Gives (epoch.flagPenalty validator entry.1 entry.2)
      ((epoch.rates totals).flagPenalty (epoch.record score validator)
        (epoch.baseReward validator) entry.1 entry.2) := by
  unfold FlagRates.flagPenalty flagPenalty
  rw [flagVote_record _ mem]
  simp only [Bool.or_eq_true, decide_eq_true_eq, beq_iff_eq]
  exact .ite (fun _ => rfl) fun _ => (GweiSum.checked_gives _).bind (.pure rfl)

theorem inactivityPenalty_gives (shown : score.toNat = epoch.newScore validator) :
    Gives (epoch.inactivityPenalty validator)
      ((epoch.rates totals).inactivityPenalty (epoch.record score validator)) := by
  have missed : (epoch.record score validator).missedTarget = _ := missedTarget_record
  unfold Record.missedTarget at missed
  simp only [FlagRates.inactivityPenalty, inactivityPenalty, missed, decide_eq_true_eq, ite_not]
  refine .ite (fun _ => rfl) fun _ => (GweiSum.checked_gives _).bind ?_
  rw [← shown]
  exact quotient_gives ..

/-- The delta of a validator is the specified one, if it is found: flag by flag, and the penalty for
its score last. -/
theorem delta_gives (counted : epoch.Counted totals)
    (shown : score.toNat = epoch.newScore validator) :
    Gives (epoch.delta validator)
      ((epoch.rates totals).delta (epoch.record score validator)) := by
  simp only [FlagRates.delta, delta, eligible_record, Bool.not_eq_true', decide_eq_false_iff_not]
  rw [← ite_not]
  refine .ite (fun _ => rfl) fun _ => ?_
  refine (baseReward_gives counted).bind ?_
  refine (Gives.mapM_list _ _ fun entry mem => flagReward_gives counted mem).bind ?_
  refine (GweiSum.checked_gives _).bind ?_
  refine (Gives.mapM_list _ _ fun entry mem => flagPenalty_gives mem).bind ?_
  refine (inactivityPenalty_gives shown).bind ?_
  exact (GweiSum.checked_gives _).bind (.pure rfl)

end Delta

/-! ## The part that reads -/

variable (epoch) in
/-- The record of a validator before flags are read. -/
def blankRecord (validator : epoch.chain.Member) : Record :=
  epoch.chain.blankRecord epoch.chain.currentEpoch (epoch.scoreOf validator) validator

section Reading

variable {cache after : Cache} {tally counted : Tally}

/-- Books that were opened show every validator with its score and without a vote. -/
theorem openFlags_eq_ok
    (opened : epoch.chain.openFlags epoch.votes.inactivityScores cache = .ok tally after) :
    epoch.votes.inactivityScores = Array.ofFn epoch.scoreOf ∧
      tally.records = Array.ofFn epoch.blankRecord ∧ tally.totals = epoch.chain.activeTotals := by
  unfold Chain.openFlags at opened
  split at opened
  · rename_i sizes
    have scores : epoch.votes.inactivityScores = Array.ofFn epoch.scoreOf :=
      eq_ofFn_getD sizes.symm 0
    obtain ⟨totals, checked, rest⟩ := Step.lift_bind_eq_ok_iff.mp opened
    have same := Totals.eq_of_checked_eq_ok checked
    obtain ⟨_, _, cached, rest⟩ := Step.bind_eq_ok_iff.mp rest
    cases rest
    refine ⟨scores, ?_, same.1⟩
    have validators : epoch.chain.validators = Array.ofFn fun validator : epoch.chain.Member =>
      epoch.chain.validators[validator] := Array.ofFn_getElem.symm
    exact (congrArg₂ (Array.zipWith _) validators scores).trans (zipWith_ofFn ..)
  · cases opened

/-- Flags of the right number are read into the records of their validators. -/
theorem countFlags_of_sizes (records : tally.records = Array.ofFn epoch.blankRecord)
    (totals : tally.totals = epoch.chain.activeTotals)
    (previous : epoch.votes.previous.size = epoch.chain.validators.size)
    (current : epoch.votes.current.size = epoch.chain.validators.size) :
    countFlags preset epoch.phase.toPhase epoch.votes tally = do
      let records := Array.ofFn fun validator => epoch.record (epoch.scoreOf validator) validator
      let totals ← epoch.chain.activeTotals.countVotes preset epoch.phase.toPhase records
      return { records, totals } := by
  simp only [countFlags]
  rw [records, Array.size_ofFn, if_pos ⟨previous, current⟩, totals]
  have previous : epoch.votes.previous = Array.ofFn epoch.flagsOf := eq_ofFn_getD previous 0
  have current : epoch.votes.current = _ := eq_ofFn_getD current 0
  rw [previous, current, zip_ofFn, zipWith_ofFn]
  rfl

/-- Totals are counted from the records into which flags have been read. -/
theorem countVotes_of_countFlags (records : tally.records = Array.ofFn epoch.blankRecord)
    (totals : tally.totals = epoch.chain.activeTotals)
    (ran : countFlags preset epoch.phase.toPhase epoch.votes tally = .ok counted) :
    (counted.records = Array.ofFn fun validator =>
        epoch.record (epoch.scoreOf validator) validator) ∧
      epoch.chain.activeTotals.countVotes preset epoch.phase.toPhase counted.records =
        .ok counted.totals := by
  by_cases sizes : epoch.votes.previous.size = epoch.chain.validators.size ∧
      epoch.votes.current.size = epoch.chain.validators.size
  · rw [countFlags_of_sizes records totals sizes.1 sizes.2] at ran
    dsimp only at ran
    cases passed : epoch.chain.activeTotals.countVotes preset epoch.phase.toPhase
        (Array.ofFn fun validator => epoch.record (epoch.scoreOf validator) validator) with
    | ok found =>
      rw [passed] at ran
      cases ran
      exact ⟨rfl, passed⟩
    | error e =>
      rw [passed] at ran
      cases ran
  · rw [← Array.size_ofFn (f := epoch.blankRecord), ← records] at sizes
    simp only [countFlags] at ran
    rw [if_neg sizes] at ran
    cases ran

theorem countFlags_eq_ok (records : tally.records = Array.ofFn epoch.blankRecord)
    (totals : tally.totals = epoch.chain.activeTotals)
    (ran : countFlags preset epoch.phase.toPhase epoch.votes tally = .ok counted) :
    (counted.records = Array.ofFn fun validator =>
        epoch.record (epoch.scoreOf validator) validator) ∧ epoch.Counted counted.totals := by
  obtain ⟨entered, passed⟩ := countVotes_of_countFlags records totals ran
  rw [entered] at passed
  exact ⟨entered, counted_of_countVotes passed⟩

variable (epoch) in
/-- The score of a validator after an epoch, as it is computed from its record. -/
def nextScore (validator : epoch.chain.Member) : InactivityScore :=
  if validator ∈ epoch.chain.eligible then
    epoch.config.nextScore epoch.chain.isLeaking (epoch.record (epoch.scoreOf validator) validator)
  else epoch.scoreOf validator

/-- A score that does not outgrow its word is as specified. -/
theorem toNat_nextScore
    (fits : ¬epoch.config.scoreOverflows (epoch.record (epoch.scoreOf validator) validator)) :
    (epoch.nextScore validator).toNat = epoch.newScore validator := by
  unfold nextScore newScore
  split
  · rename_i eligible
    have shown : (epoch.record (epoch.scoreOf validator) validator).eligible = true := by
      rw [eligible_record]
      exact decide_eq_true eligible
    rw [Config.toNat_nextScore _ shown fits, missedTarget_record]
    simp only [decide_eq_true_eq, ite_not]
    cases epoch.chain.isLeaking with
    | true => rfl
    | false => rfl
  · rfl

/-- Past the first epoch there are new scores, and none has outgrown its word. -/
theorem nextScores_eq_ok {found : Option (Array InactivityScore)}
    (past : epoch.chain.isPastGenesis = true)
    (ran : epoch.chain.nextScores epoch.config epoch.votes.inactivityScores (Array.ofFn
      fun validator => epoch.record (epoch.scoreOf validator) validator) = .ok found)
    (scores : epoch.votes.inactivityScores = Array.ofFn epoch.scoreOf) :
    found = some (Array.ofFn epoch.nextScore) ∧
      ∀ validator, (epoch.nextScore validator).toNat = epoch.newScore validator := by
  unfold Chain.nextScores at ran
  rw [past, scores] at ran
  simp only [Bool.not_true, Bool.false_eq_true, if_false, Array.size_ofFn, if_true] at ran
  split at ran
  · cases ran
  · rename_i none_overflows
    cases ran
    refine ⟨congrArg some ?_, fun validator => toNat_nextScore ?_⟩
    · rw [zipWith_ofFn]
      refine congrArg Array.ofFn (funext fun validator => ?_)
      simp only [eligible_record, decide_eq_true_eq]
      rfl
    · have fits := Array.findIdx?_eq_none_iff.mp none_overflows _
        (Array.mem_ofFn.mpr ⟨validator, rfl⟩)
      exact Bool.not_eq_true _ ▸ fits

/-- All deltas are the specified ones, once the scores are the new ones. -/
theorem flagDeltas_gives {totals : Totals} (counted : epoch.Counted totals)
    (shown : ∀ validator, (epoch.nextScore validator).toNat = epoch.newScore validator) :
    Gives (Array.ofFn epoch.delta)
      (epoch.chain.flagDeltas epoch.config epoch.phase.toPhase ⟨Array.ofFn fun validator =>
        epoch.record (epoch.nextScore validator) validator, totals⟩) := by
  have active : totals.activeCurrent ≠ 0 := by
    rw [counted.active]
    exact Nat.ne_of_gt (Chain.stake_pos _)
  unfold Chain.flagDeltas
  rw [if_neg active]
  refine (flagRates_gives totals).bind (Gives.mapM_ofFn fun validator => ?_)
  exact delta_gives counted (shown validator)

/-- **What is planned is what is specified.** -/
theorem planFlags_eq_ok (epoch : FlagEpoch preset) {cancelled : Bool} {plan : Plan}
    (past : epoch.chain.isPastGenesis = true)
    (ran : epoch.chain.planFlags epoch.config epoch.phase.toPhase cancelled epoch.votes cache =
      .ok plan after) :
    epoch.Counted plan.tally.totals ∧ plan.deltas = Array.ofFn epoch.delta ∧
      plan.scores = some (Array.ofFn epoch.nextScore) ∧
      ∀ validator, (epoch.nextScore validator).toNat = epoch.newScore validator := by
  obtain ⟨_, ⟨_, _⟩, opened, counted, scored, entered, planned⟩ := Chain.planFlags_eq_ok ran
  obtain ⟨own, records, active⟩ := openFlags_eq_ok opened
  obtain ⟨rfl, counted⟩ := countFlags_eq_ok records active counted
  obtain ⟨found, shown⟩ := nextScores_eq_ok past scored own
  rw [found] at entered
  rw [entered] at planned ⊢
  refine ⟨counted, ?_, found, shown⟩
  simp only [Chain.dueDeltas, past, if_true, withScores, zipWith_ofFn] at planned
  exact (flagDeltas_gives counted shown).met_of_eq_ok planned

end Reading

/-! ## Whole epochs -/

/-- An epoch reports and leaves what it is specified to. -/
structure Describes (epoch : FlagEpoch preset) (report : Report) (final : FlagState preset) :
    Prop where
  totals : epoch.Counted report.totals
  deltas : report.deltas = Array.ofFn epoch.delta
  scores : final.votes.inactivityScores.map (·.toNat) = Array.ofFn epoch.newScore
  balances : final.chain.balances.map (·.toNat) =
    Array.ofFn (epoch.chain.balanceAfter epoch.phase.toPhase epoch.delta)
  /-- No reward is cut off by the end of a word. -/
  room : ∀ validator,
    (epoch.chain.balanceOf validator).toNat + (epoch.delta validator).reward.toNat < 2 ^ 64
  previous : final.votes.previous = epoch.votes.current
  current : final.votes.current = Array.replicate epoch.chain.validators.size 0
  /-- Nothing else has changed. -/
  chain : epoch.chain.OnlyBalances final.chain

end FlagEpoch

namespace State

variable {preset : Preset} {state final : FlagState preset} {report : Report}

/-- **Accounting by flags is as specified.** Past the first epoch, let an epoch of Altair or later
succeed from a state with a coherent cache. Then its deltas, the new scores and the new balances of
all validators are those that are specified by sets of validators and their stake, and all else is
as it was, up to the votes, which have moved on. -/
theorem processFlags_as_specified (config : Config) (phase : FlagPhase) {cancelled : Bool}
    (coherent : state.cache.CoherentWith state.chain)
    (past : genesisEpoch < state.chain.currentEpoch)
    (ran : processFlags config phase.toPhase cancelled state = .ok report final) :
    (FlagEpoch.mk config phase state.chain state.votes).Describes report final := by
  let epoch : FlagEpoch preset := ⟨config, phase, state.chain, state.votes⟩
  have past : epoch.chain.isPastGenesis = true := decide_eq_true past
  obtain ⟨-, -, -, only, -⟩ := processFlags_eq_ok ran
  unfold processFlags at ran
  rw [Step.get_bind_apply] at ran
  obtain ⟨plan, _, asked, concluded⟩ := Step.bind_eq_ok_iff.mp ran
  obtain ⟨cache, planned, rfl⟩ := ask_eq_ok_iff.mp asked
  have still := (Chain.planFlags_hasAnswer ..).coherent_of_ok coherent planned
  obtain ⟨counted, deltas, scores, shown⟩ := epoch.planFlags_eq_ok past planned
  obtain ⟨room, balances⟩ := balances_conclude concluded still past deltas
  obtain ⟨_, _, _, _, _, totals, -, reported, votes⟩ := conclude_eq_ok concluded
  rw [scores, only.sameDuties.validators] at votes
  refine ⟨totals ▸ counted, reported.trans deltas, ?_, balances, room, ?_, ?_, only⟩
  · rw [votes]
    exact Array.map_ofFn.trans (congrArg Array.ofFn (funext shown))
  · rw [votes]
    rfl
  · rw [votes]
    rfl

/-- A state at the end of the second epoch: one validator voted in time, one is slashed, and one has
missed everything. -/
def threeFates : FlagState .minimal where
  chain := { Chain.empty .minimal with
    slot := 15
    validators := #[
      ⟨32000000000, false, 0, 0, farFutureEpoch, farFutureEpoch⟩,
      ⟨32000000000, true, 0, 0, 1, 33⟩,
      ⟨17000000000, false, 0, 0, farFutureEpoch, farFutureEpoch⟩]
    balances := #[32000000000, 31000000000, 17000000000]
    slashings := #[32000000000] }
  votes := ⟨#[7, 7, 0], #[7, 7, 0], #[0, 0, 5]⟩

theorem processFlags_as_specified_threeFates :
    ∃ report final, processFlags Config.minimal .altair false threeFates = .ok report final ∧
      (FlagEpoch.mk Config.minimal .altair threeFates.chain threeFates.votes).Describes report
        final := by
  have succeeds :
      Step.Result.succeeds (processFlags Config.minimal .altair false threeFates) = true := by
    decide +kernel
  obtain ⟨report, final, ran⟩ := Step.Result.eq_ok_of_succeeds succeeds
  exact ⟨report, final, ran,
    processFlags_as_specified Config.minimal .altair (Cache.CoherentWith.empty _) (by decide) ran⟩

end State

end BeaconEpoch
