import BeaconEpoch.Proofs.Accounting.Balance
import BeaconEpoch.Proofs.Accounting.Selection

/-!
# Accounting by attestations

An epoch of Phase 0 does what it is specified to do: rewards and penalties are given by the sets of
validators that voted for the right source, target and head, by the stake of these sets, and by the
attestation that brought in a vote with the smallest delay.

## Main definitions

* `PendingEpoch`: what an epoch is computed from.
* `PendingEpoch.source`, `PendingEpoch.target`, `PendingEpoch.head`: those whose vote counts.
* `PendingEpoch.earliest`: the attestation that brought in a vote.
* `PendingEpoch.Readable`: every attestation has a committee to select from.
* `PendingEpoch.ownReward`, `PendingEpoch.ownPenalty`, `PendingEpoch.proposerReward`: the
  specification, validator by validator.

## Main statements

* `PendingEpoch.Sorted.earliest_votesOf`: the smallest slot of inclusion is the smallest delay.
* `PendingEpoch.pendingVotes_record`, `PendingEpoch.inclusion_record`: records show who voted for
  what, and how each vote was included.
* `PendingEpoch.epochDeltas_gives`: the deltas of all validators.
* `PendingEpoch.Describes`: what an epoch is specified to report and to leave.
* `State.processPending_as_specified`: whole epochs.

## Design notes

* **Slots and delays.** Accounting keeps the smallest slot of inclusion, the specification speaks of
  the smallest delay. A validator votes in one slot of an epoch only, so the two are the same.
* **Voters.** The specification says whom an attestation selects; that accounting visits the same
  validators is `PendingEpoch.Readable.filter_selects`.
-/

namespace BeaconEpoch

/-! ## The specification -/

/-- What an epoch of Phase 0 is computed from. -/
structure PendingEpoch (preset : Preset) where
  config : Config
  chain : Chain preset
  votes : PendingVotes

namespace PendingEpoch

variable {preset : Preset} (epoch : PendingEpoch preset)

/-- The active stake. -/
def total : GweiSum := epoch.chain.stake (epoch.chain.activeIn epoch.chain.currentEpoch)

/-- The unslashed validators that an attestation for the previous epoch of some kind selects. -/
def supporters (kind : PendingAttestation → Bool) : Finset epoch.chain.Member :=
  {validator | ¬epoch.chain.validators[validator].slashed ∧
    ∃ attestation ∈ epoch.votes.previous,
      epoch.chain.Selects attestation validator ∧ kind attestation}

/-- The unslashed validators that voted. Any vote for the previous epoch has the right source. -/
def source : Finset epoch.chain.Member := epoch.supporters fun _ => true

/-- The unslashed validators that voted for the right target. -/
def target : Finset epoch.chain.Member := epoch.supporters epoch.chain.matchesTarget

/-- The unslashed validators that voted for the right target and head. -/
def head : Finset epoch.chain.Member :=
  epoch.supporters fun attestation =>
    epoch.chain.matchesTarget attestation && epoch.chain.matchesHead attestation

/-- Those who voted right, once for each of the three votes. -/
def groups : List (Finset epoch.chain.Member) := [epoch.source, epoch.target, epoch.head]

/-- The first of the attestations with the smallest delay that select a validator. -/
def earliest (validator : epoch.chain.Member) : Option PendingAttestation :=
  (epoch.votes.previous.filter (epoch.chain.Selects · validator)).argmin (·.inclusionDelay.toNat)

/-- The base reward, as the configuration adjusts it. -/
def baseReward (validator : epoch.chain.Member) : Gwei :=
  epoch.config.adjust (Word.saturate
    (epoch.chain.stakeOf validator * preset.baseRewardFactor / max (Nat.sqrt epoch.total) 1 /
      baseRewardsPerEpoch))

/-- The reward for a vote that some voters share: a base reward, scaled outside of a leak by the
share of active stake behind it. -/
def voteReward (voters : Finset epoch.chain.Member) (validator : epoch.chain.Member) : Nat :=
  let baseReward := (epoch.baseReward validator).toNat
  if validator ∈ voters then
    if epoch.chain.isLeaking then baseReward
    else baseReward * (epoch.chain.stake voters / preset.effectiveBalanceIncrement) /
      (epoch.total / preset.effectiveBalanceIncrement)
  else 0

/-- The penalty for a vote that some voters share and others miss. -/
def votePenalty (voters : Finset epoch.chain.Member) (validator : epoch.chain.Member) : Nat :=
  if validator ∈ voters then 0 else (epoch.baseReward validator).toNat

/-- The share of a base reward that goes to whoever includes the vote. -/
def proposerShare (validator : epoch.chain.Member) : Nat :=
  (epoch.baseReward validator).toNat / preset.proposerRewardQuotient.toNat

/-- The reward for an early inclusion: the rest of a base reward, divided by the smallest delay. -/
def inclusionReward (validator : epoch.chain.Member) : Nat :=
  match epoch.earliest validator with
  | some first =>
    if validator ∈ epoch.source then
      ((epoch.baseReward validator).toNat - epoch.proposerShare validator) /
        first.inclusionDelay.toNat
    else 0
  | none => 0

/-- The penalty of a leak: what a perfect validator would earn, and for a missing target a part of
the stake that grows with the finality delay. -/
def leakPenalty (validator : epoch.chain.Member) : Nat :=
  if epoch.chain.isLeaking then
    baseRewardsPerEpoch * (epoch.baseReward validator).toNat - epoch.proposerShare validator +
      if validator ∈ epoch.target then 0
      else epoch.chain.stakeOf validator * epoch.chain.finalityDelay.toNat /
        preset.inactivityPenaltyQuotient .phase0
  else 0

/-- What an eligible validator earns by its own votes. -/
def ownReward (validator : epoch.chain.Member) : Nat :=
  if validator ∈ epoch.chain.eligible then
    (epoch.groups.map (epoch.voteReward · validator)).sum + epoch.inclusionReward validator
  else 0

/-- What an eligible validator loses by missing votes. -/
def ownPenalty (validator : epoch.chain.Member) : Nat :=
  if validator ∈ epoch.chain.eligible then
    (epoch.groups.map (epoch.votePenalty · validator)).sum + epoch.leakPenalty validator
  else 0

/-- What a validator earns by including the votes of others: its share of the base reward of
everybody whose vote it brought in with the smallest delay. -/
def proposerReward (validator : epoch.chain.Member) : Nat :=
  ∑ voter ∈ epoch.source with
      (epoch.earliest voter).map (·.proposerIndex.toNat) = some validator.val,
    epoch.proposerShare voter

/-- The delta of a validator. -/
def delta (validator : epoch.chain.Member) : Delta where
  reward := Word.saturate (epoch.ownReward validator + epoch.proposerReward validator)
  penalty := Word.saturate (epoch.ownPenalty validator)

end PendingEpoch

/-! ## Attestations of an epoch -/

/-- An attestation was made in an epoch and for that epoch, and was included by now. -/
structure PendingAttestation.IsFrom {preset : Preset} (attestation : PendingAttestation)
    (chain : Chain preset) (epoch : AttestationEpoch) : Prop where
  included : attestation.data.slot.toNat + attestation.inclusionDelay.toNat ≤ chain.slot.toNat
  slot : preset.epochAt attestation.data.slot = chain.epochOf epoch.toRelative
  target : attestation.data.target.epoch = chain.epochOf epoch.toRelative

/-- The attestations of the previous and of the current epoch are where they belong. -/
structure PendingVotes.AreFrom {preset : Preset} (votes : PendingVotes) (chain : Chain preset) :
    Prop where
  previous : ∀ attestation ∈ votes.previous, attestation.IsFrom chain .previous
  current : ∀ attestation ∈ votes.current, attestation.IsFrom chain .current

theorem argmin_congr {α : Type} {f g : α → Nat} {list : List α}
    (order : ∀ a ∈ list, ∀ b ∈ list, f a < f b ↔ g a < g b) : list.argmin f = list.argmin g := by
  induction list using List.reverseRecOn with
  | nil => rfl
  | append_singleton list last ih =>
    have earlier := ih fun a mem b mem' =>
      order a (List.mem_append_left _ mem) b (List.mem_append_left _ mem')
    rw [List.argmin_concat, List.argmin_concat, earlier]
    cases found : list.argmin g with
    | none => rfl
    | some first =>
      have listed := List.mem_append_left [last] (List.argmin_mem found)
      simp only [order last (by simp) first listed]

namespace Chain

variable {preset : Preset} {chain : Chain preset}

/-- Past the first epoch no epoch is its own predecessor. -/
theorem previousEpoch_ne (past : chain.isPastGenesis = true) :
    chain.previousEpoch ≠ chain.currentEpoch := by
  have started : genesisEpoch < chain.currentEpoch := of_decide_eq_true past
  have zero : genesisEpoch.toNat = 0 := rfl
  rw [UInt64.lt_iff_toNat_lt, zero] at started
  rw [← UInt64.toNat_inj.ne, toNat_previousEpoch]
  omega

/-- Past the first epoch only the attestations of the previous one are for it. -/
theorem filter_votesOf {votes : PendingVotes} (areFrom : votes.AreFrom chain)
    (past : chain.isPastGenesis = true) (validator : chain.Member) :
    (chain.votesOf (votes.previous ++ votes.current) validator).filter
        (chain.qualifies · .previousEpoch) =
      chain.votesOf votes.previous validator := by
  have previous : (chain.votesOf votes.previous validator).filter
      (chain.qualifies · .previousEpoch) = chain.votesOf votes.previous validator := by
    refine List.filter_eq_self.mpr fun attestation listed => ?_
    exact beq_iff_eq.mpr (areFrom.previous _ (List.mem_of_mem_filter listed)).target
  have current : (chain.votesOf votes.current validator).filter
      (chain.qualifies · .previousEpoch) = [] := by
    refine List.filter_eq_nil_iff.mpr fun attestation listed => ?_
    have target := (areFrom.current _ (List.mem_of_mem_filter listed)).target
    simp only [qualifies, target, beq_iff_eq]
    exact (previousEpoch_ne past).symm
  rw [votesOf_append, List.filter_append, previous, current, List.append_nil]

end Chain

namespace PendingEpoch

variable {preset : Preset} {epoch : PendingEpoch preset}

/-- An epoch past the first one whose attestations are where they belong. -/
structure Sorted (epoch : PendingEpoch preset) : Prop where
  past : epoch.chain.isPastGenesis = true
  few : epoch.chain.validators.size < 2 ^ 40
  areFrom : epoch.votes.AreFrom epoch.chain
  /-- No attestation was included in the slot that stands for "never". -/
  slot : epoch.chain.slot < farFutureSlot

/-- An epoch whose attestations are where they belong and have committees. -/
structure Readable (epoch : PendingEpoch preset) : Prop extends epoch.Sorted where
  seats : ∀ attestation ∈ epoch.votes.previous, ∃ members, epoch.chain.Seats attestation members

/-- What selects a validator is what it takes part in. -/
theorem Readable.filter_selects (readable : epoch.Readable) (validator : epoch.chain.Member) :
    epoch.votes.previous.filter (epoch.chain.Selects · validator) =
      epoch.chain.votesOf epoch.votes.previous validator := by
  refine List.filter_congr fun attestation listed => ?_
  obtain ⟨members, seats⟩ := readable.seats attestation listed
  rw [decide_eq_decide, seats.mem_votersOf_iff]

/-- **The smallest slot of inclusion is the smallest delay.** A validator votes in one slot of the
epoch only, and no slot of inclusion is cut off by the end of a word. -/
theorem Readable.earliest_votesOf (readable : epoch.Readable) (validator : epoch.chain.Member) :
    epoch.chain.earliest
        (epoch.chain.votesOf (epoch.votes.previous ++ epoch.votes.current) validator) =
      epoch.earliest validator := by
  unfold Chain.earliest PendingEpoch.earliest
  rw [Chain.filter_votesOf readable.areFrom readable.past, readable.filter_selects]
  refine argmin_congr fun a mem b mem' => ?_
  obtain ⟨listed, voted⟩ := List.mem_filter.mp mem
  obtain ⟨listed', voted'⟩ := List.mem_filter.mp mem'
  have first := readable.areFrom.previous a listed
  have second := readable.areFrom.previous b listed'
  have same := Chain.slot_eq_of_mem_votersOf readable.few (first.slot.trans second.slot.symm)
    (of_decide_eq_true voted) (of_decide_eq_true voted')
  have included := first.included
  have included' := second.included
  have last := epoch.chain.slot.toNat_lt
  rw [PendingAttestation.inclusionSlot, PendingAttestation.inclusionSlot, Word.toNat_addSat,
    Word.toNat_addSat, same]
  rw [same] at included
  omega

/-! ## Records -/

variable (epoch) in
/-- What accounting notes about a validator. -/
def record (validator : epoch.chain.Member) : Record :=
  epoch.chain.enter
    (epoch.chain.votesOf (epoch.votes.previous ++ epoch.votes.current) validator)
    (epoch.chain.blankRecord epoch.chain.currentEpoch 0 validator)

variable {validator : epoch.chain.Member}

theorem standing_record :
    (epoch.record validator).effectiveBalance =
        epoch.chain.validators[validator].effectiveBalance ∧
      (epoch.record validator).slashed = epoch.chain.validators[validator].slashed ∧
      (epoch.record validator).eligible = decide (validator ∈ epoch.chain.eligible) := by
  have kept : (epoch.record validator).standing = _ := Chain.standing_enter
  simp only [Record.standing, Prod.mk.injEq] at kept
  exact ⟨kept.1, kept.2.1, kept.2.2.trans (Chain.eligible_blankRecord 0)⟩

theorem mem_supporters (readable : epoch.Readable) {kind : PendingAttestation → Bool} :
    validator ∈ epoch.supporters kind ↔
      epoch.chain.validators[validator].slashed = false ∧
        (epoch.chain.votesOf epoch.votes.previous validator).any kind = true := by
  rw [← readable.filter_selects]
  simp [supporters]

/-- A record shows who supports a kind of attestations for the previous epoch. -/
theorem counts_record (readable : epoch.Readable) (category : Category)
    (kind : PendingAttestation → Bool)
    (splits : ∀ attestation, epoch.chain.qualifies attestation category =
      (epoch.chain.qualifies attestation .previousEpoch && kind attestation)) :
    ((epoch.record validator).attested .phase0 category && !(epoch.record validator).slashed) =
      decide (validator ∈ epoch.supporters kind) := by
  have any : (epoch.chain.votesOf (epoch.votes.previous ++ epoch.votes.current) validator).any
      (epoch.chain.qualifies · category) =
      (epoch.chain.votesOf epoch.votes.previous validator).any kind := by
    rw [← Chain.filter_votesOf readable.areFrom readable.past, List.any_filter]
    exact congrArg _ (funext splits)
  rw [standing_record.2.1]
  unfold record
  rw [Chain.attested_enter, Chain.attested_blankRecord, any, Bool.false_or, Bool.eq_iff_iff,
    decide_eq_true_iff, mem_supporters readable, Bool.and_eq_true, Bool.not_eq_true', and_comm]

theorem source_record (readable : epoch.Readable) :
    ((epoch.record validator).previousAttester && !(epoch.record validator).slashed) =
      decide (validator ∈ epoch.source) :=
  counts_record readable .previousEpoch _ fun _ => (Bool.and_true _).symm

theorem target_record (readable : epoch.Readable) :
    ((epoch.record validator).previousTargetAttester && !(epoch.record validator).slashed) =
      decide (validator ∈ epoch.target) :=
  counts_record readable .previousEpochTarget _ fun _ => rfl

theorem head_record (readable : epoch.Readable) :
    ((epoch.record validator).previousHeadAttester && !(epoch.record validator).slashed) =
      decide (validator ∈ epoch.head) :=
  counts_record readable .previousEpochHead _ fun _ => Bool.and_assoc ..

/-- The record of a validator with a vote shows the earliest inclusion of it. -/
theorem inclusion_record (readable : epoch.Readable) (voted : validator ∈ epoch.source) :
    ∃ first, epoch.earliest validator = some first ∧
      (epoch.record validator).inclusion = first.inclusion := by
  obtain ⟨attestation, listed, -⟩ := List.any_eq_true.mp ((mem_supporters readable).mp voted).2
  rw [← readable.filter_selects] at listed
  cases found : epoch.earliest validator with
  | none => exact absurd listed (List.argmin_eq_none.mp found ▸ List.not_mem_nil)
  | some first =>
    have mem := List.mem_of_mem_filter (List.argmin_mem found)
    have included := (readable.areFrom.previous first mem).included
    have early : first.inclusionSlot < farFutureSlot := by
      have limit := UInt64.lt_iff_toNat_lt.mp readable.slot
      rw [UInt64.lt_iff_toNat_lt, PendingAttestation.inclusionSlot, Word.toNat_addSat]
      omega
    refine ⟨first, rfl, ?_⟩
    rw [record, Chain.inclusion_enter, readable.earliest_votesOf, found]
    exact if_pos early

/-! ## Totals -/

variable (epoch) in
/-- Totals of active stake and of the stake behind each of the three votes. -/
structure Counted (totals : Totals) : Prop where
  active : totals.activeCurrent = epoch.total
  source : totals.previousAttested = epoch.chain.stake epoch.source
  target : totals.previousTargetAttested = epoch.chain.stake epoch.target
  head : totals.previousHeadAttested = epoch.chain.stake epoch.head

theorem counted_of_countVotes (readable : epoch.Readable) {totals : Totals}
    (passed : epoch.chain.activeTotals.countVotes preset .phase0 (Array.ofFn epoch.record) =
      .ok totals) :
    epoch.Counted totals := by
  have shown : epoch.chain.Shows epoch.record := fun _ => standing_record.1
  have attested (category : Category) := shown.attested_countVotes passed category
  refine ⟨Chain.active_countVotes passed .current, (attested .previousEpoch).trans ?_,
    (attested .previousEpochTarget).trans ?_, (attested .previousEpochHead).trans ?_⟩
  all_goals
    refine congrArg _ (Finset.ext fun validator => ?_)
    rw [Finset.mem_filter_univ, Bool.and_comm]
  · exact (congrArg (· = true) (source_record readable)).to_iff.trans decide_eq_true_iff
  · exact (congrArg (· = true) (target_record readable)).to_iff.trans decide_eq_true_iff
  · exact (congrArg (· = true) (head_record readable)).to_iff.trans decide_eq_true_iff

/-- A record shows which votes of its validator count, with the stake behind each. -/
theorem pendingVotes_record (readable : epoch.Readable) {totals : Totals}
    (counted : epoch.Counted totals) :
    (epoch.record validator).pendingVotes totals =
      epoch.groups.map fun voters => (decide (validator ∈ voters), epoch.chain.stake voters) := by
  simp only [Record.pendingVotes, source_record readable, target_record readable,
    head_record readable, counted.source, counted.target, counted.head]
  rfl

end PendingEpoch

/-! ## Base rewards -/

/-- A configuration that does not raise base rewards. -/
def Config.IsMild (config : Config) : Prop :=
  config.adjustment = .none ∨
    config.adjustment = .pulseChainBurn ∧ config.secondsPerSlot.val.toNat ≤ 16

theorem Config.IsMild.adjust_le {config : Config} (mild : config.IsMild) (baseReward : Gwei) :
    (config.adjust baseReward).toNat ≤ baseReward.toNat := by
  obtain kept | ⟨burned, short⟩ := mild
  · rw [adjust, kept]
  · rw [adjust, burned]
    simp only [burn, GweiSum.exact_eq, Word.toNat_saturate, referenceSecondsPerSlot]
    have scaled := Nat.mul_le_mul_left baseReward.toNat short
    omega

/-- The reward factor squared is at most an increment. -/
theorem Preset.baseRewardFactor_le_sqrt (preset : Preset) {stake : Nat}
    (increment : preset.effectiveBalanceIncrement ≤ stake) :
    preset.baseRewardFactor ≤ Nat.sqrt stake := by
  have small : preset.baseRewardFactor * preset.baseRewardFactor ≤
      preset.effectiveBalanceIncrement := by
    cases preset <;> decide
  exact Nat.le_sqrt.mpr (Nat.le_trans small increment)

/-- **Base rewards are small:** a mild configuration leaves them at a quarter of the stake at most,
because the root of the active stake is at least the reward factor. -/
theorem Config.IsMild.baseReward_le {config : Config} (mild : config.IsMild) (preset : Preset)
    {active : Nat} (increment : preset.effectiveBalanceIncrement ≤ active) (stake : Nat) :
    baseRewardsPerEpoch * (config.adjust (Word.saturate
        (stake * preset.baseRewardFactor / max (Nat.sqrt active) 1 / baseRewardsPerEpoch))).toNat ≤
      stake := by
  have root : preset.baseRewardFactor ≤ max (Nat.sqrt active) 1 :=
    Nat.le_trans (preset.baseRewardFactor_le_sqrt increment) (Nat.le_max_left ..)
  have divided : stake * preset.baseRewardFactor / max (Nat.sqrt active) 1 ≤ stake :=
    Nat.div_le_of_le_mul (Nat.mul_comm _ _ ▸ Nat.mul_le_mul_right _ root)
  have adjusted := mild.adjust_le (Word.saturate
    (stake * preset.baseRewardFactor / max (Nat.sqrt active) 1 / baseRewardsPerEpoch))
  rw [Word.toNat_saturate] at adjusted
  calc
    _ ≤ baseRewardsPerEpoch *
        (stake * preset.baseRewardFactor / max (Nat.sqrt active) 1 / baseRewardsPerEpoch) :=
      Nat.mul_le_mul_left _ (Nat.le_trans adjusted (Nat.min_le_left ..))
    _ ≤ _ := Nat.mul_div_le ..
    _ ≤ _ := divided

theorem Config.pendingBaseReward_eq (config : Config) (preset : Preset) (totals : Totals)
    (record : Record) :
    config.pendingBaseReward preset totals record = config.adjust (Word.saturate
      (record.effectiveBalance.toNat * preset.baseRewardFactor /
        max (Nat.sqrt totals.activeCurrent) 1 / baseRewardsPerEpoch)) := by
  simp only [pendingBaseReward, Preset.pendingBaseReward, GweiSum.exact_eq, isqrt_eq_sqrt]

namespace PendingEpoch

variable {preset : Preset} {epoch : PendingEpoch preset} {validator : epoch.chain.Member}
  {totals : Totals}

theorem pendingBaseReward_record (counted : epoch.Counted totals) :
    epoch.config.pendingBaseReward preset totals (epoch.record validator) =
      epoch.baseReward validator := by
  rw [Config.pendingBaseReward_eq, standing_record.1, counted.active]
  rfl

theorem baseReward_le (mild : epoch.config.IsMild) (validator : epoch.chain.Member) :
    baseRewardsPerEpoch * (epoch.baseReward validator).toNat ≤ epoch.chain.stakeOf validator :=
  mild.baseReward_le preset (Chain.increment_le_stake _) _

theorem toNat_proposerShare :
    (preset.proposerShare (epoch.baseReward validator)).toNat = epoch.proposerShare validator :=
  UInt64.toNat_div ..

/-! ## Deltas for own votes -/

theorem voteReward_gives (counted : epoch.Counted totals) {voters : Finset epoch.chain.Member} :
    Gives (epoch.voteReward voters validator)
      (if decide (validator ∈ voters) then
        epoch.chain.voteReward totals (epoch.baseReward validator) (epoch.chain.stake voters)
      else .ok 0) := by
  simp only [voteReward, Chain.voteReward, decide_eq_true_eq, counted.active]
  refine .ite (fun _ => .ite (fun _ => rfl) fun _ => ?_) fun _ => rfl
  exact (GweiSum.checked_gives _).bind (.pure rfl)

theorem inclusionReward_gives (readable : epoch.Readable) :
    Gives (epoch.inclusionReward validator)
      (epoch.chain.inclusionReward (epoch.baseReward validator) (epoch.record validator)) := by
  unfold Chain.inclusionReward inclusionReward
  rw [source_record readable]
  by_cases voted : validator ∈ epoch.source
  · obtain ⟨first, found, shown⟩ := inclusion_record readable voted
    have distance : (epoch.record validator).inclusionDistance = first.inclusionDelay :=
      congrArg (·.2.1) shown
    have part : preset.proposerShare (epoch.baseReward validator) ≤ epoch.baseReward validator := by
      rw [UInt64.le_iff_toNat_le, toNat_proposerShare]
      exact Nat.div_le_self ..
    rw [if_pos (decide_eq_true voted), found, distance, Word.difference_eq_ok part]
    simp only [if_pos voted]
    show _ = _
    rw [UInt64.toNat_div, UInt64.toNat_sub_of_le _ _ part, toNat_proposerShare]
  · rw [if_neg (by simpa using voted)]
    cases epoch.earliest validator with
    | none => rfl
    | some first => exact (if_neg voted).symm

/-- Nothing is cut off by the end of a word, because base rewards are small. -/
theorem leakPenalty_gives (readable : epoch.Readable) (mild : epoch.config.IsMild) :
    Gives (epoch.leakPenalty validator)
      (epoch.chain.leakPenalty (epoch.baseReward validator) (epoch.record validator)) := by
  have small := baseReward_le mild validator
  have stake := epoch.chain.validators[validator].effectiveBalance.toNat_lt
  have perfect : (Word.saturate (baseRewardsPerEpoch * (epoch.baseReward validator).toNat)).toNat =
      baseRewardsPerEpoch * (epoch.baseReward validator).toNat := by
    rw [Word.toNat_saturate]
    unfold Chain.stakeOf at small
    omega
  have missed : (!(epoch.record validator).previousTargetAttester ||
      (epoch.record validator).slashed) = decide (validator ∉ epoch.target) := by
    rw [decide_not, ← target_record readable, Bool.not_and, Bool.not_not]
  simp only [Chain.leakPenalty, leakPenalty, missed, perfect, toNat_proposerShare,
    standing_record.1, decide_eq_true_eq]
  refine .ite (fun _ => ?_) fun _ => rfl
  rw [← ite_not, add_ite, Nat.add_zero]
  refine .ite (fun _ => ?_) fun _ => rfl
  exact (GweiSum.checked_gives _).bind (.pure rfl)

variable (epoch) in
/-- The delta of a validator for its own votes. -/
def ownDelta (validator : epoch.chain.Member) : Delta where
  reward := Word.saturate (epoch.ownReward validator)
  penalty := Word.saturate (epoch.ownPenalty validator)

theorem pendingDelta_gives (readable : epoch.Readable) (mild : epoch.config.IsMild)
    (counted : epoch.Counted totals) :
    Gives (epoch.ownDelta validator)
      (epoch.chain.pendingDelta epoch.config totals (epoch.record validator)) := by
  have active : (totals.activeCurrent == 0) = false := by
    rw [counted.active]
    exact beq_false_of_ne (Nat.ne_of_gt (Chain.stake_pos _))
  simp only [Chain.pendingDelta, standing_record.2.2, active, Bool.or_false, Bool.not_eq_true',
    decide_eq_false_iff_not, pendingBaseReward_record counted, pendingVotes_record readable counted]
  by_cases eligible : validator ∈ epoch.chain.eligible
  · rw [if_neg (not_not.mpr eligible)]
    simp only [ownDelta, ownReward, ownPenalty, if_pos eligible]
    refine Gives.bind (Gives.mapM_forall₂ (List.forall₂_map_left_iff.mpr
      (List.forall₂_map_right_iff.mpr (List.forall₂_same.mpr fun voters _ =>
        voteReward_gives counted)))) ?_
    refine (inclusionReward_gives readable).bind ((leakPenalty_gives readable mild).bind ?_)
    simp only [List.map_map, Function.comp_def, decide_eq_true_eq]
    exact .pure rfl
  · rw [if_pos eligible]
    simp only [ownDelta, ownReward, ownPenalty, if_neg eligible]
    rfl

end PendingEpoch

/-! ## Proposers -/

namespace Word

theorem saturate_toNat (w : UInt64) : saturate w.toNat = w := by
  rw [← UInt64.toNat_inj, toNat_saturate]
  have := w.toNat_lt
  omega

/-- Sums that are cut off one after another are cut off once. -/
theorem addSat_saturate (n m : Nat) : addSat (saturate n) (saturate m) = saturate (n + m) := by
  rw [← UInt64.toNat_inj, toNat_addSat, toNat_saturate, toNat_saturate, toNat_saturate]
  omega

end Word

namespace Config

variable (config : Config) (preset : Preset) (totals : Totals) {count : Nat}

/-- What a record is worth to a proposer: a share of the base reward, if the vote counts and that
proposer included it. -/
def creditOf (proposer : Fin count) (record : Record) : Nat :=
  if record.previousAttester && !record.slashed && record.proposerIndex.toNat == proposer.val then
    (preset.proposerShare (config.pendingBaseReward preset totals record)).toNat
  else 0

theorem creditProposer_gives (amount : Fin count → Nat) (record : Record) :
    Gives (Array.ofFn fun proposer =>
        Word.saturate (amount proposer + config.creditOf preset totals proposer record))
      (config.creditProposer preset totals
        (Array.ofFn fun proposer => Word.saturate (amount proposer)) record) := by
  simp only [creditProposer]
  split
  · split
    · rename_i counts
      show _ = _
      rw [modify_ofFn]
      refine congrArg Array.ofFn (funext fun proposer => ?_)
      simp only [creditOf, counts, Bool.true_and, beq_iff_eq, eq_comm (b := proposer.val)]
      split
      · rw [← Word.addSat_saturate, Word.saturate_toNat]
      · rfl
    · rename_i counts
      refine congrArg Array.ofFn (funext fun proposer => ?_)
      simp [creditOf, counts]
  · trivial

/-- A proposer gets all that the records are worth to it, as far as a word holds it. -/
theorem creditProposers_gives (amount : Fin count → Nat) (records : List Record) :
    Gives (Array.ofFn fun proposer =>
        Word.saturate (amount proposer +
          (records.map (config.creditOf preset totals proposer)).sum))
      (records.foldlM (config.creditProposer preset totals)
        (Array.ofFn fun proposer => Word.saturate (amount proposer))) := by
  induction records generalizing amount with
  | nil => rfl
  | cons record records ih =>
    rw [List.foldlM_cons]
    simp only [List.map_cons, List.sum_cons, ← Nat.add_assoc]
    exact (creditProposer_gives config preset totals amount record).bind (ih _)

end Config

namespace PendingEpoch

variable {preset : Preset} {epoch : PendingEpoch preset} {totals : Totals}

/-- Whoever a record names gets a share, if the vote counts. -/
theorem creditOf_record (readable : epoch.Readable) (counted : epoch.Counted totals)
    (proposer voter : epoch.chain.Member) :
    epoch.config.creditOf preset totals proposer (epoch.record voter) =
      if voter ∈ epoch.source then
        if (epoch.earliest voter).map (·.proposerIndex.toNat) = some proposer.val then
          epoch.proposerShare voter
        else 0
      else 0 := by
  rw [Config.creditOf, source_record readable, pendingBaseReward_record counted,
    toNat_proposerShare]
  by_cases voted : voter ∈ epoch.source
  · obtain ⟨first, found, shown⟩ := inclusion_record readable voted
    have named : (epoch.record voter).proposerIndex = first.proposerIndex :=
      congrArg (·.2.2) shown
    simp [voted, found, named]
  · simp [voted]

theorem proposerRewards_gives (readable : epoch.Readable) (counted : epoch.Counted totals) :
    Gives (Array.ofFn fun validator => Word.saturate (epoch.proposerReward validator))
      (epoch.config.proposerRewards preset ⟨Array.ofFn epoch.record, totals⟩) := by
  have start : Array.replicate (Array.ofFn epoch.record).size (0 : Gwei) =
      Array.ofFn fun _ : epoch.chain.Member => Word.saturate 0 := by
    refine Array.ext (by simp) fun index inside inside' => ?_
    simp [Word.saturate]
  rw [Config.proposerRewards, start, ← Array.foldlM_toList, Array.toList_ofFn]
  have credited := epoch.config.creditProposers_gives preset totals
    (fun _ : epoch.chain.Member => 0) (List.ofFn epoch.record)
  have shares (proposer : epoch.chain.Member) :
      0 + ((List.ofFn epoch.record).map (epoch.config.creditOf preset totals proposer)).sum =
        epoch.proposerReward proposer := by
    rw [Nat.zero_add, List.map_ofFn, List.sum_ofFn, proposerReward, Finset.sum_filter,
      ← Finset.univ_inter epoch.source, ← Finset.sum_ite_mem]
    exact Finset.sum_congr rfl fun voter _ => creditOf_record readable counted proposer voter
  simpa only [shares] using credited

/-- **Deltas are as specified:** what comes of own votes, and what comes of including others. -/
theorem epochDeltas_gives (readable : epoch.Readable) (mild : epoch.config.IsMild)
    (counted : epoch.Counted totals) :
    Gives (Array.ofFn epoch.delta)
      (epoch.chain.epochDeltas epoch.config ⟨Array.ofFn epoch.record, totals⟩) := by
  have own : Gives (Array.ofFn epoch.ownDelta)
      (epoch.chain.pendingDeltas epoch.config ⟨Array.ofFn epoch.record, totals⟩) :=
    Gives.mapM_ofFn fun validator => pendingDelta_gives readable mild counted
  refine own.bind ((proposerRewards_gives readable counted).bind (Sound.pure ?_))
  rw [zipWith_ofFn]
  refine congrArg Array.ofFn (funext fun validator => ?_)
  rw [ownDelta, Word.addSat_saturate]
  rfl

/-! ## The part that reads -/

variable {cache after : Cache} {tally : Tally}

/-- **What is planned is what is specified.** -/
theorem planPending_eq_ok (epoch : PendingEpoch preset) (sorted : epoch.Sorted)
    (mild : epoch.config.IsMild) (coherent : cache.CoherentWith epoch.chain) {cancelled : Bool}
    {plan : Plan}
    (ran : epoch.chain.planPending epoch.config cancelled epoch.votes cache = .ok plan after) :
    epoch.Counted plan.tally.totals ∧ plan.deltas = Array.ofFn epoch.delta := by
  obtain ⟨⟨_, counted⟩, deltas, scores⟩ := plan
  obtain ⟨_, middle, opened, entered, planned⟩ := Chain.planPending_eq_ok ran
  have still := (Chain.openPending_hasAnswer).coherent_of_ok coherent opened
  obtain ⟨⟨following, next, records⟩, totals, -⟩ := Chain.openPending_eq_ok opened
  have current : following = epoch.chain.currentEpoch := by
    have started : genesisEpoch < epoch.chain.currentEpoch := of_decide_eq_true sorted.past
    have zero : genesisEpoch.toNat = 0 := rfl
    rw [UInt64.lt_iff_toNat_lt, zero] at started
    rw [← UInt64.toNat_inj, next, Chain.toNat_previousEpoch]
    omega
  subst current
  obtain ⟨rfl, passed⟩ := Chain.countAttestations_eq_ok still records entered
  rw [totals] at passed
  have readable : epoch.Readable := {
    sorted with
    seats := fun attestation listed =>
      Chain.seats_of_countAttestations still entered attestation (List.mem_append_left _ listed) }
  have counted := counted_of_countVotes readable passed
  refine ⟨counted, ?_⟩
  simp only [Chain.dueDeltas, sorted.past, if_true] at planned
  exact (epochDeltas_gives readable mild counted).met_of_eq_ok planned

/-! ## Whole epochs -/

/-- An epoch reports and leaves what it is specified to. -/
structure Describes (epoch : PendingEpoch preset) (report : Report) (final : PendingState preset) :
    Prop where
  totals : epoch.Counted report.totals
  deltas : report.deltas = Array.ofFn epoch.delta
  balances : final.chain.balances.map (·.toNat) =
    Array.ofFn (epoch.chain.balanceAfter .phase0 epoch.delta)
  /-- No reward is cut off by the end of a word. -/
  room : ∀ validator,
    (epoch.chain.balanceOf validator).toNat + (epoch.delta validator).reward.toNat < 2 ^ 64
  previous : final.votes.previous = epoch.votes.current
  current : final.votes.current = []
  /-- Nothing else has changed. -/
  chain : epoch.chain.OnlyBalances final.chain

end PendingEpoch

namespace State

variable {preset : Preset} {state final : PendingState preset} {report : Report}

/-- **Accounting by attestations is as specified.** Let base rewards not be raised, let attestations
be where they belong past the first epoch, and let an epoch of Phase 0 succeed from a state with a
coherent cache. Then its deltas and the new balances of all validators are those that are specified
by who attested what with which delay, and all else is as it was, up to the votes, which have moved
on. -/
theorem processPending_as_specified {config : Config} (mild : config.IsMild) {cancelled : Bool}
    (coherent : state.cache.CoherentWith state.chain)
    (sorted : (PendingEpoch.mk config state.chain state.votes).Sorted)
    (ran : processPending config cancelled state = .ok report final) :
    (PendingEpoch.mk config state.chain state.votes).Describes report final := by
  let epoch : PendingEpoch preset := ⟨config, state.chain, state.votes⟩
  obtain ⟨only, -⟩ := processPending_eq_ok ran
  unfold processPending at ran
  rw [Step.get_bind_apply] at ran
  obtain ⟨plan, _, asked, concluded⟩ := Step.bind_eq_ok_iff.mp ran
  obtain ⟨cache, planned, rfl⟩ := ask_eq_ok_iff.mp asked
  have still := (Chain.planPending_hasAnswer ..).coherent_of_ok coherent planned
  obtain ⟨counted, deltas⟩ := epoch.planPending_eq_ok sorted mild coherent planned
  obtain ⟨room, balances⟩ := balances_conclude concluded still sorted.past deltas
  obtain ⟨_, _, _, _, _, totals, -, reported, votes⟩ := conclude_eq_ok concluded
  refine ⟨totals ▸ counted, reported.trans deltas, balances, room, ?_, ?_, only⟩
  · rw [votes]
    rfl
  · rw [votes]
    rfl

theorem soleVoter_areFrom : soleVoter.votes.AreFrom soleVoter.chain where
  previous attestation listed := by
    obtain rfl | rfl := List.mem_pair.mp listed <;> exact ⟨by decide, by decide, by decide⟩
  current := nofun

theorem processPending_as_specified_soleVoter :
    ∃ report final, processPending Config.minimal false soleVoter = .ok report final ∧
      (PendingEpoch.mk Config.minimal soleVoter.chain soleVoter.votes).Describes report final := by
  have succeeds : Step.Result.succeeds (processPending Config.minimal false soleVoter) = true := by
    decide +kernel
  obtain ⟨report, final, ran⟩ := Step.Result.eq_ok_of_succeeds succeeds
  have sorted : (PendingEpoch.mk Config.minimal soleVoter.chain soleVoter.votes).Sorted :=
    ⟨by decide, by decide, soleVoter_areFrom, by decide⟩
  exact ⟨report, final, ran,
    processPending_as_specified (.inl rfl) soleVoter_coherent sorted ran⟩

end State

end BeaconEpoch
