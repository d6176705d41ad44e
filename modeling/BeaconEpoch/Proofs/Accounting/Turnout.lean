import BeaconEpoch.Proofs.Accounting.Upgrade

/-!
# Turnout

No kind of vote has more stake behind it than there is active stake in its epoch. With flags this
is so because those without duties are filtered out; with attestations because committees consist of
validators with duties, and a validator counts once, however many attestations it takes part in.

## Main definitions

* `Category.epoch`: the epoch that a kind of vote is for.
* `Chain.Dutiful`: records of the registry whose votes are those of validators with duties.
* `Totals.Turnout`: totals of votes that are parts of the active stake.

## Main statements

* `Chain.Shows.attested_mono`: if all votes of one kind are votes of another, then so is the stake
  behind them.
* `Chain.Dutiful.turnout`: dutiful records are counted to a turnout.
* `FlagEpoch.dutiful_record`, `Chain.dutiful_enteredRecord`: records are dutiful, by way of keeping
  votes.
* `Chain.counts_turnout`: all phases.

## Design notes

* **The floor comes last.** Stake is at least one increment on both sides of an inequality, so that
  a set within another is all that has to be shown.
* **Slashed validators are active.** They count on one side only, which can but help.
-/

namespace BeaconEpoch

/-- The epoch that a kind of vote is for. -/
def Category.epoch : Category → AttestationEpoch
  | .currentEpoch | .currentEpochTarget => .current
  | .previousEpoch | .previousEpochTarget | .previousEpochHead => .previous

/-- Every total is at least one increment, and the stake behind a kind of vote is a part of the
active stake of its epoch. A vote for the current target is a vote for the current epoch. -/
structure Totals.Turnout (preset : Preset) (totals : Totals) : Prop where
  activeFloor : ∀ epoch, preset.effectiveBalanceIncrement ≤ totals.active epoch
  attestedFloor : ∀ category, preset.effectiveBalanceIncrement ≤ totals.attested category
  part : ∀ category, totals.attested category ≤ totals.active category.epoch
  currentTarget : totals.currentTargetAttested ≤ totals.currentAttested

/-! ## Dutiful records -/

namespace Chain

variable {preset : Preset} {chain : Chain preset}

/-- Records of the registry whose votes are those of validators with duties. -/
structure Dutiful (chain : Chain preset) (phase : Phase) (record : chain.Member → Record) : Prop
    where
  shown : chain.Shows record
  duties : ∀ validator category, (record validator).attested phase category = true →
    validator ∈ chain.activeIn (chain.epochOf category.epoch.toRelative)
  currentTarget : ∀ validator, (record validator).currentTargetAttester = true →
    (record validator).currentAttester = true

variable {phase : Phase} {record : chain.Member → Record} {counted : Totals}

/-- If all votes of one kind are votes of another, then so is the stake behind them. -/
theorem Shows.attested_mono (shown : chain.Shows record)
    (passed : chain.activeTotals.countVotes preset phase (Array.ofFn record) = .ok counted)
    (category other : Category)
    (implied : ∀ validator, (record validator).attested phase category = true →
      (record validator).attested phase other = true) :
    counted.attested category ≤ counted.attested other := by
  rw [shown.attested_countVotes passed, shown.attested_countVotes passed]
  refine stake_mono (Finset.monotone_filter_right _ fun validator _ counts => ?_)
  rw [Bool.and_eq_true] at counts ⊢
  exact counts.imp_right (implied validator)

/-- **Dutiful records make a turnout.** -/
theorem Dutiful.turnout (dutiful : chain.Dutiful phase record)
    (passed : chain.activeTotals.countVotes preset phase (Array.ofFn record) = .ok counted) :
    counted.Turnout preset where
  activeFloor epoch := by
    rw [active_countVotes passed]
    exact increment_le_stake _
  attestedFloor category := by
    rw [dutiful.shown.attested_countVotes passed]
    exact increment_le_stake _
  part category := by
    rw [dutiful.shown.attested_countVotes passed, active_countVotes passed]
    refine stake_mono fun validator counts => ?_
    rw [Finset.mem_filter_univ, Bool.and_eq_true] at counts
    exact dutiful.duties validator category counts.2
  currentTarget :=
    dutiful.shown.attested_mono passed .currentEpochTarget .currentEpoch dutiful.currentTarget

end Chain

/-! ## By flags -/

namespace FlagEpoch

variable {preset : Preset} {epoch : FlagEpoch preset}

/-- Flags are read of those with duties only, and a vote for the target is a vote. -/
theorem dutiful_record (scores : epoch.chain.Member → InactivityScore) :
    epoch.chain.Dutiful epoch.phase.toPhase fun validator =>
      epoch.record (scores validator) validator where
  shown _ := rfl
  duties validator category := by
    -- a blank record has no votes, so that each vote is a flag of somebody with duties
    simp only [record, Record.readFlags, Chain.blankRecord, Record.ofValidator, Record.attested,
      Chain.mem_activeIn]
    cases epoch.phase <;> cases category <;>
      simp only [Category.epoch, AttestationEpoch.toRelative, Chain.epochOf, FlagPhase.toPhase] <;>
      grind
  currentTarget validator := by
    simp only [record, Record.readFlags, Chain.blankRecord, Record.ofValidator]
    grind

end FlagEpoch

/-! ## By attestations -/

namespace Chain

variable {preset : Preset} {chain : Chain preset}

/-- An attestation is a vote for the epoch that it targets. -/
theorem target_of_qualifies {attestation : PendingAttestation} {category : Category}
    (qualifies : chain.qualifies attestation category = true) :
    attestation.data.target.epoch = chain.epochOf category.epoch.toRelative := by
  cases category <;>
    simp only [Chain.qualifies, Bool.and_eq_true, beq_iff_eq, Category.epoch,
      AttestationEpoch.toRelative, epochOf] at qualifies ⊢ <;> grind

section Entered

variable {votes : PendingVotes} {following : Epoch} {validator : chain.Member}

theorem attested_enteredRecord (category : Category) :
    (chain.enteredRecord votes following validator).attested .phase0 category =
      (chain.votesOf (votes.previous ++ votes.current) validator).any
        (chain.qualifies · category) := by
  rw [enteredRecord, attested_enter, attested_blankRecord, Bool.false_or]

/-- If all attestations of one kind are of another, then so are the votes of records. -/
theorem attested_enteredRecord_mono (category other : Category)
    (implied : ∀ attestation, chain.qualifies attestation category = true →
      chain.qualifies attestation other = true)
    (voted : (chain.enteredRecord votes following validator).attested .phase0 category = true) :
    (chain.enteredRecord votes following validator).attested .phase0 other = true := by
  rw [attested_enteredRecord, List.any_eq_true] at voted ⊢
  exact voted.imp fun attestation voted => voted.imp_right (implied attestation)

/-- Voters are members of committees, which have duties in the epoch of their slot. -/
theorem dutiful_enteredRecord
    (own : ∀ attestation ∈ votes.previous ++ votes.current,
      preset.epochAt attestation.data.slot = attestation.data.target.epoch) :
    chain.Dutiful .phase0 (chain.enteredRecord votes following) where
  shown validator := by
    have kept : (chain.enteredRecord votes following validator).standing = _ := standing_enter
    exact congrArg Prod.fst kept
  duties validator category voted := by
    rw [attested_enteredRecord, List.any_eq_true] at voted
    obtain ⟨attestation, mem, qualifies⟩ := voted
    obtain ⟨listed, votes⟩ := List.mem_filter.mp mem
    obtain ⟨found, registered, active⟩ := hasDuties_of_mem_votersOf (of_decide_eq_true votes)
    rw [own attestation listed, target_of_qualifies qualifies] at active
    obtain ⟨_, rfl⟩ := Array.getElem?_eq_some_iff.mp registered
    exact mem_activeIn.mpr active
  currentTarget validator :=
    attested_enteredRecord_mono .currentEpochTarget .currentEpoch
      fun attestation qualifies => (Bool.and_eq_true_iff.mp qualifies).1

end Entered

/-! ## All phases -/

/-- **Turnout.** Whatever an epoch of Altair or later counts is a turnout. So is what Phase 0 counts
from a coherent cache, if all attestations are made in the epoch that they target; and there every
vote for the head is a vote for the target, and every one for the target is a vote. -/
theorem counts_turnout (chain : Chain preset) :
    (∀ (phase : FlagPhase) (votes : FlagVotes) (cache after : Cache) (counted : Tally),
      chain.countFlagged phase votes cache = .ok counted after →
        counted.totals.Turnout preset) ∧
    ∀ (votes : PendingVotes) (cache after : Cache) (counted : Tally), cache.CoherentWith chain →
      (∀ attestation ∈ votes.previous ++ votes.current,
        preset.epochAt attestation.data.slot = attestation.data.target.epoch) →
      chain.countPending votes cache = .ok counted after →
        counted.totals.Turnout preset ∧
          counted.totals.previousHeadAttested ≤ counted.totals.previousTargetAttested ∧
          counted.totals.previousTargetAttested ≤ counted.totals.previousAttested := by
  refine ⟨?flags, ?pending⟩
  case flags =>
    intro phase votes cache after counted ran
    let epoch : FlagEpoch preset := ⟨default, phase, chain, votes⟩
    obtain ⟨records, passed⟩ := epoch.countFlagged_eq_ok ran
    rw [records] at passed
    exact (epoch.dutiful_record epoch.scoreOf).turnout passed
  case pending =>
    intro votes cache after counted coherent own ran
    obtain ⟨following, records, passed, -⟩ := countPending_eq_ok coherent ran
    rw [records] at passed
    have dutiful : chain.Dutiful .phase0 (chain.enteredRecord votes following) :=
      dutiful_enteredRecord own
    refine ⟨dutiful.turnout passed, ?_, ?_⟩
    · refine dutiful.shown.attested_mono passed .previousEpochHead .previousEpochTarget
        fun _ => attested_enteredRecord_mono _ _ ?_
      exact fun attestation qualifies => (Bool.and_eq_true_iff.mp qualifies).1
    · refine dutiful.shown.attested_mono passed .previousEpochTarget .previousEpoch
        fun _ => attested_enteredRecord_mono _ _ ?_
      exact fun attestation qualifies => (Bool.and_eq_true_iff.mp qualifies).1

/-- One of three validators has left after the first epoch and was slashed; a single validator was
included twice. -/
theorem counts_turnout_threeFates :
    (∃ counted after,
      State.threeFates.chain.countFlagged .altair State.threeFates.votes State.threeFates.cache =
        .ok counted after ∧
      counted.totals.Turnout .minimal) ∧
    soleVoter.cache.CoherentWith soleVoter.chain ∧
    (∀ attestation ∈ soleVoter.votes.previous ++ soleVoter.votes.current,
      Preset.minimal.epochAt attestation.data.slot = attestation.data.target.epoch) ∧
    ∃ counted after,
      soleVoter.chain.countPending soleVoter.votes soleVoter.cache = .ok counted after ∧
      counted.totals.Turnout .minimal ∧
        counted.totals.previousHeadAttested ≤ counted.totals.previousTargetAttested ∧
        counted.totals.previousTargetAttested ≤ counted.totals.previousAttested := by
  have flagged : Step.Result.succeeds (State.threeFates.chain.countFlagged .altair
      State.threeFates.votes State.threeFates.cache) = true := by decide +kernel
  have pending : Step.Result.succeeds
      (soleVoter.chain.countPending soleVoter.votes soleVoter.cache) = true := by decide +kernel
  have own : ∀ attestation ∈ soleVoter.votes.previous ++ soleVoter.votes.current,
      Preset.minimal.epochAt attestation.data.slot = attestation.data.target.epoch := by decide
  obtain ⟨counted, after, ran⟩ := Step.Result.eq_ok_of_succeeds flagged
  obtain ⟨counted', after', ran'⟩ := Step.Result.eq_ok_of_succeeds pending
  exact ⟨⟨counted, after, ran, (counts_turnout _).1 .altair _ _ _ _ ran⟩, soleVoter_coherent, own,
    counted', after', ran', (counts_turnout _).2 _ _ _ _ soleVoter_coherent own ran'⟩

end Chain

end BeaconEpoch
