import BeaconEpoch.Proofs.Comparison.Epoch

/-!
# Votes that do not count

Flags of slashed validators, flags for an epoch without duties, and flags that mean nothing are
ignored: an epoch of Altair or later ends in the same way whatever they are.

## Main definitions

* `Record.muted`: a record without the votes of a slashed validator.
* `Comparison.faithful`: epochs that find the same values.
* `Comparison.mutedEq`: epochs whose records are the same when muted.
* `FlagState.SameBallots`: two states whose flags agree where they count.

## Main statements

* `FlagRates.delta_muted`, `Totals.addRecord_muted`: the votes of slashed validators are not looked
  at.
* `Comparison.faithful_lawful`: records that are the same when muted lead to the same values.
* `State.processFlags_ignores_idle`: whole epochs.

## Design notes

* **Records do show votes that do not count.** What is read for a slashed validator is entered into
  its record, and only those who read records leave it out. So records are compared muted.
-/

namespace BeaconEpoch

/-! ## Muted records -/

/-- A record without the votes of a slashed validator. -/
def Record.muted (record : Record) : Record :=
  if record.slashed then
    { record with
      currentAttester := false
      currentTargetAttester := false
      previousAttester := false
      previousSourceAttester := false
      previousTargetAttester := false
      previousHeadAttester := false }
  else record

namespace Record

variable (record : Record)

@[simp] theorem effectiveBalance_muted :
    record.muted.effectiveBalance = record.effectiveBalance := by
  unfold muted
  split <;> rfl

@[simp] theorem inactivityScore_muted :
    record.muted.inactivityScore = record.inactivityScore := by
  unfold muted
  split <;> rfl

@[simp] theorem eligible_muted : record.muted.eligible = record.eligible := by
  unfold muted
  split <;> rfl

@[simp] theorem missedTarget_muted : record.muted.missedTarget = record.missedTarget := by
  unfold muted
  split <;> simp_all [missedTarget]

/-- Of a slashed validator no vote counts, so muting it hides none that would. -/
theorem flagVote_muted (totals : Totals) (flag : Nat) :
    record.muted.flagVote totals flag = record.flagVote totals flag := by
  unfold muted
  split <;> simp_all [flagVote]

theorem withScore_muted (score : InactivityScore) :
    muted { record with inactivityScore := score } =
      { record.muted with inactivityScore := score } := by
  unfold muted
  split <;> rfl

/-- The flags of slashed validators are muted. -/
theorem muted_readFlags_of_slashed {record : Record} (slashed : record.slashed = true)
    (previous current previous' current' : ParticipationFlags) :
    (record.readFlags previous' current').muted = (record.readFlags previous current).muted := by
  simp [muted, readFlags, slashed]

/-- Flags for an epoch without duties are not read, and neither are those that mean nothing. -/
theorem readFlags_congr {record : Record} {previous current previous' current' : ParticipationFlags}
    (previousAgree : record.activePrevious = true →
      ∀ flag ≤ timelyHeadFlag, hasFlag previous' flag = hasFlag previous flag)
    (currentAgree : record.activeCurrent = true →
      ∀ flag ≤ timelyHeadFlag, hasFlag current' flag = hasFlag current flag) :
    record.readFlags previous' current' = record.readFlags previous current := by
  have counts {active : Bool} {flags flags' : ParticipationFlags} {flag : Nat}
      (agree : active = true → ∀ flag ≤ timelyHeadFlag, hasFlag flags' flag = hasFlag flags flag)
      (known : flag ≤ timelyHeadFlag) :
      (active && hasFlag flags' flag) = (active && hasFlag flags flag) := by
    cases active with
    | true => rw [agree rfl flag known]
    | false => rfl
  have source : timelySourceFlag ≤ timelyHeadFlag := by decide
  have target : timelyTargetFlag ≤ timelyHeadFlag := by decide
  simp only [readFlags, counts previousAgree source, counts previousAgree target,
    counts previousAgree (Nat.le_refl _), counts currentAgree source, counts currentAgree target]

/-- Muting commutes with noting a balance and a delta. -/
theorem noted_muted (balance : Gwei) (delta : Delta) :
    muted (Books.noted record balance delta) = Books.noted record.muted balance delta := by
  unfold muted Books.noted
  split <;> rfl

end Record

/-! ## What does not look at votes of slashed validators -/

section Blind

variable (config : Config) (record : Record)

theorem Config.scoreOverflows_muted :
    config.scoreOverflows record.muted = config.scoreOverflows record := by
  simp only [scoreOverflows, Record.eligible_muted, Record.missedTarget_muted,
    Record.inactivityScore_muted]

theorem Config.nextScore_muted (leaking : Bool) :
    config.nextScore leaking record.muted = config.nextScore leaking record := by
  simp only [nextScore, Record.missedTarget_muted, Record.inactivityScore_muted]

/-- Totals do not count what is muted. -/
theorem Totals.addRecord_muted (phase : Phase) (totals : Totals) :
    totals.addRecord phase record.muted = totals.addRecord phase record := by
  unfold Record.muted
  split <;> simp_all [addRecord]

theorem Totals.addVotes_map_muted (phase : Phase) (totals : Totals) (records : Array Record) :
    totals.addVotes phase (records.map Record.muted) = totals.addVotes phase records := by
  simp only [addVotes, Array.foldl_map, addRecord_muted]

namespace FlagRates

variable (rates : FlagRates)

theorem baseReward_muted : rates.baseReward record.muted = rates.baseReward record := by
  simp only [baseReward, Record.effectiveBalance_muted]

theorem flagReward_muted (baseReward : Gwei) (flag weight : Nat) :
    rates.flagReward record.muted baseReward flag weight =
      rates.flagReward record baseReward flag weight := by
  simp only [flagReward, Record.flagVote_muted]

theorem flagPenalty_muted (baseReward : Gwei) (flag weight : Nat) :
    rates.flagPenalty record.muted baseReward flag weight =
      rates.flagPenalty record baseReward flag weight := by
  simp only [flagPenalty, Record.flagVote_muted]

theorem inactivityPenalty_muted :
    rates.inactivityPenalty record.muted = rates.inactivityPenalty record := by
  have missed := record.missedTarget_muted
  unfold Record.missedTarget at missed
  simp only [inactivityPenalty, missed, Record.effectiveBalance_muted,
    Record.inactivityScore_muted]

/-- **Nobody gains or loses by votes as a slashed validator.** -/
theorem delta_muted : rates.delta record.muted = rates.delta record := by
  simp only [delta, Record.eligible_muted, baseReward_muted, flagReward_muted, flagPenalty_muted,
    inactivityPenalty_muted]

end FlagRates

end Blind

/-! ## Epochs with the same values -/

namespace Comparison

variable {count : Nat} {preset : Preset} {config : Config} {phase : Phase}

/-- Two epochs that find the same values, from records that are related in some way. -/
def faithful (likeness : Likeness) (order : Equiv.Perm (Fin count))
    (record : Record → Record → Prop) : Comparison count where
  likeness
  order
  record
  totals := Eq
  score := Eq
  delta := Eq
  balance := Eq

/-- **The same records when muted lead to the same values.** -/
theorem faithful_lawful {likeness : Likeness} {order : Equiv.Perm (Fin count)}
    {related : Record → Record → Prop} (inOrder : likeness = .exact → order = .refl _)
    (muted : ∀ {record record'}, related record record' → record'.muted = record.muted)
    (withScore : ∀ {record record'} score, related record record' →
      related { record with inactivityScore := score } { record' with inactivityScore := score })
    (noted : ∀ {record record'} balance delta, related record record' →
      related (Books.noted record balance delta) (Books.noted record' balance delta)) :
    (faithful likeness order related).Lawful preset config phase := by
  have same {α : Type} (f : Record → α) (blind : ∀ record, f record.muted = f record)
      {record record' : Record} (entered : related record record') : f record' = f record := by
    rw [← blind, muted entered, blind]
  constructor
  case inOrder => exact inOrder
  case countVotes =>
    intro record record' totals entered
    have matched : Matched order Eq ((Array.ofFn record).map Record.muted)
        ((Array.ofFn record').map Record.muted) :=
      (Matched.ofFn entered).map fun _ _ entered => (muted entered).symm
    have counted := Totals.addVotes_perm phase totals matched.perm
    rw [Totals.addVotes_map_muted, Totals.addVotes_map_muted] at counted
    simp only [Totals.countVotes, counted]
    exact Tied.refl likeness _
  case activeCurrent =>
    rintro totals _ rfl
    rfl
  case eligible =>
    intro record record'
    exact same _ Record.eligible_muted
  case scoreOverflows =>
    intro _ record record'
    exact same _ config.scoreOverflows_muted
  case keepScore =>
    intro score
    rfl
  case nextScore =>
    intro leaking record record' entered _ _ _
    exact (same _ (config.nextScore_muted · leaking) entered).symm
  case withScore =>
    rintro record record' score _ entered rfl
    exact withScore score entered
  case noDelta => rfl
  case flagDelta =>
    rintro rates totals record record' rfl entered
    rw [same _ (FlagRates.delta_muted · rates) entered]
    exact Tied.refl likeness _
  case fits =>
    rintro _ delta _ balance _ rfl rfl
    rfl
  case apply =>
    rintro delta _ balance _ rfl rfl _ _
    rfl
  case noted =>
    rintro record record' delta _ balance _ entered rfl rfl
    exact noted balance delta entered
  case decrease =>
    rintro balance _ amount rfl
    rfl

/-- Two epochs whose records are the same when muted. -/
def mutedEq (count : Nat) : Comparison count :=
  faithful .exact (.refl _) fun record record' => record'.muted = record.muted

/-- Records that are equal once muted stay so through every step, and every step takes the same from
them. -/
theorem mutedEq_lawful : (mutedEq count).Lawful preset config phase := by
  refine faithful_lawful (fun _ => rfl) id ?_ ?_
  · intro record record' score entered
    rw [record.withScore_muted, record'.withScore_muted, entered]
  · intro record record' balance delta entered
    rw [Record.noted_muted, Record.noted_muted, entered]

end Comparison

/-! ## Votes that count -/

/-- Two states of the same chain, whose flags agree where they count: those of unslashed validators
for epochs in which they have duties. The flags that mean nothing do not count at all. -/
structure FlagState.SameBallots {preset : Preset} (state other : FlagState preset) : Prop where
  chain : other.chain = state.chain
  scores : other.votes.inactivityScores = state.votes.inactivityScores
  previous : ∀ validator : state.chain.Member,
    state.chain.validators[validator].slashed = false →
      state.chain.validators[validator].isActive state.chain.previousEpoch = true →
        ∀ flag ≤ timelyHeadFlag, hasFlag (other.votes.previous.getD validator 0) flag =
          hasFlag (state.votes.previous.getD validator 0) flag
  current : ∀ validator : state.chain.Member,
    state.chain.validators[validator].slashed = false →
      state.chain.validators[validator].isActive state.chain.currentEpoch = true →
        ∀ flag ≤ timelyHeadFlag, hasFlag (other.votes.current.getD validator 0) flag =
          hasFlag (state.votes.current.getD validator 0) flag

/-- Flags that agree where they count make the same record, once it is muted. -/
theorem FlagState.SameBallots.muted_record {preset : Preset} {state other : FlagState preset}
    (same : state.SameBallots other) (validator : state.chain.Member) :
    ((other.holdingAt validator).record state.chain.previousEpoch
        state.chain.currentEpoch).muted =
      ((state.holdingAt validator).record state.chain.previousEpoch
        state.chain.currentEpoch).muted := by
  have entry : state.chain.validators.getD validator default =
      state.chain.validators[validator] := by simp
  unfold Holding.record
  rw [State.blank_holdingAt same.chain same.scores]
  cases caught : state.chain.validators[validator].slashed with
  | true =>
    refine Record.muted_readFlags_of_slashed ?_ ..
    simp only [Holding.blank, State.holdingAt, Record.ofValidator, entry, caught]
  | false =>
    refine congrArg Record.muted (Record.readFlags_congr ?_ ?_)
    · intro active
      simp only [Holding.blank, State.holdingAt, Record.ofValidator, entry] at active
      exact same.previous validator caught active
    · intro active
      simp only [Holding.blank, State.holdingAt, Record.ofValidator, entry] at active
      exact same.current validator caught active

/-! ## Whole epochs -/

namespace State

variable {preset : Preset}

/-- **Votes that must not count do not count.** Let two states of the same chain have flags that
agree where they count, and nothing else that differs but their caches, which are coherent. Then an
epoch fails on both with the same error or succeeds on both, and then finds the same totals, deltas
and slashing penalties, and leaves the same balances and the same inactivity scores. -/
theorem processFlags_ignores_idle (config : Config) (phase : Phase) (cancelled : Bool)
    {state other : FlagState preset} (same : state.SameBallots other)
    (complete : FlagState.Complete state) (complete' : FlagState.Complete other)
    (coherent : state.cache.CoherentWith state.chain)
    (coherent' : other.cache.CoherentWith other.chain) :
    Step.Tied .exact
      (fun report final report' final' => report'.totals = report.totals ∧
        report'.deltas = report.deltas ∧
        report'.slashingPenalties = report.slashingPenalties ∧
        final'.chain.balances = final.chain.balances ∧
        final'.votes.inactivityScores = final.votes.inactivityScores)
      (processFlags config phase cancelled state) (processFlags config phase cancelled other) := by
  have starts : (Comparison.mutedEq state.chain.validators.size).Starts state other :=
    .of_chain rfl (fun _ => rfl) same.chain same.scores complete complete' coherent coherent'
      same.muted_record
  refine (Comparison.processFlags_tied Comparison.mutedEq_lawful cancelled starts).mono ?_
  intro report final report' final' ends
  exact ⟨ends.totals.symm, ends.deltas.eq, ends.slashingPenalties.eq, ends.balances.eq,
    ends.scores.eq⟩

/-- The state with three fates, with other votes of the slashed validator and with flags that mean
nothing. -/
def idleFlags : FlagState .minimal :=
  { threeFates with votes := ⟨#[255, 2, 248], #[15, 0, 16], #[0, 0, 5]⟩ }

theorem processFlags_ignores_idle_idleFlags :
    ∃ report final report' final',
      processFlags Config.minimal .altair false threeFates = .ok report final ∧
      processFlags Config.minimal .altair false idleFlags = .ok report' final' ∧
      report'.totals = report.totals ∧ report'.deltas = report.deltas ∧
      report'.slashingPenalties = report.slashingPenalties ∧
      final'.chain.balances = final.chain.balances ∧
      final'.votes.inactivityScores = final.votes.inactivityScores := by
  have same : threeFates.SameBallots idleFlags :=
    ⟨rfl, rfl, by decide +kernel, by decide +kernel⟩
  have tied := processFlags_ignores_idle Config.minimal .altair false same
    ⟨rfl, rfl, rfl, rfl⟩ ⟨rfl, rfl, rfl, rfl⟩ (.empty _) (.empty _)
  have succeeds :
      Step.Result.succeeds (processFlags Config.minimal .altair false threeFates) = true := by
    decide +kernel
  obtain ⟨report, final, ran⟩ := Step.Result.eq_ok_of_succeeds succeeds
  -- where the one succeeds the other does
  rw [ran] at tied
  obtain ⟨report', final', ran'⟩ := tied.exists_right nofun
  rw [ran'] at tied
  exact ⟨report, final, report', final', ran, ran', tied⟩

end State

end BeaconEpoch
