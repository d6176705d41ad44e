import BeaconEpoch.Proofs.Accounting.Turnout
import BeaconEpoch.Proofs.Progress.Tally

/-!
# Forecast

Before an epoch ends it can be asked what its totals would be if it ended now. The answer is found
in one pass over the registry, and it agrees with what the end of the epoch counts.

## Main definitions

* `Chain.unslashedIn`, `Chain.targeting`: the validators whose stake is forecast.
* `Chain.forecastTurn`, `Chain.entryOf`, `Chain.forecastPass`: the pass over the registry, turn by
  turn.
* `Chain.Forecasts`: totals that are the stake of these validators.
* `Chain.Foretells`: a forecast that agrees with what is counted.

## Main statements

* `Chain.unrealizedTotals_eq`: only flags of validators are read.
* `Chain.forecasts_of_unrealizedTotals`: what is forecast.
* `Chain.unrealizedTotals_found`, `Chain.countFlagged_found`: no sum of a forecast is too large, and
  epochs count their votes.
* `Chain.Forecasts.foretells`: forecast and count.
* `FlagState.forecast_agrees`: all phases.

## Design notes

* **The forecast knows one epoch.** Only those with duties now are forecast, also where a vote is
  for the previous epoch; the count asks for duties in the epoch that was voted for. Stake of the
  previous epoch agrees if those with a vote have not come or gone in between.
* **Slashed stake is active.** The forecast leaves it out of the active stake, the count does not.
-/

namespace BeaconEpoch

/-! ## What is forecast -/

namespace Chain

variable {preset : Preset} (chain : Chain preset)

/-- The unslashed validators with duties in an epoch. -/
def unslashedIn (epoch : Epoch) : Finset chain.Member :=
  {validator ∈ chain.activeIn epoch | ¬(chain.validatorAt validator).slashed}

/-- Those among them whose flags have the right target. -/
def targeting (flags : Array ParticipationFlags) (epoch : Epoch) : Finset chain.Member :=
  {validator ∈ chain.unslashedIn epoch | hasFlag (flags.getD validator 0) timelyTargetFlag}

/-- Totals of the stake that counts if the epoch ends now. -/
structure Forecasts (votes : FlagVotes) (totals : Totals) : Prop where
  active : totals.activeCurrent = chain.stake (chain.unslashedIn chain.currentEpoch)
  previousTarget : totals.previousTargetAttested =
    chain.stake (chain.targeting votes.previous chain.currentEpoch)
  currentTarget : totals.currentTargetAttested =
    chain.stake (chain.targeting votes.current chain.currentEpoch)

variable {chain} {validator : chain.Member} {epoch : Epoch}

theorem mem_unslashedIn :
    validator ∈ chain.unslashedIn epoch ↔ validator ∈ chain.activeIn epoch ∧
      (chain.validatorAt validator).slashed = false := by
  simp [unslashedIn]

theorem mem_targeting {flags : Array ParticipationFlags} :
    validator ∈ chain.targeting flags epoch ↔ validator ∈ chain.unslashedIn epoch ∧
      hasFlag (flags.getD validator 0) timelyTargetFlag = true := by
  simp [targeting]

/-! ## One pass over the registry -/

variable (chain)

/-- What the pass reads of a validator: its entry in the registry, and its flags. -/
def entryOf (votes : FlagVotes) (validator : chain.Member) :
    Validator × ParticipationFlags × ParticipationFlags :=
  (chain.validatorAt validator, votes.previous.getD validator 0, votes.current.getD validator 0)

/-- Whether a validator counts if the epoch ends now. -/
def countsNow (validator : Validator) : Bool :=
  validator.isActive chain.currentEpoch && !validator.slashed

/-- Whether the flags of a validator are a vote of a kind that is forecast. -/
def forecastVote (entry : Validator × ParticipationFlags × ParticipationFlags) : Category → Bool
  | .previousEpochTarget => hasFlag entry.2.1 timelyTargetFlag
  | .currentEpochTarget => hasFlag entry.2.2 timelyTargetFlag
  | _ => false

/-- The stake of one validator added to a forecast. -/
def forecastTurn (totals : Totals)
    (entry : Validator × ParticipationFlags × ParticipationFlags) : Totals :=
  if entry.1.slashed || !entry.1.isActive chain.currentEpoch then totals
  else
    let amount := entry.1.effectiveBalance
    let totals := totals.addActive .current amount
    let totals :=
      if hasFlag entry.2.1 timelyTargetFlag then totals.addAttested .previousEpochTarget amount
      else totals
    if hasFlag entry.2.2 timelyTargetFlag then totals.addAttested .currentEpochTarget amount
    else totals

/-- The stake of all validators that count, added up. -/
def forecastPass (votes : FlagVotes) : Totals :=
  (Array.ofFn (chain.entryOf votes)).foldl chain.forecastTurn {}

variable {chain} {votes : FlagVotes}

/-- **Only flags of validators are read.** There have to be enough of them. -/
theorem unrealizedTotals_eq (previous : chain.validators.size ≤ votes.previous.size)
    (current : chain.validators.size ≤ votes.current.size) :
    chain.unrealizedTotals votes =
      (chain.forecastPass votes).checked >>= fun totals => .ok (totals.floor preset) := by
  have entries : chain.validators.zip (votes.previous.zip votes.current) =
      Array.ofFn (chain.entryOf votes) := by
    refine Array.ext (by simp; omega) fun index inside inside' => ?_
    rw [Array.size_ofFn] at inside'
    simp [entryOf, Nat.lt_of_lt_of_le inside' previous, Nat.lt_of_lt_of_le inside' current]
  unfold unrealizedTotals
  rw [if_pos ⟨previous, current⟩, entries]
  rfl

/-- Flags beyond the registry are ignored. -/
theorem unrealizedTotals_append (previous : chain.validators.size ≤ votes.previous.size)
    (current : chain.validators.size ≤ votes.current.size)
    (more more' : Array ParticipationFlags) :
    chain.unrealizedTotals { votes with
      previous := votes.previous ++ more
      current := votes.current ++ more' } = chain.unrealizedTotals votes := by
  have getD_append {flags : Array ParticipationFlags} (enough : chain.validators.size ≤ flags.size)
      (beyond : Array ParticipationFlags) (validator : chain.Member) :
      (flags ++ beyond).getD validator 0 = flags.getD validator 0 := by
    have inside := Nat.lt_of_lt_of_le validator.isLt enough
    simp [Array.getD_eq_getD_getElem?, Array.getElem?_append_left inside]
  rw [unrealizedTotals_eq previous current, unrealizedTotals_eq]
  · have entries : chain.entryOf { votes with
        previous := votes.previous ++ more
        current := votes.current ++ more' } = chain.entryOf votes :=
      funext fun validator => by simp only [entryOf, getD_append previous, getD_append current]
    rw [forecastPass, forecastPass, entries]
  · exact Nat.le_trans previous (by simp)
  · exact Nat.le_trans current (by simp)

section Turn

variable (totals : Totals) (entry : Validator × ParticipationFlags × ParticipationFlags)

theorem activeCurrent_forecastTurn :
    (chain.forecastTurn totals entry).activeCurrent =
      totals.activeCurrent +
        if chain.countsNow entry.1 then entry.1.effectiveBalance.toNat else 0 := by
  unfold forecastTurn countsNow
  grind [Totals.addActive, Totals.addAttested]

theorem activePrevious_forecastTurn :
    (chain.forecastTurn totals entry).activePrevious = totals.activePrevious := by
  unfold forecastTurn
  grind [Totals.addActive, Totals.addAttested]

theorem attested_forecastTurn (category : Category) :
    (chain.forecastTurn totals entry).attested category =
      totals.attested category +
        if chain.countsNow entry.1 && forecastVote entry category then
          entry.1.effectiveBalance.toNat
        else 0 := by
  unfold forecastTurn countsNow
  cases category <;> grind [Totals.addActive, Totals.addAttested, Totals.attested, forecastVote]

end Turn

/-- A total that the pass raises for some validators is the stake of those. -/
theorem reading_forecastPass (reading : Totals → Nat) (blank : reading {} = 0)
    {counts : Validator × ParticipationFlags × ParticipationFlags → Bool}
    (each : ∀ totals entry, reading (chain.forecastTurn totals entry) =
      reading totals + if counts entry then entry.1.effectiveBalance.toNat else 0) :
    max preset.effectiveBalanceIncrement (reading (chain.forecastPass votes)) =
      chain.stake {validator | counts (chain.entryOf votes validator)} := by
  rw [forecastPass, reading_foldl_ofFn reading each, blank, Nat.zero_add]
  rfl

/-- **What is forecast.** -/
theorem forecasts_of_unrealizedTotals {totals : Totals}
    (previous : chain.validators.size ≤ votes.previous.size)
    (current : chain.validators.size ≤ votes.current.size)
    (found : chain.unrealizedTotals votes = .ok totals) : chain.Forecasts votes totals := by
  rw [unrealizedTotals_eq previous current] at found
  cases passed : (chain.forecastPass votes).checked with
  | error e =>
    rw [passed] at found
    cases found
  | ok counted =>
    rw [passed, (Totals.eq_of_checked_eq_ok passed).1] at found
    cases found
    refine ⟨(reading_forecastPass (·.activeCurrent) rfl activeCurrent_forecastTurn).trans ?_,
      (reading_forecastPass (·.attested .previousEpochTarget) rfl
        fun _ _ => attested_forecastTurn ..).trans ?_,
      (reading_forecastPass (·.attested .currentEpochTarget) rfl
        fun _ _ => attested_forecastTurn ..).trans ?_⟩
    all_goals
      refine congrArg chain.stake (Finset.ext fun validator => ?_)
      simp [mem_targeting, mem_unslashedIn, countsNow, entryOf, forecastVote]

/-- A turn adds less than the largest word to every total. -/
theorem within_forecastTurn {totals : Totals} {bound : Nat} (within : totals.Within bound bound)
    (entry : Validator × ParticipationFlags × ParticipationFlags) :
    (chain.forecastTurn totals entry).Within (bound + 2 ^ 64) (bound + 2 ^ 64) := by
  have stake := entry.1.effectiveBalance.toNat_lt
  have add {total : Nat} (small : total ≤ bound) (counts : Bool) :
      total + (if counts then entry.1.effectiveBalance.toNat else 0) ≤ bound + 2 ^ 64 := by
    split <;> omega
  constructor
  · rw [activeCurrent_forecastTurn]
    exact add within.activeCurrent _
  · rw [activePrevious_forecastTurn]
    exact Nat.le_add_right_of_le within.activePrevious
  · intro category
    rw [attested_forecastTurn]
    exact add (within.attested category) _

/-- **No sum of a forecast is too large,** unless there are more validators than a word can
number. -/
theorem unrealizedTotals_found (few : chain.validators.size < 2 ^ 64)
    (previous : chain.validators.size ≤ votes.previous.size)
    (current : chain.validators.size ≤ votes.current.size) :
    ∃ totals, chain.unrealizedTotals votes = .ok totals := by
  have within : (chain.forecastPass votes).Within
      ((Array.ofFn (chain.entryOf votes)).size * 2 ^ 64)
      ((Array.ofFn (chain.entryOf votes)).size * 2 ^ 64) := by
    refine Array.foldl_induction (motive := fun index (counted : Totals) =>
      counted.Within (index * 2 ^ 64) (index * 2 ^ 64)) ?_ fun index counted smaller => ?_
    · refine ⟨Nat.zero_le _, Nat.zero_le _, fun category => ?_⟩
      cases category <;> exact Nat.zero_le _
    · rw [Nat.succ_mul]
      exact within_forecastTurn smaller _
  rw [Array.size_ofFn] at within
  rw [unrealizedTotals_eq previous current,
    within.checked (Nat.mul_lt_mul_of_pos_right few (Nat.two_pow_pos 64))]
  exact ⟨_, rfl⟩

/-! ## Forecast and count -/

/-- A forecast agrees with what is counted at the end of the epoch. -/
structure Foretells (chain : Chain preset) (votes : FlagVotes) (unrealized counted : Totals) : Prop
    where
  currentTarget : unrealized.currentTargetAttested = counted.currentTargetAttested
  active_le : unrealized.activeCurrent ≤ counted.activeCurrent
  /-- Nobody with duties now is slashed. -/
  active_eq : (∀ validator ∈ chain.activeIn chain.currentEpoch,
      ¬(chain.validatorAt validator).slashed) →
    unrealized.activeCurrent = counted.activeCurrent
  /-- Nobody with a vote for the target has come or gone. -/
  previousTarget : (∀ validator : chain.Member, ¬(chain.validatorAt validator).slashed →
      hasFlag (votes.previous.getD validator 0) timelyTargetFlag →
      (validator ∈ chain.activeIn chain.previousEpoch ↔
        validator ∈ chain.activeIn chain.currentEpoch)) →
    unrealized.previousTargetAttested = counted.previousTargetAttested

/-- Whoever has voted for a target is forecast to be active. -/
theorem Forecasts.target_le {unrealized : Totals} (forecast : chain.Forecasts votes unrealized) :
    unrealized.previousTargetAttested ≤ unrealized.activeCurrent ∧
      unrealized.currentTargetAttested ≤ unrealized.activeCurrent := by
  rw [forecast.active, forecast.previousTarget, forecast.currentTarget]
  exact ⟨stake_mono (Finset.filter_subset ..), stake_mono (Finset.filter_subset ..)⟩

section Count

variable {phase : FlagPhase} {cache after : Cache} {counted : Tally}

/-- What is counted is the stake of those who had duties in the epoch that they voted for. -/
theorem targets_countFlagged (ran : chain.countFlagged phase votes cache = .ok counted after) :
    counted.totals.activeCurrent = chain.stake (chain.activeIn chain.currentEpoch) ∧
      counted.totals.previousTargetAttested =
        chain.stake (chain.targeting votes.previous chain.previousEpoch) ∧
      counted.totals.currentTargetAttested =
        chain.stake (chain.targeting votes.current chain.currentEpoch) := by
  let epoch : FlagEpoch preset := ⟨default, phase, chain, votes⟩
  obtain ⟨records, passed⟩ := epoch.countFlagged_eq_ok ran
  rw [records] at passed
  have attested (category : Category) :=
    (epoch.dutiful_record epoch.scoreOf).shown.attested_countVotes passed category
  refine ⟨active_countVotes passed .current, (attested .previousEpochTarget).trans ?_,
    (attested .currentEpochTarget).trans ?_⟩
  all_goals
    refine congrArg chain.stake (Finset.ext fun validator => ?_)
    simp only [mem_targeting, mem_unslashedIn, mem_activeIn, FlagEpoch.record, Record.readFlags,
      blankRecord, Record.ofValidator, Record.attested]
    grind [FlagEpoch.flagsOf]

/-- A forecast and a count agree. -/
theorem Forecasts.foretells {unrealized : Totals} (forecast : chain.Forecasts votes unrealized)
    (ran : chain.countFlagged phase votes cache = .ok counted after) :
    chain.Foretells votes unrealized counted.totals := by
  obtain ⟨active, previousTarget, currentTarget⟩ := targets_countFlagged ran
  refine ⟨forecast.currentTarget.trans currentTarget.symm, ?_, fun unslashed => ?_,
    fun settled => ?_⟩
  · rw [forecast.active, active]
    exact stake_mono (Finset.filter_subset ..)
  · rw [forecast.active, active]
    refine congrArg chain.stake (Finset.ext fun validator => ?_)
    rw [mem_unslashedIn, and_iff_left_iff_imp]
    exact fun duties => Bool.not_eq_true _ ▸ unslashed validator duties
  · rw [forecast.previousTarget, previousTarget]
    refine congrArg chain.stake (Finset.ext fun validator => ?_)
    rw [mem_targeting, mem_targeting, mem_unslashedIn, mem_unslashedIn]
    refine and_congr_left fun voted => and_congr_left fun unslashed => ?_
    exact (settled validator (Bool.not_eq_true _ ▸ unslashed) voted).symm

/-- **Epochs count their votes.** -/
theorem countFlagged_found (few : chain.validators.size < 2 ^ 64)
    (fit : votes.Fit chain.validators.size) (phase : FlagPhase) (cache : Cache) :
    ∃ counted after, chain.countFlagged phase votes cache = .ok counted after := by
  let epoch : FlagEpoch preset := ⟨default, phase, chain, votes⟩
  obtain ⟨after, ran⟩ := epoch.countFlagged_of_countVotes fit.inactivityScores fit.previous
    fit.current (activeTotals_fit few) (countVotes_fit few phase.toPhase Array.size_ofFn) cache
  exact ⟨_, after, ran⟩

end Count

end Chain

/-! ## All phases -/

namespace FlagState

variable {preset : Preset}

/-- **The forecast agrees with the count.** Let a state have one entry of flags per validator. To
ask for a forecast leaves the state and its cache alone, and the answer does not depend on flags
beyond the registry. A forecast has no more stake behind a target than it has active stake. The
epoch counts the same stake behind the current target and at least the same active stake, which is
the same if nobody who is active is slashed; and the same stake behind the previous target, if
nobody who voted for it has come or gone. And there are a forecast and a count, unless there are
more validators than a word can number. -/
theorem forecast_agrees (state : FlagState preset)
    (fit : state.votes.Fit state.chain.validators.size) :
    State.ask (fun chain => Step.ofExcept (chain.unrealizedTotals state.votes)) state =
        Step.ofExcept (state.chain.unrealizedTotals state.votes) state ∧
      (∀ previous current : Array ParticipationFlags,
        state.chain.unrealizedTotals { state.votes with
          previous := state.votes.previous ++ previous
          current := state.votes.current ++ current } =
            state.chain.unrealizedTotals state.votes) ∧
      (∀ unrealized, state.chain.unrealizedTotals state.votes = .ok unrealized →
        unrealized.previousTargetAttested ≤ unrealized.activeCurrent ∧
        unrealized.currentTargetAttested ≤ unrealized.activeCurrent ∧
        ∀ (phase : FlagPhase) (cache after : Cache) (counted : Tally),
          state.chain.countFlagged phase state.votes cache = .ok counted after →
            state.chain.Foretells state.votes unrealized counted.totals) ∧
      (state.chain.validators.size < 2 ^ 64 →
        (∃ unrealized, state.chain.unrealizedTotals state.votes = .ok unrealized) ∧
        ∀ (phase : FlagPhase) (cache : Cache),
          ∃ counted after,
            state.chain.countFlagged phase state.votes cache = .ok counted after) := by
  have previous := Nat.le_of_eq fit.previous.symm
  have current := Nat.le_of_eq fit.current.symm
  refine ⟨?untouched, Chain.unrealizedTotals_append previous current,
    fun unrealized found => ?agrees, fun few => ⟨Chain.unrealizedTotals_found few previous current,
      fun phase cache => Chain.countFlagged_found few fit phase cache⟩⟩
  case untouched =>
    simp only [State.ask]
    cases state.chain.unrealizedTotals state.votes <;> rfl
  case agrees =>
    have forecast := Chain.forecasts_of_unrealizedTotals previous current found
    exact ⟨forecast.target_le.1, forecast.target_le.2,
      fun phase cache after counted ran => forecast.foretells ran⟩

/-- The slashed validator of `threeFates` has gone in between, but does not count. -/
theorem forecast_agrees_threeFates :
    State.threeFates.votes.Fit State.threeFates.chain.validators.size ∧
      State.threeFates.chain.validators.size < 2 ^ 64 ∧
      ∃ unrealized counted after,
        State.threeFates.chain.unrealizedTotals State.threeFates.votes = .ok unrealized ∧
        State.threeFates.chain.countFlagged .capella State.threeFates.votes Cache.empty =
          .ok counted after ∧
        unrealized.currentTargetAttested = counted.totals.currentTargetAttested ∧
        unrealized.activeCurrent = counted.totals.activeCurrent ∧
        unrealized.previousTargetAttested = counted.totals.previousTargetAttested := by
  have fit : State.threeFates.votes.Fit State.threeFates.chain.validators.size :=
    ⟨by decide, by decide, by decide⟩
  have few : State.threeFates.chain.validators.size < 2 ^ 64 := by decide
  obtain ⟨-, -, agrees, finds⟩ := forecast_agrees State.threeFates fit
  obtain ⟨⟨unrealized, found⟩, counts⟩ := finds few
  obtain ⟨-, -, foretells⟩ := agrees unrealized found
  obtain ⟨counted, after, ran⟩ := counts .capella Cache.empty
  obtain ⟨currentTarget, -, active, previousTarget⟩ := foretells .capella _ _ _ ran
  exact ⟨fit, few, unrealized, counted, after, found, ran, currentTarget, active (by decide),
    previousTarget (by decide)⟩

end FlagState

end BeaconEpoch
