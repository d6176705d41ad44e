import BeaconEpoch.Proofs.Epoch
import BeaconEpoch.Proofs.Range.Delta

/-!
# Ranges of an epoch

An epoch of a bounded state passes all checks of accounting on itself, and leaves a bounded state.

## Main definitions

* `State.Bounded`, `BeaconState.Bounded`: a bounded chain with a coherent cache.
* `State.Safe`: a step that passes these checks.

## Main statements

* `Chain.slash_sound`: the sweep over the registry takes no more than a word from anybody.
* `Chain.planPending_asks`, `Chain.planFlags_asks`: the part of an epoch that reads.
* `State.conclude_safe`: the part that writes.
* `BeaconState.processEpoch_sound`: whole epochs.
-/

namespace BeaconEpoch

/-! ## The sweep -/

/-- The slashed stake that counts is at most the active stake, so a penalty is at most the effective
balance in whole increments. There are fewer than `2 ^ 36` of these, which leaves `2 ^ 92` for the
active stake. -/
theorem Preset.slashingPenalty_sound (preset : Preset) {active slashedStake : GweiSum}
    (small : active < 2 ^ 92) (part : slashedStake ≤ active) (validator : Validator) :
    Sound Error.AccusesInput (fun _ => True)
      (preset.slashingPenalty active slashedStake validator) := by
  have fits : validator.effectiveBalance.toNat / preset.effectiveBalanceIncrement * slashedStake <
      GweiSum.bound :=
    calc
      _ < 2 ^ 36 * 2 ^ 92 :=
        Nat.mul_lt_mul'' (preset.wholeIncrements_lt _) (Nat.lt_of_le_of_lt part small)
      _ = GweiSum.bound := by decide
  refine (GweiSum.checked_sound fits).bind ?_
  intro numerator equal
  have fits : numerator / active * preset.effectiveBalanceIncrement < GweiSum.bound :=
    calc
      _ ≤ validator.effectiveBalance.toNat / preset.effectiveBalanceIncrement *
          preset.effectiveBalanceIncrement := by
        -- a part of the active stake, divided by the active stake, cancels
        refine Nat.mul_le_mul_right _ (Nat.div_le_of_le_mul ?_)
        rw [equal, Nat.mul_comm]
        exact Nat.mul_le_mul_right _ part
      _ ≤ validator.effectiveBalance.toNat := Nat.div_mul_le_self ..
      _ < GweiSum.bound := Nat.lt_trans validator.effectiveBalance.toNat_lt (by decide)
  exact (GweiSum.checked_sound fits).bind fun penalty _ => .pure trivial

namespace Chain

variable {preset : Preset} {chain : Chain preset}

section Sweep

variable (short : chain.slashings.size < 2 ^ 64)

include short

/-- A list whose length is a word has a sum of words that fits into 128 bits. -/
theorem slashings_sum_lt : chain.slashings.foldl (· + ·.toNat) 0 < GweiSum.bound :=
  calc
    _ ≤ chain.slashings.size * 2 ^ 64 := by
      refine Array.foldl_induction (motive := fun index sum => sum ≤ index * 2 ^ 64)
        (Nat.zero_le _) fun index sum small => ?_
      have amount := chain.slashings[index].toNat_lt
      omega
    _ < 2 ^ 64 * 2 ^ 64 := Nat.mul_lt_mul_of_pos_right short (by decide)

/-- The slashed stake that counts is cut off at the active stake. -/
theorem slashedStake_sound (active : GweiSum) (multiplier : Nat) :
    Sound Error.AccusesInput (· ≤ active) (chain.slashedStake active multiplier) :=
  (GweiSum.checked_sound (slashings_sum_lt short)).bind fun _ _ =>
    .pure (Nat.min_le_right ..)

theorem slashingPenalties_sound {active : GweiSum} (small : active < 2 ^ 92) (multiplier : Nat) :
    Sound Error.AccusesInput (fun _ => True) (chain.slashingPenalties active multiplier) := by
  unfold slashingPenalties
  split
  · refine (slashedStake_sound short active multiplier).bind fun slashedStake part => ?_
    refine (Sound.mapM (fun _ => True) _ fun validator _ => ?_).forget
    split
    · exact (preset.slashingPenalty_sound small part validator).map
    · trivial
  · trivial

/-- What can go wrong in the sweep is that there is not one balance per validator, and this is the
input's fault. -/
theorem slash_sound {Log : Type} (log : PenaltyLog Log) {active : GweiSum}
    (small : active < 2 ^ 92) (multiplier : Nat) :
    Sound Error.AccusesInput (fun _ => True) (chain.slash log active multiplier) := by
  unfold slash
  split
  · exact (slashingPenalties_sound short small multiplier).bind fun penalties _ => .pure trivial
  · exact nofun

end Sweep

/-! ## The part that reads -/

/-- In the first epoch the deltas of all records are nothing. -/
theorem dueDeltas_sound {allowed : Error → Prop} {post : Array Delta → Prop}
    {records : Array Record} {deltas : Except Error (Array Delta)}
    (sound : Sound allowed post deltas) (nothing : post (records.map fun _ => {})) :
    Sound allowed post (chain.dueDeltas records deltas) := by
  unfold dueDeltas
  split
  · exact sound
  · exact nothing

end Chain

theorem checkCancelled_sound (cancelled : Bool) :
    Sound Error.AccusesInput (fun _ => True) (checkCancelled cancelled) := by
  cases cancelled
  · trivial
  · exact nofun

namespace Chain

variable {preset : Preset} {chain : Chain preset}

/-- A Phase 0 epoch is read, counted and weighed within range: no part of it fails but through its
input. -/
theorem planPending_asks (bounded : chain.Bounded) (config : Config) (cancelled : Bool)
    (votes : PendingVotes) :
    chain.Asks (fun _ => True) (chain.planPending config cancelled votes) := by
  have goOn : chain.Asks (fun _ => True) (liftM (checkCancelled cancelled)) :=
    .lift (checkCancelled_sound cancelled)
  refine goOn.bind fun _ _ => ?_
  refine (openPending_finds bounded).bind ?_
  intro tally opened
  refine goOn.bind fun _ _ => ?_
  refine (countAttestations_asks bounded votes opened).bind ?_
  intro tally counted
  refine goOn.bind fun _ _ => ?_
  refine (Step.Sound.lift (dueDeltas_sound (epochDeltas_sound config ?_) ?_)).bind ?_
  · exact counted.totals
  · trivial
  · intro deltas _
    exact goOn.bind fun _ _ => .pure trivial

/-- So is an epoch with flags. -/
theorem planFlags_asks (bounded : chain.Bounded) (config : Config) (phase : Phase)
    (cancelled : Bool) (votes : FlagVotes) :
    chain.Asks (fun _ => True) (chain.planFlags config phase cancelled votes) := by
  have goOn : chain.Asks (fun _ => True) (liftM (checkCancelled cancelled)) :=
    .lift (checkCancelled_sound cancelled)
  refine goOn.bind fun _ _ => ?_
  refine (openFlags_asks bounded votes.inactivityScores).bind ?_
  intro tally opened
  refine goOn.bind fun _ _ => ?_
  refine (Step.Sound.lift (countFlags_sound bounded phase votes opened)).bind ?_
  intro tally counted
  refine goOn.bind fun _ _ => ?_
  refine (Step.Sound.lift (nextScores_sound config _ _)).bind ?_
  intro scores _
  refine (Step.Sound.lift (dueDeltas_sound (flagDeltas_sound config phase ?_).forget ?_)).bind ?_
  · exact counted.totals.moderate
  · trivial
  · intro deltas _
    exact .pure trivial

end Chain

/-! ## The part that writes -/

/-- Balances are copied over as many as there are: settling fails on a reward that does not fit or
on a registry of the wrong length, and in no other way. -/
theorem Books.settle_error {preset : Preset} {deltas : Array Delta} {books final : Books preset}
    {e : Error} (failed : Books.settle deltas books = .error e final) :
    e = .balanceOverflow ∨
      e = .registryLengthMismatch books.records.size books.chain.validators.size
          books.chain.balances.size deltas.size ∧
        ¬(books.records.size = books.chain.validators.size ∧
          books.records.size = books.chain.balances.size ∧ books.records.size = deltas.size) := by
  simp only [Books.settle] at failed
  split at failed
  · rename_i counts
    split at failed
    · split at failed
      · have size (apply : Gwei × Delta → Gwei) :
            ((books.chain.balances.zip deltas).map apply).size = books.chain.balances.size := by
          rw [Array.size_map, Array.size_zip, ← counts.2.1, ← counts.2.2, Nat.min_self]
        rw [if_pos (size _)] at failed
        cases failed
      · cases failed
        exact .inl rfl
    · cases failed
  · cases failed
    exact .inr ⟨rfl, ‹_›⟩

theorem Books.settle_accusesInput {preset : Preset} {deltas : Array Delta}
    {books final : Books preset} {e : Error}
    (failed : Books.settle deltas books = .error e final) : e.AccusesInput := by
  obtain rfl | ⟨rfl, -⟩ := Books.settle_error failed
  · exact nofun
  · exact nofun

/-- A bounded chain with a coherent cache. -/
structure State.Bounded {preset : Preset} {Votes : Type} (state : State preset Votes) : Prop where
  chain : state.chain.Bounded
  cache : state.cache.CoherentWith state.chain

namespace State

variable {preset : Preset} {Votes α : Type}

/-- From every bounded state a step passes the checks of accounting on itself, finds something that
meets a condition, and leaves a bounded state. -/
abbrev Safe (post : α → Prop) (step : Step (State preset Votes) α) : Prop :=
  Step.Sound Error.AccusesInput (fun state => state.Bounded) post step

/-- Balances and votes do not matter. -/
theorem Bounded.write {state : State preset Votes} (bounded : state.Bounded)
    (balances : Array Gwei) (votes : Votes) :
    ({ state with chain := { state.chain with balances }, votes } : State preset Votes).Bounded
    where
  chain := ⟨bounded.chain.validators, bounded.chain.slashings⟩
  cache := bounded.cache.congr ⟨rfl, rfl, rfl⟩

/-- A question that is safe on every bounded chain is safe to ask of a state, as it changes the
cache only. -/
theorem ask_safe {question : Chain preset → Lookup α} {post : α → Prop}
    (asks : ∀ chain : Chain preset, chain.Bounded → chain.Asks post (question chain)) :
    Safe post (ask question : Step (State preset Votes) α) := by
  intro state bounded
  have asked := asks state.chain bounded.chain state.cache bounded.cache
  simp only [ask, Step.zoom]
  cases ran : question state.chain state.cache with
  | ok a cache =>
    obtain ⟨still, met⟩ := asked.of_ok ran
    exact ⟨⟨bounded.chain, still⟩, met⟩
  | error e cache => exact asked.of_error ran

/-- Settling writes balances, and these are not what bounds a state. -/
theorem settle_safe (records : Array Record) (deltas : Array Delta) :
    Safe (fun _ => True)
      (settle records deltas : Step (State preset Votes) (Array Record)) := by
  intro state bounded
  unfold settle
  cases settled : Books.settle deltas ⟨state.chain, records⟩ with
  | ok _ books =>
    -- coherence speaks of neither balances nor votes
    obtain ⟨⟨balances, _, equal⟩, _⟩ := Books.settle_eq_ok settled
    have kept := bounded.write balances state.votes
    rw [← equal] at kept
    exact ⟨kept, trivial⟩
  | error e books => exact Books.settle_accusesInput settled

theorem slash_safe {active : GweiSum} (small : active ≤ stakeBound) (multiplier : Nat) :
    Safe (fun _ => True)
      (slash active multiplier :
        Step (State preset Votes) (Array (ValidatorIndex × Gwei))) := by
  intro state bounded
  unfold slash
  rw [Step.get_bind_apply]
  cases swept : state.chain.slash PenaltyLog.keep active multiplier with
  | ok result =>
    obtain ⟨chain, penalties⟩ := result
    obtain ⟨balances, _, rfl⟩ := Chain.slash_eq_ok swept
    exact ⟨bounded.write _ _, trivial⟩
  | error e =>
    have small := Nat.lt_of_le_of_lt small (show stakeBound < 2 ^ 92 by decide)
    exact (Chain.slash_sound bounded.chain.slashings _ small _).allowed_of_eq_error swept

/-- The part that writes, step by step: balances and votes are replaced, the registry stays. -/
theorem conclude_safe (phase : Phase) (amend : Votes → Votes) (rotate : Votes → Nat → Votes)
    (plan : Plan) :
    Safe (fun _ => True)
      (conclude phase amend rotate plan : Step (State preset Votes) Report) := by
  refine (settle_safe _ _).bind ?_
  intro records _
  refine (Step.Sound.modify fun state bounded => bounded.write _ _).bind fun _ _ => ?_
  refine (ask_safe fun chain => chain.lookupTotalActive_finds).bind fun active small => ?_
  refine (slash_safe small _).bind ?_
  intro penalties _
  refine (Step.Sound.modify fun state bounded => bounded.write _ _).bind fun _ _ => ?_
  exact .pure trivial

/-! ## Whole epochs -/

theorem processPending_safe (config : Config) (cancelled : Bool) :
    Safe (fun _ => True)
      (processPending config cancelled : Step (PendingState preset) Report) := by
  refine Step.Sound.get_bind fun seen _ => ?_
  have planned : ∀ chain : Chain preset, chain.Bounded →
      chain.Asks (fun _ => True) (chain.planPending config cancelled seen.votes) :=
    fun chain bounded => Chain.planPending_asks bounded config cancelled seen.votes
  exact (ask_safe planned).bind fun plan _ => conclude_safe _ _ _ plan

theorem processFlags_safe (config : Config) (phase : Phase) (cancelled : Bool) :
    Safe (fun _ => True)
      (processFlags config phase cancelled : Step (FlagState preset) Report) := by
  refine Step.Sound.get_bind fun seen _ => ?_
  have planned : ∀ chain : Chain preset, chain.Bounded →
      chain.Asks (fun _ => True) (chain.planFlags config phase cancelled seen.votes) :=
    fun chain bounded => Chain.planFlags_asks bounded config phase cancelled seen.votes
  exact (ask_safe planned).bind fun plan _ => conclude_safe _ _ _ plan

end State

namespace BeaconState

variable {preset : Preset}

/-- A bounded chain with a coherent cache, in any phase. -/
structure Bounded (state : BeaconState preset) : Prop where
  chain : state.chain.Bounded
  cache : state.cache.CoherentWith state.chain

/-- From every bounded state an epoch of any phase passes the checks of accounting on itself, and
leaves a bounded state. -/
theorem processEpoch_sound (config : Config) (cancelled : Bool) :
    Step.Sound Error.AccusesInput (fun state : BeaconState preset => state.Bounded)
      (fun _ => True) (processEpoch config cancelled) := by
  intro state bounded
  unfold processEpoch
  cases state with
  | pending state =>
    rw [dispatch_pending]
    refine (State.processPending_safe config cancelled state ?_).move ?_
    · exact ⟨bounded.chain, bounded.cache⟩
    · rintro _ final ⟨still, met⟩
      exact ⟨⟨still.chain, still.cache⟩, met⟩
  | flagged phase state =>
    rw [dispatch_flagged]
    refine (State.processFlags_safe config phase.toPhase cancelled state ?_).move ?_
    · exact ⟨bounded.chain, bounded.cache⟩
    · rintro _ final ⟨still, met⟩
      exact ⟨⟨still.chain, still.cache⟩, met⟩

end BeaconState

end BeaconEpoch
