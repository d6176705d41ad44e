import BeaconEpoch.Proofs.Progress.Tally

/-!
# Epochs that keep states well formed

An epoch from a well-formed state ends in a state from which the next one can be made. It fails only
when a balance or an inactivity score outgrows its word, and then it leaves the state well formed.

## Main definitions

* `PendingState.WellFormed`, `FlagState.WellFormed`, `BeaconState.WellFormed`: states that any
  number of epochs can be made from.
* `PendingState.Closed`: a state of Phase 0 after its epoch and before the next slot.

## Main statements

* `State.allowed_of_ask_conclude_eq_error`: how an epoch fails whose plan is found.
* `PendingState.processPending_leaves`, `FlagState.processFlags_leaves`: whole epochs.
* `BeaconState.upgrade_wellFormed`: upgrades.

## Design notes

* **What an epoch accepts an upgrade accepts.** Both take a vote apart with checks of their own, but
  all of these checks follow from the same few facts about an attestation, `Fits`, which epochs and
  slots keep.
-/

namespace BeaconEpoch

/-! ## Well-formed states -/

/-- A state of Phase 0 that any number of epochs can be made from: a well-formed chain, attestations
that fit it, and a coherent cache. -/
structure PendingState.WellFormed {preset : Preset} (state : PendingState preset) : Prop where
  chain : state.chain.WellFormed
  cache : state.cache.CoherentWith state.chain
  previous : ∀ attestation ∈ state.votes.previous, attestation.Fits state.chain .previous
  current : ∀ attestation ∈ state.votes.current, attestation.Fits state.chain .current

/-- A state of Phase 0 after the epoch and before the next slot: the attestations of the epoch are
already where those of the previous epoch belong. -/
structure PendingState.Closed {preset : Preset} (state : PendingState preset) : Prop where
  chain : state.chain.WellFormed
  cache : state.cache.CoherentWith state.chain
  previous : ∀ attestation ∈ state.votes.previous, attestation.Fits state.chain .current
  current : state.votes.current = []

/-- A state of Altair or later: a well-formed chain, one entry per validator in all votes, and a
coherent cache. -/
structure FlagState.WellFormed {preset : Preset} (state : FlagState preset) : Prop where
  chain : state.chain.WellFormed
  cache : state.cache.CoherentWith state.chain
  votes : state.votes.Fit state.chain.validators.size

theorem Chain.WellFormed.onlyBalances {preset : Preset} {chain other : Chain preset}
    (wellFormed : chain.WellFormed) (only : chain.OnlyBalances other) : other.WellFormed := by
  obtain ⟨balances, size, rfl⟩ := only
  exact {
    validators := wellFormed.validators
    slashings := wellFormed.slashings
    balances := size.trans wellFormed.balances
    blockRoots := wellFormed.blockRoots
    randaoMixes := wellFormed.randaoMixes }

theorem PendingAttestation.Fits.onlyBalances {preset : Preset} {chain other : Chain preset}
    {attestation : PendingAttestation} {epoch : AttestationEpoch} (wellFormed : chain.WellFormed)
    (only : chain.OnlyBalances other) (fits : attestation.Fits chain epoch) :
    attestation.Fits other epoch := by
  have same := only.sameDuties
  have order : chain.slot ≤ other.slot := by
    obtain ⟨balances, -, rfl⟩ := only
    exact UInt64.le_refl _
  exact fits.later wellFormed same.validators same.randaoMixes order (same.epochOf _)

/-! ## Epochs -/

theorem balanceOverflow_isOutgrown : Error.IsOutgrown .balanceOverflow := .inl rfl

/-- A plan that fits is settled unless a balance has outgrown its word. -/
theorem Plan.Fits.settle_error {preset : Preset} {chain : Chain preset} {plan : Plan}
    (balances : chain.balances.size = chain.validators.size)
    (fits : plan.Fits chain.validators.size) {books : Books preset} {e : Error}
    (failed : Books.settle plan.deltas ⟨chain, plan.tally.records⟩ = .error e books) :
    e = .balanceOverflow := by
  refine (Books.settle_error failed).resolve_right ?_
  rintro ⟨-, uneven⟩
  refine uneven ⟨fits.records, ?_, fits.records.trans fits.deltas.symm⟩
  exact fits.records.trans balances.symm

namespace State

variable {preset : Preset} {Votes : Type} {phase : Phase} {amend : Plan → Votes → Votes}
  {rotate : Votes → Nat → Votes} {state final : State preset Votes} {e : Error}
  {allowed : Error → Prop}

/-- Where plans are found an epoch fails only when a balance has outgrown its word or as its plan
does, and has then changed nothing but the cache. -/
theorem allowed_of_ask_conclude_eq_error (question : Chain preset → Lookup Plan)
    (overflow : allowed .balanceOverflow)
    (balances : state.chain.balances.size = state.chain.validators.size)
    (coherent : state.cache.CoherentWith state.chain)
    (answer : state.chain.HasAnswer (question state.chain))
    (finds : state.chain.Finds allowed (Plan.Fits state.chain.validators.size)
      (question state.chain))
    (failed : (ask question >>= fun plan => conclude phase (amend plan) rotate plan) state =
      .error e final) (accuses : e.AccusesInput) :
    allowed e ∧ ∃ cache : Cache, cache.CoherentWith state.chain ∧ final = { state with cache } := by
  have planned := finds state.cache coherent
  obtain ⟨cache, planning, rfl⟩ | ⟨plan, cache, books, found, settling, rfl⟩ | broken :=
    ask_conclude_eq_error amend failed
  · exact ⟨planned.of_error planning, cache, answer.coherent_of_error coherent planning, rfl⟩
  · obtain ⟨still, fits⟩ := planned.of_ok found
    obtain rfl := fits.settle_error balances settling
    exact ⟨overflow, cache, still, rfl⟩
  · exact absurd broken accuses

end State

namespace PendingState

variable {preset : Preset} {state : PendingState preset}

theorem WellFormed.bounded (wellFormed : state.WellFormed) : State.Bounded state :=
  ⟨wellFormed.chain.toBounded, wellFormed.cache⟩

/-- An epoch of Phase 0 closes a well-formed state, or leaves it well formed. -/
theorem processPending_leaves (config : Config) (wellFormed : state.WellFormed) :
    Step.Leaves Error.IsOutgrown PendingState.Closed PendingState.WellFormed
      (State.processPending config false state) := by
  have safe := State.processPending_safe config false state wellFormed.bounded
  cases ran : State.processPending config false state with
  | ok report final =>
    obtain ⟨bounded, -⟩ := safe.of_ok ran
    obtain ⟨only, votes⟩ := State.processPending_eq_ok ran
    refine ⟨wellFormed.chain.onlyBalances only, bounded.cache, ?_, ?_⟩
    · rw [votes]
      intro attestation listed
      exact (wellFormed.current attestation listed).onlyBalances wellFormed.chain only
    · rw [votes]
      rfl
  | error e final =>
    obtain ⟨outgrown, cache, still, rfl⟩ := State.allowed_of_ask_conclude_eq_error
      (·.planPending config false state.votes) balanceOverflow_isOutgrown
      wellFormed.chain.balances wellFormed.cache
      (Chain.planPending_hasAnswer config false state.votes)
      (Chain.planPending_finds wellFormed.chain config wellFormed.previous wellFormed.current)
      ran (safe.of_error ran)
    exact ⟨outgrown, wellFormed.chain, still, wellFormed.previous, wellFormed.current⟩

end PendingState

/-! ### Flags -/

namespace FlagVotes.Fit

variable {count : Nat} {votes : FlagVotes}

theorem withScores (fit : votes.Fit count) {scores : Option (Array InactivityScore)}
    (sizes : ∀ new ∈ scores, new.size = count) : (votes.withScores scores).Fit count := by
  cases scores with
  | none => exact fit
  | some new => exact ⟨fit.previous, fit.current, sizes new rfl⟩

theorem rotate (fit : votes.Fit count) : (votes.rotate count).Fit count :=
  ⟨fit.current, Array.size_replicate, fit.inactivityScores⟩

end FlagVotes.Fit

namespace FlagState

variable {preset : Preset} {state : FlagState preset}

theorem WellFormed.bounded (wellFormed : state.WellFormed) : State.Bounded state :=
  ⟨wellFormed.chain.toBounded, wellFormed.cache⟩

/-- An epoch of Altair or later leaves a well-formed state well formed, whether it succeeds or
not. -/
theorem processFlags_leaves (config : Config) (phase : Phase) (wellFormed : state.WellFormed) :
    Step.Leaves Error.IsOutgrown FlagState.WellFormed FlagState.WellFormed
      (State.processFlags config phase false state) := by
  have safe := State.processFlags_safe config phase false state wellFormed.bounded
  have finds := Chain.planFlags_finds wellFormed.chain.toBounded config phase wellFormed.votes
  cases ran : State.processFlags config phase false state with
  | ok report final =>
    obtain ⟨bounded, -⟩ := safe.of_ok ran
    obtain ⟨plan, cache, planned, only, votes⟩ := State.processFlags_eq_ok ran
    have fits := ((finds state.cache wellFormed.cache).of_ok planned).2
    refine ⟨wellFormed.chain.onlyBalances only, bounded.cache, ?_⟩
    rw [votes, only.sameDuties.validators]
    exact (wellFormed.votes.withScores fits.scores).rotate
  | error e final =>
    obtain ⟨outgrown, cache, still, rfl⟩ := State.allowed_of_ask_conclude_eq_error
      (·.planFlags config phase false state.votes) balanceOverflow_isOutgrown
      wellFormed.chain.balances wellFormed.cache
      (Chain.planFlags_hasAnswer config phase false state.votes) finds ran (safe.of_error ran)
    exact ⟨outgrown, wellFormed.chain, still, wellFormed.votes⟩

end FlagState

/-! ## Upgrades -/

/-- A well-formed state of Phase 0 can always be upgraded: the roots that its attestations are held
against and the committees that they come from are found again. -/
theorem PendingState.toFlags_wellFormed {preset : Preset} {allowed : Error → Prop}
    {state : PendingState preset} (wellFormed : state.WellFormed) :
    Sound allowed FlagState.WellFormed state.toFlags := by
  have finds : state.chain.Finds allowed _ _ :=
    Chain.creditAttestations_finds wellFormed.chain wellFormed.previous
  have credited := finds state.cache wellFormed.cache
  simp only [PendingState.toFlags]
  split
  · rename_i previous cache ran
    obtain ⟨still, size⟩ := credited.of_ok ran
    exact ⟨wellFormed.chain, still, size, Array.size_replicate, Array.size_replicate⟩
  · rename_i e cache failed
    exact credited.of_error failed

/-- A state is well formed as its way of keeping votes asks for. -/
def BeaconState.WellFormed {preset : Preset} : BeaconState preset → Prop
  | .pending state => PendingState.WellFormed state
  | .flagged _ state => FlagState.WellFormed state

/-- **A well-formed state enters every phase,** and is well formed there. -/
theorem BeaconState.upgrade_wellFormed {preset : Preset} {allowed : Error → Prop}
    (next : FlagPhase) {state : BeaconState preset} (wellFormed : state.WellFormed) :
    Sound allowed WellFormed (state.upgrade next) := by
  cases state with
  | pending state =>
    exact (PendingState.toFlags_wellFormed wellFormed).bind fun upgraded still => .pure still
  | flagged phase state => exact wellFormed

end BeaconEpoch
