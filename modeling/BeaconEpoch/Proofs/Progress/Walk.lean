import BeaconEpoch.Proofs.Invariant
import BeaconEpoch.Proofs.Progress.Epoch

/-!
# Walks that get through

A walk from a well-formed state of Phase 0 passes every slot, epoch and fork up to its target,
unless a balance or an inactivity score outgrows its word.

## Main statements

* `PendingState.sustains`, `FlagState.sustains`: well-formed states within a phase.
* `BeaconState.wellFormed_sustains`, `BeaconState.processSlots_progress`: walks through all phases.
-/

namespace BeaconEpoch

/-! ## Slots -/

/-- A chain is well formed at every slot. -/
theorem Chain.WellFormed.atSlot {preset : Preset} {chain : Chain preset}
    (wellFormed : chain.WellFormed) (slot : Slot) :
    ({ chain with slot } : Chain preset).WellFormed where
  validators := wellFormed.validators
  slashings := wellFormed.slashings
  balances := wellFormed.balances
  blockRoots := wellFormed.blockRoots
  randaoMixes := wellFormed.randaoMixes

/-- An attestation fits at the next slot, for an epoch that is the same one there. -/
theorem PendingAttestation.Fits.atNextSlot {preset : Preset} {chain : Chain preset}
    {attestation : PendingAttestation} {epoch epoch' : AttestationEpoch} {slot : Slot}
    (fits : attestation.Fits chain epoch) (wellFormed : chain.WellFormed)
    (later : slot.toNat = chain.slot.toNat + 1)
    (same : ({ chain with slot } : Chain preset).epochOf epoch'.toRelative =
      chain.epochOf epoch.toRelative) :
    attestation.Fits ({ chain with slot } : Chain preset) epoch' := by
  have order : chain.slot ≤ slot := by
    rw [UInt64.le_iff_toNat_le]
    omega
  have moved : ({ chain with slot } : Chain preset).validators = chain.validators := rfl
  exact fits.later wellFormed moved rfl order same

/-- **Attestations keep their place:** within an epoch the two epochs that are voted for stay the
same ones, and at an epoch start the votes for the current epoch are in the place of those for the
previous one, which it has become. -/
theorem PendingState.sustains {preset : Preset} (config : Config) :
    State.Sustains Error.IsOutgrown
      (State.processPending config false : Step (PendingState preset) Report)
      PendingState.WellFormed PendingState.Closed PendingState.WellFormed where
  epoch wellFormed _ _ := processPending_leaves config wellFormed
  keepsSlot := BeaconState.pending_keepsSlot
  start closed later start := by
    refine ⟨closed.chain.atSlot _, closed.cache.advanceTo later, ?_, ?_⟩
    · intro attestation listed
      refine (closed.previous attestation listed).atNextSlot closed.chain later ?_
      exact Chain.previousEpoch_of_isEpochStart later start
    · intro attestation listed
      rw [State.movedTo, closed.current] at listed
      cases listed
  inside {state slot} wellFormed later inside := by
    have same : state.chain.SameDuties { state.chain with slot } :=
      ⟨Preset.epochAt_of_not_isEpochStart later inside, rfl, rfl⟩
    refine ⟨wellFormed.chain.atSlot _, wellFormed.cache.advanceTo later, ?_, ?_⟩
    · intro attestation listed
      have fits := wellFormed.previous attestation listed
      exact fits.atNextSlot wellFormed.chain later (same.epochOf _)
    · intro attestation listed
      have fits := wellFormed.current attestation listed
      exact fits.atNextSlot wellFormed.chain later (same.epochOf _)

theorem FlagState.WellFormed.movedTo {preset : Preset} {state : FlagState preset} {slot : Slot}
    (wellFormed : state.WellFormed) (later : slot.toNat = state.chain.slot.toNat + 1) :
    FlagState.WellFormed (State.movedTo slot state) :=
  ⟨wellFormed.chain.atSlot slot, wellFormed.cache.advanceTo later, wellFormed.votes⟩

theorem FlagState.sustains {preset : Preset} (config : Config) (phase : Phase) :
    State.Sustains Error.IsOutgrown
      (State.processFlags config phase false : Step (FlagState preset) Report)
      FlagState.WellFormed FlagState.WellFormed FlagState.WellFormed where
  epoch wellFormed _ _ := processFlags_leaves config phase wellFormed
  keepsSlot := BeaconState.flags_keepsSlot
  start wellFormed later _ := wellFormed.movedTo later
  inside wellFormed later _ := wellFormed.movedTo later

/-! ## Walks -/

namespace BeaconState

variable {preset : Preset}

theorem wellFormed_sustains (config : Config) :
    Sustains Error.IsOutgrown config (WellFormed : BeaconState preset → Prop) WellFormed where
  pending := ⟨_, PendingState.sustains config⟩
  flagged phase := ⟨_, FlagState.sustains config phase.toPhase⟩
  upgrade next _ wellFormed := upgrade_wellFormed next wellFormed
  keep wellFormed := wellFormed

/-- **Well-formed states do not get stuck.** Let a state of Phase 0 be well formed. Then a walk to
any later slot, over any number of epochs and forks, fails only when a balance or an inactivity
score has outgrown its word: not at an upgrade, and not for want of a root, a committee or a
proposer. Whether it succeeds or fails, the state that it leaves is well formed again. -/
theorem processSlots_progress (config : Config) (target : Slot) (journal : Array Event)
    {state : PendingState preset} (wellFormed : state.WellFormed)
    (later : state.chain.slot < target) :
    (∀ final, processSlots config target ⟨.pending state, journal⟩ = .ok () final →
        final.state.WellFormed) ∧
      ∀ e final, processSlots config target ⟨.pending state, journal⟩ = .error e final →
        (e = .balanceOverflow ∨ ∃ index, e = .scoreOverflow index) ∧ final.state.WellFormed := by
  let start : Run (BeaconState preset) := ⟨.pending state, journal⟩
  have holds : start.state.WellFormed := wellFormed
  have leaves := (wellFormed_sustains config).processSlots_leaves holds later
  exact ⟨fun final ran => leaves.of_ok ran, fun e final failed => leaves.of_error failed⟩

theorem twoVotes_chain : twoVotes.chain.WellFormed where
  validators := by decide
  slashings := by decide
  balances := by decide
  blockRoots := by decide
  randaoMixes := by decide

/-- Eight validators are one to a slot, whatever the shuffle. -/
theorem firstVote_fits (epoch : AttestationEpoch) :
    (firstVote (twoVotes.chain.epochOf epoch.toRelative)).Fits twoVotes.chain epoch := by
  generalize voted : firstVote (twoVotes.chain.epochOf epoch.toRelative) = vote
  have slot : Preset.minimal.epochAt vote.data.slot =
      twoVotes.chain.epochOf epoch.toRelative := by
    subst voted
    cases epoch <;> decide
  have index : vote.data.index.toNat < Preset.minimal.committeesPerSlot
      (twoVotes.chain.activeIndices (twoVotes.chain.epochOf epoch.toRelative)).size := by
    subst voted
    cases epoch <;> decide
  refine ⟨?delayed, ?included, ?proposer, slot, ?target, index, ?bits⟩
  case bits =>
    intro members found
    obtain ⟨indices, shuffled⟩ := Chain.shuffledIndices_found twoVotes_chain epoch.toRelative
    have size := (Chain.shuffledIndices_perm shuffled).size_eq
    rw [found.unique (Chain.committee_of_epochOf twoVotes_chain.few slot shuffled index),
      Preset.cutCommittee, slice, Array.length_toList, Array.size_extract, size]
    subst voted
    cases epoch <;> decide
  all_goals
    subst voted
    cases epoch <;> decide

theorem twoVotes_wellFormed : twoVotes.WellFormed where
  chain := twoVotes_chain
  cache := Cache.CoherentWith.empty _
  previous attestation listed := by
    rw [List.mem_singleton.mp listed]
    exact firstVote_fits .previous
  current attestation listed := by
    rw [List.mem_singleton.mp listed]
    exact firstVote_fits .current

/-- A schedule with a fork at the start of the third epoch. -/
def thirdEpochFork : Config := { Config.minimal with altairForkEpoch := 2 }

theorem processSlots_progress_twoVotes :
    PendingState.WellFormed twoVotes ∧
      (∀ final, processSlots thirdEpochFork 32 ⟨.pending twoVotes, #[]⟩ = .ok () final →
        final.state.WellFormed) ∧
      ∀ e final, processSlots thirdEpochFork 32 ⟨.pending twoVotes, #[]⟩ = .error e final →
        (e = .balanceOverflow ∨ ∃ index, e = .scoreOverflow index) ∧ final.state.WellFormed :=
  ⟨twoVotes_wellFormed,
    processSlots_progress thirdEpochFork 32 #[] twoVotes_wellFormed (by decide)⟩

end BeaconState

end BeaconEpoch
