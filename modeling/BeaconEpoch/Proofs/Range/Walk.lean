import BeaconEpoch.Proofs.Invariant
import BeaconEpoch.Proofs.Range.Epoch

/-!
# Ranges of a walk

Slots and upgrades of a bounded state pass all checks of accounting on itself: no slot before the
target of a walk is the last word, and a walk always gets somewhere.

## Main definitions

* `BeaconState.largestStake`: a state at the ends of what words can hold.

## Main statements

* `State.Safe.sustains`: slots and epochs within a phase.
* `BeaconState.upgrade_sound`: an upgrade.
* `BeaconState.bounded_sustains`: bounded states in walks through all phases.
* `BeaconState.processing_in_range`: whole epochs and whole walks.
-/

namespace BeaconEpoch

open Step

/-! ## Within a phase -/

namespace State

variable {preset : Preset} {Votes : Type}

theorem Bounded.movedTo {state : State preset Votes} {slot : Slot} (bounded : state.Bounded)
    (later : slot.toNat = state.chain.slot.toNat + 1) : (state.movedTo slot).Bounded :=
  ⟨⟨bounded.chain.validators, bounded.chain.slashings⟩, bounded.cache.advanceTo later⟩

/-- Epochs that pass the checks of accounting on itself sustain bounded states. Nothing is said of
what they leave when they fail. -/
theorem Safe.sustains {processEpoch : Step (State preset Votes) Report}
    (safe : Safe (fun _ => True) processEpoch)
    (keepsSlot : ∀ {state report final}, processEpoch state = .ok report final →
      final.chain.slot = state.chain.slot)
    {bounded : State preset Votes → Prop} (same : ∀ state, bounded state ↔ state.Bounded) :
    Sustains Error.AccusesInput processEpoch bounded bounded (fun _ => True) where
  epoch {state _} holds _ _ := by
    have ends := safe state ((same state).mp holds)
    cases ran : processEpoch state with
    | ok report final => exact (same final).mpr (ends.of_ok ran).1
    | error e final => exact ⟨ends.of_error ran, trivial⟩
  keepsSlot := keepsSlot
  start holds later _ := (same _).mpr (((same _).mp holds).movedTo later)
  inside holds later _ := (same _).mpr (((same _).mp holds).movedTo later)

end State

/-! ## Upgrades -/

namespace BeaconState

variable {preset : Preset} {config : Config} {run : Run (BeaconState preset)}

/-- Votes become flags by way of their committees, which pass the checks; the other upgrades only
rename. -/
theorem upgrade_sound (next : FlagPhase) {state : BeaconState preset} (bounded : state.Bounded) :
    BeaconEpoch.Sound Error.AccusesInput Bounded (state.upgrade next) := by
  cases state with
  | pending state =>
    have asked := Chain.creditAttestations_asks bounded.chain state.votes.previous _ bounded.cache
    simp only [upgrade, PendingState.toFlags]
    split
    · rename_i flags cache ran
      exact ⟨bounded.chain, (asked.of_ok ran).1⟩
    · rename_i e cache failed
      exact asked.of_error failed
  | flagged phase state => exact ⟨bounded.chain, bounded.cache⟩

/-! ## Through all phases -/

theorem bounded_sustains (config : Config) :
    Sustains Error.AccusesInput config (Bounded : BeaconState preset → Prop) fun _ => True where
  pending := by
    refine ⟨_, (State.processPending_safe config false).sustains pending_keepsSlot fun state => ?_⟩
    exact ⟨fun bounded => ⟨bounded.chain, bounded.cache⟩,
      fun bounded => ⟨bounded.chain, bounded.cache⟩⟩
  flagged phase := by
    refine ⟨_, (State.processFlags_safe config phase.toPhase false).sustains flags_keepsSlot
      fun state => ?_⟩
    exact ⟨fun bounded => ⟨bounded.chain, bounded.cache⟩,
      fun bounded => ⟨bounded.chain, bounded.cache⟩⟩
  upgrade next _ bounded := upgrade_sound next bounded
  keep _ := trivial

theorem processSlots_ends (target : Slot) (bounded : run.state.Bounded) :
    Ends Error.AccusesInput (fun _ final => final.state.Bounded)
      (processSlots config target run) := by
  by_cases ahead : run.state.slot < target
  · exact ((bounded_sustains config).processSlots_leaves bounded ahead).ends
  · unfold processSlots
    rw [get_bind_apply, if_neg ahead]
    exact nofun

/-- **Accounting stays in range.** Let a state have fewer than `2 ^ 25` validators and a coherent
cache, let the length of its list of slashed amounts be a word, and let everything else in it be
arbitrary. Then neither an epoch nor a walk to any slot leaves the range of a word or sum, divides
by zero or fails another check of accounting on itself: each of them succeeds, or returns an error
that accuses its input. -/
theorem processing_in_range (config : Config) (cancelled : Bool) (target : Slot)
    (journal : Array Event) {state : BeaconState preset}
    (few : state.chain.validators.size < 2 ^ 25) (listed : state.chain.slashings.size < 2 ^ 64)
    (coherent : state.cache.CoherentWith state.chain) :
    (∀ final, processEpoch config cancelled state ≠ .error .arithmeticOverflow final) ∧
      ∀ final, processSlots config target ⟨state, journal⟩ ≠ .error .arithmeticOverflow final := by
  have bounded : state.Bounded := ⟨⟨few, listed⟩, coherent⟩
  constructor
  · intro final failed
    exact (processEpoch_sound config cancelled state bounded).of_error failed rfl
  · intro final failed
    have start : (⟨state, journal⟩ : Run (BeaconState preset)).state.Bounded := bounded
    exact (processSlots_ends target start).of_error failed rfl

/-- A state before the end of an epoch, with a slashed validator whose stake, balance and score are
as large as words can be. -/
def largestStake : BeaconState .pulseChain := .flagged .altair {
  chain := { Chain.empty .pulseChain with
    slot := 63
    validators := #[⟨Word.max, true, 0, 0, farFutureEpoch, 4097⟩]
    balances := #[Word.max]
    slashings := #[Word.max] }
  votes := ⟨#[7], #[7], #[Word.max]⟩ }

theorem processing_in_range_largestStake :
    (∀ final,
        processEpoch Config.pulseChain false largestStake ≠ .error .arithmeticOverflow final) ∧
      ∀ final, processSlots Config.pulseChain 64 ⟨largestStake, #[]⟩ ≠
        .error .arithmeticOverflow final :=
  processing_in_range Config.pulseChain false 64 #[] (by decide) (by decide)
    (Cache.CoherentWith.empty _)

end BeaconState

end BeaconEpoch
