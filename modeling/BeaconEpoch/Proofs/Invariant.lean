import BeaconEpoch.Proofs.Sound
import BeaconEpoch.Proofs.Walk

/-!
# Invariants of a walk

What slots, epochs and upgrades preserve one by one is preserved by a whole walk. So is what they
fail with, and what is left when they fail.

## Main definitions

* `State.Sustains`: what the epochs of a phase have to do to keep states of a kind.
* `BeaconState.Sustains`: what epochs of both kinds and upgrades have to do.

## Main statements

* `State.Sustains.walkSlot_leaves`, `State.Sustains.walkSlots_leaves`: one slot, and any number of
  them within a phase.
* `BeaconState.Sustains.travel_leaves`, `BeaconState.Sustains.processSlots_leaves`: a walk through
  all phases.

## Design notes

* **Three kinds of state.** Between an epoch and the slot that starts the next one the votes have
  moved on and the slot has not, so a state may be of a kind of its own there. It may be of yet
  another kind where a walk has failed.
* **Room for the next slot.** No slot before the target of a walk is the last word, so that a walk
  does not fail at its slots.
-/

namespace BeaconEpoch

open Step

/-! ## Within a phase -/

/-- What a step leaves of a state it leaves of a run, whose journal it cannot reach. -/
theorem Run.onState_leaves {σ α : Type} {allowed : Error → Prop} {after kept : σ → Prop}
    {step : Step σ α} {run : Run σ} (leaves : Leaves allowed after kept (step run.state)) :
    Leaves allowed (fun final => after final.state) (fun final => kept final.state)
      (Run.onState step run) := by
  rw [Run.onState, zoom_apply]
  exact leaves.move (fun _ met => met) fun _ met => met

namespace State

variable {preset : Preset} {Votes : Type}

/-- Epochs that sustain states of a kind: where the next epoch starts at the next slot, the epoch
closes such a state, or fails with an allowed error and leaves one to keep; a closed state is of the
first kind again when the next epoch starts, and every other state of that kind remains one at the
next slot. -/
structure Sustains (allowed : Error → Prop) (processEpoch : Step (State preset Votes) Report)
    (fits closed kept : State preset Votes → Prop) : Prop where
  epoch : ∀ {state : State preset Votes} {slot : Slot}, fits state →
    slot.toNat = state.chain.slot.toNat + 1 → preset.isEpochStart slot = true →
      Leaves allowed closed kept (processEpoch state)
  keepsSlot : ∀ {state report final}, processEpoch state = .ok report final →
    final.chain.slot = state.chain.slot
  start : ∀ {state : State preset Votes} {slot : Slot}, closed state →
    slot.toNat = state.chain.slot.toNat + 1 → preset.isEpochStart slot = true →
      fits (state.movedTo slot)
  inside : ∀ {state : State preset Votes} {slot : Slot}, fits state →
    slot.toNat = state.chain.slot.toNat + 1 → ¬preset.isEpochStart slot = true →
      fits (state.movedTo slot)

namespace Sustains

variable {allowed : Error → Prop} {phase : Phase} {processEpoch : Step (State preset Votes) Report}
  {fits closed kept : State preset Votes → Prop} {run : Run (State preset Votes)}

/-- If the next slot starts an epoch, the epoch that ends is processed and what it leaves holds;
else nothing happens. -/
theorem closeEpoch_leaves (sustains : Sustains allowed processEpoch fits closed kept) {slot : Slot}
    (later : slot.toNat = run.state.chain.slot.toNat + 1) (holds : fits run.state) :
    Leaves allowed
      (fun final => if preset.isEpochStart slot then closed final.state else fits final.state)
      (fun final => kept final.state) (closeEpoch phase processEpoch run) := by
  unfold closeEpoch
  rw [get_bind_apply, Preset.isEpochEnd_of_later later, bind_of_ok (lift_ok_apply ..)]
  split
  · have closed := Run.onState_leaves (sustains.epoch holds later ‹_›)
    exact closed.bind fun report middle _ met => met
  · exact holds

/-- One turn of the walk keeps what fits: an epoch that has been closed opens into the next one. -/
theorem walkSlot_leaves (sustains : Sustains allowed processEpoch fits closed kept)
    (holds : fits run.state) (room : run.state.chain.slot.toNat + 1 < 2 ^ 64) :
    Leaves allowed (fun final => fits final.state) (fun final => kept final.state)
      (walkSlot phase processEpoch run) := by
  obtain ⟨slot, later⟩ : ∃ slot : Slot, slot.toNat = run.state.chain.slot.toNat + 1 :=
    ⟨Word.exact _ room, Word.toNat_exact _⟩
  refine (sustains.closeEpoch_leaves later holds).bind ?_
  intro _ middle ran met
  rw [← closeEpoch_eq_ok sustains.keepsSlot ran] at later
  refine Run.onState_leaves ?_
  rw [advanceSlot_of_later later]
  split at met
  · exact sustains.start met later ‹_›
  · exact sustains.inside met later ‹_›

/-- As long as the last slot of a walk is a word, so are all slots before it. -/
theorem walkSlots_leaves (sustains : Sustains allowed processEpoch fits closed kept) (count : Nat)
    (holds : fits run.state) (room : run.state.chain.slot.toNat + count < 2 ^ 64) :
    Leaves allowed (fun final => fits final.state) (fun final => kept final.state)
      (walkSlots phase processEpoch count run) := by
  induction count generalizing run with
  | zero => exact holds
  | succ count ih =>
    refine (sustains.walkSlot_leaves holds (by omega)).bind ?_
    intro _ middle ran holds
    refine ih holds ?_
    rw [walkSlot_eq_ok sustains.keepsSlot ran]
    omega

/-- A walk within a phase has room for all of its slots, because its target is a word. -/
theorem walkTo_leaves (sustains : Sustains allowed processEpoch fits closed kept) {target : Slot}
    (holds : fits run.state) (ahead : run.state.chain.slot < target) :
    Leaves allowed (fun final => fits final.state) (fun final => kept final.state)
      (walkTo phase processEpoch target run) := by
  unfold walkTo
  rw [get_bind_apply, if_pos ahead]
  -- the walk ends at its target, which is a word
  rw [UInt64.lt_iff_toNat_lt] at ahead
  have last := target.toNat_lt
  exact sustains.walkSlots_leaves _ holds (by omega)

end Sustains

end State

/-! ## Through all phases -/

namespace BeaconState

variable {preset : Preset}

/-- Epochs of both kinds sustain states of a kind, and so do upgrades. A failed upgrade leaves the
state as it is. -/
structure Sustains (allowed : Error → Prop) (config : Config)
    (fits kept : BeaconState preset → Prop) : Prop where
  pending : ∃ closed, State.Sustains allowed (State.processPending config false)
    (fun state => fits (.pending state)) closed (fun state => kept (.pending state))
  flagged : ∀ phase, ∃ closed, State.Sustains allowed
    (State.processFlags config phase.toPhase false)
    (fun state => fits (.flagged phase state)) closed (fun state => kept (.flagged phase state))
  upgrade : ∀ next {state}, fits state → BeaconEpoch.Sound allowed fits (state.upgrade next)
  keep : ∀ {state}, fits state → kept state

namespace Sustains

variable {allowed : Error → Prop} {config : Config} {fits kept : BeaconState preset → Prop}
  {run : Run (BeaconState preset)}

theorem walkTo_leaves (sustains : Sustains allowed config fits kept) {target : Slot}
    (holds : fits run.state) (ahead : run.state.slot < target) :
    Leaves allowed (fun final => fits final.state) (fun final => kept final.state)
      (walkTo config target run) := by
  unfold walkTo
  obtain ⟨start, rfl⟩ | ⟨phase, start, rfl⟩ := run.move_cases
  · rw [Run.dispatch_pending]
    obtain ⟨closed, pending⟩ := sustains.pending
    exact (pending.walkTo_leaves holds ahead).move (fun _ met => met) fun _ met => met
  · rw [Run.dispatch_flagged]
    obtain ⟨closed, flagged⟩ := sustains.flagged phase
    exact (flagged.walkTo_leaves holds ahead).move (fun _ met => met) fun _ met => met

theorem reach_leaves (sustains : Sustains allowed config fits kept) (target : Slot)
    (holds : fits run.state) :
    Leaves allowed (fun final => fits final.state) (fun final => kept final.state)
      (reach config target run) := by
  by_cases ahead : run.state.slot < target
  · rw [reach_of_lt ahead]
    exact sustains.walkTo_leaves holds ahead
  · rw [reach_of_not_lt ahead]
    exact holds

/-- Entering a phase keeps what fits, or fails and keeps what is kept. -/
theorem enter_leaves (sustains : Sustains allowed config fits kept) (next : FlagPhase)
    (holds : fits run.state) :
    Leaves allowed (fun final => fits final.state) (fun final => kept final.state)
      (enter next run) := by
  have upgraded := sustains.upgrade next holds
  unfold enter
  rw [get_bind_apply]
  cases found : run.state.upgrade next with
  | ok entered => exact upgraded.met_of_eq_ok found
  | error e => exact ⟨upgraded.allowed_of_eq_error found, sustains.keep holds⟩

/-- **A walk gets somewhere.** The induction is on the phases ahead. Where there is no fork on the
way the slot is short of the target, because a schedule without a fork has no later phase there. -/
theorem travel_leaves (sustains : Sustains allowed config fits kept) (target : Slot)
    {ahead : List FlagPhase} (follows : run.state.phase.later = ahead) (holds : fits run.state) :
    Leaves allowed (fun final => fits final.state) (fun final => kept final.state)
      (travel config target ahead run) := by
  induction ahead generalizing run with
  | nil => exact sustains.reach_leaves target holds
  | cons next ahead ih =>
    by_cases onward : run.state.slot < target ∨ run.state.phase < config.phaseAtSlot preset target
    · cases opened : (config.forkSlot? preset next.toPhase).filter (· ≤ target) with
      | none =>
        -- the schedule has no later phase at the target, so the check of progress is not reached
        have short := onward.resolve_right (Config.not_lt_phaseAtSlot follows opened)
        rw [travel_within follows short opened]
        exact sustains.walkTo_leaves holds short
      | some fork =>
        rw [travel_across onward opened]
        refine (sustains.reach_leaves fork holds).bind ?_
        intro _ reached _ holds
        refine (sustains.enter_leaves next holds).bind ?_
        intro _ entered ran holds
        exact ih (later_of_enter follows ran) holds
    · rw [travel_done onward]
      exact holds

/-- So does a whole run, across all of its forks. -/
theorem processSlots_leaves (sustains : Sustains allowed config fits kept) {target : Slot}
    (holds : fits run.state) (ahead : run.state.slot < target) :
    Leaves allowed (fun final => fits final.state) (fun final => kept final.state)
      (processSlots config target run) := by
  rw [processSlots_of_lt ahead]
  exact sustains.travel_leaves target rfl holds

end Sustains

end BeaconState

end BeaconEpoch
