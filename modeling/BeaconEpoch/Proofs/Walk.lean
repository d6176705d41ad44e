import BeaconEpoch.Proofs.Epoch
import BeaconEpoch.Walk

/-!
# Walks in stages

A walk to a slot may stop anywhere in between: at the end of an epoch, at its start, at a fork, in
the middle of several forks at one slot. Going on from there ends like the walk that did not stop.

## Main definitions

* `State.movedTo`: a state moved to the slot after its own.
* `BeaconState.resume`: the rest of a walk, from the phase that it has got to.

## Main statements

* `State.walkSlots_add`, `State.walkTo_split`, `BeaconState.walkTo_split`: walks within a phase.
* `Config.not_lt_phaseAtSlot`: a schedule that has no fork up to a slot has no later phase there,
  which is why a walk always gets somewhere.
* `BeaconState.travel_split`, `BeaconState.processSlots_stages`: walks through all phases.

## Design notes

* **Where a success ends.** Two walks in a row are one only if the first ends where the second
  starts, so every law about two stages comes with one about the slot and the phase that a
  successful stage ends with.
-/

namespace BeaconEpoch

open Step

/-! ## The fork schedule -/

/-- If a phase has not started, then the last of all phases that have started one after another is
not later than the phase before it. -/
theorem Phase.not_lt_last_started {started : Phase → Bool} {phase : Phase} {next : FlagPhase}
    {ahead : List FlagPhase} (follows : phase.later = next :: ahead)
    (closed : started next.toPhase = false) :
    ¬phase < (Phase.all.takeWhile started).getLast?.getD .phase0 := by
  cases phase with
  | phase0 =>
    cases follows
    simp only [FlagPhase.toPhase] at closed
    simp only [Phase.all, List.takeWhile, closed]
    cases started .phase0 <;> decide
  | altair =>
    cases follows
    simp only [FlagPhase.toPhase] at closed
    simp only [Phase.all, List.takeWhile, closed]
    cases started .phase0 <;> cases started .altair <;> decide
  | bellatrix =>
    cases follows
    simp only [FlagPhase.toPhase] at closed
    simp only [Phase.all, List.takeWhile, closed]
    cases started .phase0 <;> cases started .altair <;> cases started .bellatrix <;> decide
  | capella => cases follows

/-- The phase of a slot comes after another phase only if the fork that ends the other phase is at
that slot or before it. -/
theorem Config.not_lt_phaseAtSlot {config : Config} {preset : Preset} {phase : Phase}
    {next : FlagPhase} {ahead : List FlagPhase} {target : Slot}
    (follows : phase.later = next :: ahead)
    (closed : (config.forkSlot? preset next.toPhase).filter (· ≤ target) = none) :
    ¬phase < config.phaseAtSlot preset target := by
  refine Phase.not_lt_last_started follows ?_
  cases fork : config.forkSlot? preset next.toPhase with
  | none => rfl
  | some fork => simpa [fork, Option.filter] using closed

theorem Phase.later_toPhase {phase : Phase} {next : FlagPhase} {ahead : List FlagPhase}
    (follows : phase.later = next :: ahead) : next.toPhase.later = ahead := by
  cases phase <;> cases follows <;> rfl

/-! ## Within a phase -/

theorem Step.bind_congr_left {σ α β : Type} {step step' : Step σ α} {next : α → Step σ β}
    {state : σ} (equal : step state = step' state) :
    (step >>= next) state = (step' >>= next) state := by
  cases ran : step' state with
  | ok a middle => rw [bind_of_ok ran, bind_of_ok (equal.trans ran)]
  | error e final => rw [bind_of_error ran, bind_of_error (equal.trans ran)]

theorem Step.bind_congr {σ α β : Type} {step : Step σ α} {next next' : α → Step σ β} {state : σ}
    (equal : ∀ a middle, step state = .ok a middle → next a middle = next' a middle) :
    (step >>= next) state = (step >>= next') state := by
  cases ran : step state with
  | ok a middle => rw [bind_of_ok ran, bind_of_ok ran, equal a middle ran]
  | error e final => rw [bind_of_error ran, bind_of_error ran]

/-- Two stages of a part are two stages of the whole. -/
theorem Step.stages_move {σ τ α β : Type} {part : τ} {place : τ → σ} {first : Step τ α}
    {second : Step τ β} {first' : Step σ α} {second' : Step σ β}
    (moves : ∀ part, first' (place part) = Result.move place (first part))
    (moves' : ∀ part, second' (place part) = Result.move place (second part))
    (split : second part = (first >>= fun _ => second) part) :
    second' (place part) = (first' >>= fun _ => second') (place part) := by
  have start := moves part
  rw [moves', split]
  cases ran : first part with
  | ok a middle =>
    rw [ran] at start
    rw [bind_of_ok ran, bind_of_ok start, moves']
  | error e final =>
    rw [ran] at start
    rw [bind_of_error ran, bind_of_error start]
    rfl

namespace State

variable {preset : Preset} {Votes : Type} {phase : Phase}
  {processEpoch : Step (State preset Votes) Report} {run final : Run (State preset Votes)}

/-- A walk may be interrupted after any number of turns. -/
theorem walkSlots_add (first second : Nat) :
    walkSlots phase processEpoch (first + second) =
      walkSlots phase processEpoch first >>= fun _ => walkSlots phase processEpoch second := by
  induction first with
  | zero =>
    rw [Nat.zero_add]
    rfl
  | succ first ih =>
    rw [Nat.succ_add]
    simp only [walkSlots]
    rw [ih, bind_assoc]

/-- A state moved to the slot after its own. -/
def movedTo (slot : Slot) (state : State preset Votes) : State preset Votes :=
  { state with
    chain := { state.chain with slot }
    cache := if preset.isEpochStart slot then state.cache.advance else state.cache }

theorem advanceSlot_of_later {state : State preset Votes} {slot : Slot}
    (later : slot.toNat = state.chain.slot.toNat + 1) :
    advanceSlot state = .ok () (state.movedTo slot) := by
  unfold advanceSlot
  rw [get_bind_apply, Word.checked_eq_ok_iff.mpr later.symm]
  rfl

theorem advanceSlot_eq_ok {state final : State preset Votes}
    (ran : advanceSlot state = .ok () final) :
    final.chain.slot.toNat = state.chain.slot.toNat + 1 := by
  unfold advanceSlot at ran
  rw [get_bind_apply] at ran
  obtain ⟨slot, middle, next, ran⟩ := bind_eq_ok_iff.mp ran
  obtain ⟨next, rfl⟩ := lift_eq_ok_iff.mp next
  cases ran
  exact (Word.checked_eq_ok_iff.mp next).symm

section Slots

variable (keepsSlot : ∀ {state report final}, processEpoch state = .ok report final →
  final.chain.slot = state.chain.slot)

include keepsSlot

theorem closeEpoch_eq_ok (ran : closeEpoch phase processEpoch run = .ok () final) :
    final.state.chain.slot = run.state.chain.slot := by
  unfold closeEpoch at ran
  rw [get_bind_apply] at ran
  obtain ⟨ends, before, looked, ran⟩ := bind_eq_ok_iff.mp ran
  obtain ⟨_, rfl⟩ := lift_eq_ok_iff.mp looked
  split at ran
  · obtain ⟨report, _, processed, ran⟩ := bind_eq_ok_iff.mp ran
    obtain ⟨after, inner, rfl⟩ := zoom_eq_ok_iff.mp processed
    cases ran
    exact keepsSlot inner
  · cases ran
    rfl

theorem walkSlot_eq_ok (ran : walkSlot phase processEpoch run = .ok () final) :
    final.state.chain.slot.toNat = run.state.chain.slot.toNat + 1 := by
  unfold walkSlot at ran
  obtain ⟨_, middle, closed, ran⟩ := bind_eq_ok_iff.mp ran
  obtain ⟨state, advanced, rfl⟩ := zoom_eq_ok_iff.mp ran
  rw [← closeEpoch_eq_ok keepsSlot closed]
  exact advanceSlot_eq_ok advanced

theorem walkSlots_eq_ok {count : Nat}
    (ran : walkSlots phase processEpoch count run = .ok () final) :
    final.state.chain.slot.toNat = run.state.chain.slot.toNat + count := by
  induction count generalizing run with
  | zero =>
    cases ran
    rfl
  | succ count ih =>
    obtain ⟨_, middle, first, rest⟩ := bind_eq_ok_iff.mp ran
    rw [ih rest, walkSlot_eq_ok keepsSlot first]
    omega

theorem walkTo_eq_ok {target : Slot} (ran : walkTo phase processEpoch target run = .ok () final) :
    final.state.chain.slot = target := by
  unfold walkTo at ran
  rw [get_bind_apply] at ran
  split at ran
  · rename_i ahead
    rw [UInt64.lt_iff_toNat_lt] at ahead
    rw [← UInt64.toNat_inj, walkSlots_eq_ok keepsSlot ran]
    omega
  · cases ran

/-- A walk within a phase may stop on the way. -/
theorem walkTo_split {stop target : Slot} (ahead : run.state.chain.slot < stop)
    (order : stop < target) :
    walkTo phase processEpoch target run =
      (walkTo phase processEpoch stop >>= fun _ => walkTo phase processEpoch target) run := by
  have first : walkTo phase processEpoch stop run =
      walkSlots phase processEpoch (stop.toNat - run.state.chain.slot.toNat) run := by
    unfold walkTo
    rw [get_bind_apply, if_pos ahead]
  have whole : walkTo phase processEpoch target run =
      walkSlots phase processEpoch (target.toNat - run.state.chain.slot.toNat) run := by
    unfold walkTo
    rw [get_bind_apply, if_pos (UInt64.lt_trans ahead order)]
  have length : target.toNat - run.state.chain.slot.toNat =
      (stop.toNat - run.state.chain.slot.toNat) + (target.toNat - stop.toNat) := by
    rw [UInt64.lt_iff_toNat_lt] at ahead order
    omega
  -- what is left is that the second stage counts its slots from where the first one has ended
  rw [whole, length, walkSlots_add]
  cases ran : walkTo phase processEpoch stop run with
  | ok _ middle =>
    rw [bind_of_ok ran, bind_of_ok (first.symm.trans ran)]
    have there := walkTo_eq_ok keepsSlot ran
    unfold walkTo
    rw [get_bind_apply, there, if_pos order]
  | error e final => rw [bind_of_error ran, bind_of_error (first.symm.trans ran)]

end Slots

end State

/-! ## All phases -/

section Dispatch

variable {preset : Preset} {α : Type} {pending : Step (Run (PendingState preset)) α}
  {flagged : FlagPhase → Step (Run (FlagState preset)) α} {run final : Run (BeaconState preset)}

/-- A run with its state put into its place in another one. -/
def Run.move {σ τ : Type} (place : σ → τ) (run : Run σ) : Run τ := ⟨place run.state, run.journal⟩

theorem Run.dispatch_pending (start : Run (PendingState preset)) :
    Run.dispatch pending flagged (start.move .pending) =
      Result.move (Run.move .pending) (pending start) := by
  simp only [Run.dispatch, Run.move]
  cases pending start <;> rfl

theorem Run.dispatch_flagged (phase : FlagPhase) (start : Run (FlagState preset)) :
    Run.dispatch pending flagged (start.move (.flagged phase)) =
      Result.move (Run.move (.flagged phase)) (flagged phase start) := by
  simp only [Run.dispatch, Run.move]
  cases flagged phase start <;> rfl

/-- Every run is in one of the two ways of keeping votes. -/
theorem Run.move_cases (run : Run (BeaconState preset)) :
    (∃ start : Run (PendingState preset), run = start.move .pending) ∨
      ∃ phase, ∃ start : Run (FlagState preset), run = start.move (.flagged phase) := by
  obtain ⟨state, journal⟩ := run
  cases state with
  | pending state => exact .inl ⟨⟨state, journal⟩, rfl⟩
  | flagged phase state => exact .inr ⟨phase, ⟨state, journal⟩, rfl⟩

/-- Two stages within the phase of a state are two stages of the state. -/
theorem Run.dispatch_split {pending' : Step (Run (PendingState preset)) α}
    {flagged' : FlagPhase → Step (Run (FlagState preset)) α}
    (pendingSplit : ∀ start, run = start.move .pending →
      pending' start = (pending >>= fun _ => pending') start)
    (flaggedSplit : ∀ phase start, run = start.move (.flagged phase) →
      flagged' phase start = (flagged phase >>= fun _ => flagged' phase) start) :
    Run.dispatch pending' flagged' run =
      (Run.dispatch pending flagged >>= fun _ => Run.dispatch pending' flagged') run := by
  obtain ⟨start, rfl⟩ | ⟨phase, start, rfl⟩ := run.move_cases
  · exact stages_move Run.dispatch_pending Run.dispatch_pending (pendingSplit start rfl)
  · exact stages_move (Run.dispatch_flagged phase) (Run.dispatch_flagged phase)
      (flaggedSplit phase start rfl)

end Dispatch

namespace BeaconState

variable {preset : Preset} {config : Config} {run final : Run (BeaconState preset)}

theorem pending_keepsSlot {cancelled : Bool} {state final : PendingState preset} {report : Report}
    (ran : State.processPending config cancelled state = .ok report final) :
    final.chain.slot = state.chain.slot := by
  obtain ⟨⟨balances, _, equal⟩, _⟩ := State.processPending_eq_ok ran
  rw [equal]

theorem flags_keepsSlot {phase : Phase} {cancelled : Bool} {state final : FlagState preset}
    {report : Report} (ran : State.processFlags config phase cancelled state = .ok report final) :
    final.chain.slot = state.chain.slot := by
  obtain ⟨_, _, _, ⟨balances, _, equal⟩, _⟩ := State.processFlags_eq_ok ran
  rw [equal]

theorem upgrade_eq_ok {next : FlagPhase} {state entered : BeaconState preset}
    (ran : state.upgrade next = .ok entered) :
    entered.chain = state.chain ∧ entered.phase = next.toPhase := by
  cases state with
  | pending state =>
    cases flags : state.toFlags with
    | ok flagState =>
      simp only [upgrade, flags] at ran
      cases ran
      refine ⟨?_, rfl⟩
      simp only [PendingState.toFlags] at flags
      split at flags
      · cases flags
        rfl
      · cases flags
    | error e =>
      simp only [upgrade, flags] at ran
      cases ran
  | flagged phase state =>
    cases ran
    exact ⟨rfl, rfl⟩

/-! ### Within the phase of a state -/

/-- A walk that succeeds arrives, in the phase that it started in. -/
theorem walkTo_eq_ok {target : Slot} (ran : walkTo config target run = .ok () final) :
    final.state.slot = target ∧ final.state.phase = run.state.phase := by
  unfold walkTo at ran
  obtain ⟨start, rfl⟩ | ⟨phase, start, rfl⟩ := run.move_cases
  · rw [Run.dispatch_pending] at ran
    obtain ⟨part, inner, rfl⟩ := move_eq_ok_iff.mp ran
    exact ⟨State.walkTo_eq_ok pending_keepsSlot inner, rfl⟩
  · rw [Run.dispatch_flagged] at ran
    obtain ⟨part, inner, rfl⟩ := move_eq_ok_iff.mp ran
    exact ⟨State.walkTo_eq_ok flags_keepsSlot inner, rfl⟩

/-- A walk may be interrupted at any slot on its way. -/
theorem walkTo_split {stop target : Slot} (ahead : run.state.slot < stop) (order : stop < target) :
    walkTo config target run =
      (walkTo config stop >>= fun _ => walkTo config target) run := by
  refine Run.dispatch_split ?_ ?_
  · rintro start rfl
    exact State.walkTo_split pending_keepsSlot ahead order
  · rintro phase start rfl
    exact State.walkTo_split flags_keepsSlot ahead order

theorem reach_of_lt {target : Slot} (ahead : run.state.slot < target) :
    reach config target run = walkTo config target run := by
  unfold reach
  rw [get_bind_apply, if_pos ahead]

theorem reach_of_not_lt {target : Slot} (there : ¬run.state.slot < target) :
    reach config target run = .ok () run := by
  unfold reach
  rw [get_bind_apply, if_neg there]
  rfl

theorem reach_eq_ok {target : Slot} (ran : reach config target run = .ok () final) :
    (final.state.slot = run.state.slot ∨ final.state.slot = target) ∧
      final.state.phase = run.state.phase := by
  by_cases ahead : run.state.slot < target
  · rw [reach_of_lt ahead] at ran
    obtain ⟨slot, phase⟩ := walkTo_eq_ok ran
    exact ⟨.inr slot, phase⟩
  · rw [reach_of_not_lt ahead] at ran
    cases ran
    exact ⟨.inl rfl, rfl⟩

/-- Entering a phase keeps the chain. -/
theorem enter_eq_ok {next : FlagPhase} (ran : enter next run = .ok () final) :
    final.state.chain = run.state.chain ∧ final.state.phase = next.toPhase := by
  unfold enter at ran
  rw [get_bind_apply] at ran
  obtain ⟨entered, middle, lifted, ran⟩ := bind_eq_ok_iff.mp ran
  obtain ⟨upgraded, rfl⟩ := lift_eq_ok_iff.mp lifted
  cases ran
  exact upgrade_eq_ok upgraded

theorem slot_of_enter {next : FlagPhase} (ran : enter next run = .ok () final) :
    final.state.slot = run.state.slot := congrArg Chain.slot (enter_eq_ok ran).1

/-- Once the next phase has been entered, those behind it are ahead. -/
theorem later_of_enter {phase : Phase} {next : FlagPhase} {ahead : List FlagPhase}
    (follows : phase.later = next :: ahead) (ran : enter next run = .ok () final) :
    final.state.phase.later = ahead := by
  rw [(enter_eq_ok ran).2]
  exact Phase.later_toPhase follows

/-! ### Through all phases -/

section Travel

variable {next : FlagPhase} {ahead : List FlagPhase} {target stop fork : Slot}

/-- Where nothing is left to do a walk ends. -/
theorem travel_done
    (done : ¬(run.state.slot < target ∨ run.state.phase < config.phaseAtSlot preset target)) :
    travel config target (next :: ahead) run = .ok () run := by
  unfold travel
  rw [get_bind_apply, if_neg done]
  rfl

/-- Without a fork on the way a walk stays within the phase. It then ends at a slot that has no
later phase, so it has got somewhere. -/
theorem travel_within (follows : run.state.phase.later = next :: ahead)
    (short : run.state.slot < target)
    (closed : (config.forkSlot? preset next.toPhase).filter (· ≤ target) = none) :
    travel config target (next :: ahead) run = walkTo config target run := by
  have last := Config.not_lt_phaseAtSlot follows closed
  unfold travel
  rw [get_bind_apply, if_pos (.inl short)]
  simp only [closed, if_neg last]
  cases ran : reach config target run with
  | ok _ middle =>
    rw [bind_of_ok ran, ← reach_of_lt short, ran]
    rfl
  | error e final => rw [bind_of_error ran, ← reach_of_lt short, ran]

/-- A fork on the way is reached and passed. -/
theorem travel_across
    (onward : run.state.slot < target ∨ run.state.phase < config.phaseAtSlot preset target)
    (opened : (config.forkSlot? preset next.toPhase).filter (· ≤ target) = some fork) :
    travel config target (next :: ahead) run =
      (reach config fork >>= fun _ => enter next >>= fun _ => travel config target ahead) run := by
  rw [travel, get_bind_apply, if_pos onward]
  simp only [opened]

theorem reach_slot_le (before : run.state.slot ≤ target) (order : stop ≤ target)
    (ran : reach config stop run = .ok () final) : final.state.slot ≤ target := by
  obtain ⟨stayed | arrived, _⟩ := reach_eq_ok ran
  · rw [stayed]
    exact before
  · rw [arrived]
    exact order

/-- No walk goes beyond its target. -/
theorem travel_slot_le (follows : run.state.phase.later = ahead)
    (before : run.state.slot ≤ target) (ran : travel config target ahead run = .ok () final) :
    final.state.slot ≤ target := by
  induction ahead generalizing run with
  | nil => exact reach_slot_le before (UInt64.le_refl _) ran
  | cons next ahead ih =>
    by_cases onward : run.state.slot < target ∨ run.state.phase < config.phaseAtSlot preset target
    · cases opened : (config.forkSlot? preset next.toPhase).filter (· ≤ target) with
      | none =>
        have short := onward.resolve_right (Config.not_lt_phaseAtSlot follows opened)
        rw [travel_within follows short opened] at ran
        rw [(walkTo_eq_ok ran).1]
        exact UInt64.le_refl _
      | some fork =>
        rw [travel_across onward opened] at ran
        obtain ⟨_, reached, ran₁, ran⟩ := bind_eq_ok_iff.mp ran
        obtain ⟨_, entered, ran₂, ran⟩ := bind_eq_ok_iff.mp ran
        have within : fork ≤ target := by
          simpa using (Option.filter_eq_some_iff.mp opened).2
        refine ih (later_of_enter follows ran₂) ?_ ran
        rw [slot_of_enter ran₂]
        exact reach_slot_le before within ran₁
    · rw [travel_done onward] at ran
      cases ran
      exact before

/-- The rest of a walk, from the phase that it has got to. -/
def resume (config : Config) (target : Slot) : Step (Run (BeaconState preset)) Unit := fun run =>
  travel config target run.state.phase.later run

/-- A stop that no fork comes up to cuts the way to a later slot in two: this way either leads on
within the phase, or it goes to a fork that lies beyond the stop. -/
theorem travel_split_within (follows : run.state.phase.later = next :: ahead)
    (short : run.state.slot < stop) (order : stop < target)
    (opened : (config.forkSlot? preset next.toPhase).filter (· ≤ stop) = none) :
    travel config target (next :: ahead) run =
      (walkTo config stop >>= fun _ => resume config target) run := by
  have reachable := UInt64.lt_trans short order
  cases openedLater : (config.forkSlot? preset next.toPhase).filter (· ≤ target) with
  | none =>
    rw [travel_within follows reachable openedLater, walkTo_split short order]
    refine bind_congr fun _ middle ran => ?_
    obtain ⟨slot, phase⟩ := walkTo_eq_ok ran
    rw [resume, phase, follows]
    exact (travel_within (phase ▸ follows) (by rwa [slot]) openedLater).symm
  | some fork =>
    obtain ⟨scheduled, within⟩ := Option.filter_eq_some_iff.mp openedLater
    have beyond : stop < fork := by
      rw [scheduled] at opened
      simpa using opened
    rw [travel_across (.inl reachable) openedLater,
      bind_congr_left ((reach_of_lt (UInt64.lt_trans short beyond)).trans
        (walkTo_split short beyond)), bind_assoc]
    refine bind_congr fun _ middle ran => ?_
    obtain ⟨slot, phase⟩ := walkTo_eq_ok ran
    rw [resume, phase, follows, travel_across (.inl (by rwa [slot])) openedLater]
    exact bind_congr_left (reach_of_lt (by rwa [slot])).symm

/-- **A walk may stop anywhere.** The induction is on the phases ahead: up to a fork at the stop or
before it both walks do the same, and a stop before the next fork splits a stage within a phase. -/
theorem travel_split (follows : run.state.phase.later = ahead)
    (before : run.state.slot ≤ stop) (order : stop < target) :
    travel config target ahead run =
      (travel config stop ahead >>= fun _ => resume config target) run := by
  induction ahead generalizing run with
  | nil =>
    have reachable : run.state.slot < target := UInt64.lt_of_le_of_lt before order
    show reach config target run = (reach config stop >>= fun _ => resume config target) run
    by_cases short : run.state.slot < stop
    · rw [reach_of_lt reachable, walkTo_split short order, bind_congr_left (reach_of_lt short)]
      refine bind_congr fun _ middle ran => ?_
      obtain ⟨slot, phase⟩ := walkTo_eq_ok ran
      rw [resume, phase, follows]
      exact (reach_of_lt (by rwa [slot])).symm
    · rw [bind_of_ok (reach_of_not_lt short), resume, follows]
      rfl
  | cons next ahead ih =>
    by_cases onward : run.state.slot < stop ∨ run.state.phase < config.phaseAtSlot preset stop
    · cases opened : (config.forkSlot? preset next.toPhase).filter (· ≤ stop) with
      | some fork =>
        -- the fork is not behind the stop, so both walks pass it and then have fewer phases ahead
        obtain ⟨scheduled, within⟩ := Option.filter_eq_some_iff.mp opened
        have within : fork ≤ stop := by simpa using within
        have openedLater :
            (config.forkSlot? preset next.toPhase).filter (· ≤ target) = some fork :=
          Option.filter_eq_some_iff.mpr
            ⟨scheduled, by simpa using UInt64.le_trans within (UInt64.le_of_lt order)⟩
        rw [bind_congr_left (travel_across onward opened),
          travel_across (.inl (UInt64.lt_of_le_of_lt before order)) openedLater]
        simp only [bind_assoc]
        refine bind_congr fun _ reached ran₁ => bind_congr fun _ entered ran₂ => ?_
        refine ih (later_of_enter follows ran₂) ?_
        rw [slot_of_enter ran₂]
        exact reach_slot_le before within ran₁
      | none =>
        have short := onward.resolve_right (Config.not_lt_phaseAtSlot follows opened)
        rw [bind_congr_left (travel_within follows short opened)]
        exact travel_split_within follows short order opened
    · -- the walk has stopped already, and a second one starts with the same phases ahead
      rw [bind_of_ok (travel_done onward), resume, follows]

end Travel

theorem processSlots_of_lt {target : Slot} (ahead : run.state.slot < target) :
    processSlots config target run = resume config target run := by
  unfold processSlots
  rw [get_bind_apply, if_pos ahead]
  rfl

theorem processSlots_of_not_lt {target : Slot} (there : ¬run.state.slot < target) :
    processSlots config target run = .error (.slotNotLater run.state.slot target) run := by
  unfold processSlots
  rw [get_bind_apply, if_neg there]
  rfl

/-- **Slot processing composes.** Let a walk to a slot start before an earlier slot. If the walk to
the earlier slot fails, then the whole walk fails with the same error, in the same state and with
the same journal; otherwise it ends like a second walk from where the first one has ended. -/
theorem processSlots_stages (config : Config) {stop target : Slot}
    (ahead : run.state.slot < stop) (order : stop < target) :
    processSlots config target run =
      match processSlots config stop run with
      | .ok _ middle => processSlots config target middle
      | .error e final => .error e final := by
  have split : resume config target run =
      (resume config stop >>= fun _ => resume config target) run := by
    rw [bind_congr_left (show resume config stop run = travel config stop _ run from rfl)]
    exact travel_split rfl (UInt64.le_of_lt ahead) order
  rw [processSlots_of_lt (UInt64.lt_trans ahead order), processSlots_of_lt ahead, split]
  cases ran : resume config stop run with
  | ok _ middle =>
    have there := travel_slot_le rfl (UInt64.le_of_lt ahead) ran
    rw [bind_of_ok ran]
    exact (processSlots_of_lt (UInt64.lt_of_le_of_lt there order)).symm
  | error e final => rw [bind_of_error ran]

/-- The vote of the first committee of an epoch for zero roots, included at once. -/
def firstVote (epoch : Epoch) : PendingAttestation where
  aggregationBits := [true]
  data := ⟨Preset.minimal.startSlot epoch, 0, Root.zero, ⟨0, Root.zero⟩, ⟨epoch, Root.zero⟩⟩
  inclusionDelay := 1
  proposerIndex := 7

/-- A state at the end of the second epoch, with eight validators and a vote for each epoch. -/
def twoVotes : PendingState .minimal where
  chain := { Chain.empty .minimal with
    slot := 15
    validators := Array.replicate 8 ⟨32000000000, false, 0, 0, farFutureEpoch, farFutureEpoch⟩
    balances := Array.replicate 8 32000000000 }
  votes := ⟨[firstVote 0], [firstVote 1]⟩

/-- The same state with a cache that takes the validators of both epochs to be shuffled already.
What it knows is not right, which makes no difference to how a walk is cut. -/
def shuffledVotes : PendingState .minimal :=
  let order : Array ValidatorIndex := #[5, 2, 7, 0, 3, 6, 1, 4]
  { twoVotes with cache := { Cache.empty with shuffled := ⟨some order, some order, none⟩ } }

/-- A schedule with three forks that are an epoch apart. -/
def threeForks : Config :=
  { Config.minimal with altairForkEpoch := 2, bellatrixForkEpoch := 3, capellaForkEpoch := 4 }

/-- The first stage counts the votes and ends at the first fork, and the second one passes the other
two. -/
theorem processSlots_stages_threeForks :
    ∃ middle final,
      processSlots threeForks 16 ⟨.pending shuffledVotes, #[]⟩ = .ok () middle ∧
      processSlots threeForks 33 middle = .ok () final ∧
      processSlots threeForks 33 ⟨.pending shuffledVotes, #[]⟩ = .ok () final := by
  let start : Run (BeaconState .minimal) := ⟨.pending shuffledVotes, #[]⟩
  have ahead : start.state.slot < 16 := by decide
  have order : (16 : Slot) < 33 := by decide
  have stages := processSlots_stages threeForks ahead order
  have succeeds : Result.succeeds (processSlots threeForks 33 start) = true := by decide +kernel
  obtain ⟨_, final, whole⟩ := Result.eq_ok_of_succeeds succeeds
  cases first : processSlots threeForks 16 start with
  | ok _ middle =>
    rw [first] at stages
    exact ⟨middle, final, rfl, stages.symm.trans whole, whole⟩
  | error e failed =>
    rw [first] at stages
    cases stages.symm.trans whole

end BeaconState

end BeaconEpoch
