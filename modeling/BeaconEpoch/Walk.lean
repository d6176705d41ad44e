import BeaconEpoch.Config.Schedule
import BeaconEpoch.Epoch
import BeaconEpoch.Event
import BeaconEpoch.Upgrade

/-!
# Walks

A state advances slot by slot. At the end of an epoch the epoch is processed, and where the schedule
says so the state enters its next phase.

## Main definitions

* `Run`: a state with the journal of what happened to it.
* `State.advanceSlot`: one slot, without an epoch.
* `State.closeEpoch`, `State.walkSlot`, `State.walkSlots`, `State.walkTo`: slots and epochs within a
  phase.
* `BeaconState.reach`, `BeaconState.enter`, `BeaconState.travel`, `BeaconState.processSlots`: slots,
  epochs and upgrades up to a target.

## Design notes

* **The journal survives a failure,** like the state: whatever was done before stays done and stays
  written down.
* **A leg per phase.** A walk takes the phases still ahead one by one: it walks to the next fork or
  to the target, whichever comes first, and goes on only if that was the fork. So it ends after at
  most one leg per phase. Forks at the same slot are passed one after another at that slot, and a
  fork that should have been passed long ago is passed at once.
-/

namespace BeaconEpoch

/-- A state with the journal of what happened to it. -/
structure Run (σ : Type) where
  state : σ
  journal : Array Event := #[]

namespace Run

variable {σ α : Type}

/-- A step on the state of a run. -/
def onState (step : Step σ α) : Step (Run σ) α :=
  Step.zoom Run.state (fun state run => { run with state }) step

/-- Writes an event into the journal. -/
def record (event : Event) : Step (Run σ) Unit :=
  modify fun run => { run with journal := run.journal.push event }

/-- Runs the step that fits the phase of the state of a run. -/
def dispatch {preset : Preset} (pending : Step (Run (PendingState preset)) α)
    (flagged : FlagPhase → Step (Run (FlagState preset)) α) :
    Step (Run (BeaconState preset)) α := fun run =>
  match run.state with
  | .pending state =>
    match pending ⟨state, run.journal⟩ with
    | .ok a run => .ok a ⟨.pending run.state, run.journal⟩
    | .error e run => .error e ⟨.pending run.state, run.journal⟩
  | .flagged phase state =>
    match flagged phase ⟨state, run.journal⟩ with
    | .ok a run => .ok a ⟨.flagged phase run.state, run.journal⟩
    | .error e run => .error e ⟨.flagged phase run.state, run.journal⟩

end Run

/-! ## Within a phase -/

namespace State

variable {preset : Preset} {Votes : Type}

/-- Advances by one slot. When that starts an epoch, the cache moves on with it. -/
def advanceSlot : Step (State preset Votes) Unit := do
  let state ← get
  let slot ← Word.checked (state.chain.slot.toNat + 1)
  let chain : Chain preset := { state.chain with slot }
  let cache := if preset.isEpochStart slot then state.cache.advance else state.cache
  set { state with chain, cache }

variable (phase : Phase) (processEpoch : Step (State preset Votes) Report)

/-- Processes the epoch if the slot is its last. -/
def closeEpoch : Step (Run (State preset Votes)) Unit := do
  let chain := (← get).state.chain
  if ← preset.isEpochEnd chain.slot then
    let report ← Run.onState processEpoch
    Run.record (report.event phase chain.currentEpoch)

/-- Advances by one slot, after the epoch if the slot is its last. -/
def walkSlot : Step (Run (State preset Votes)) Unit := do
  closeEpoch phase processEpoch
  Run.onState advanceSlot

/-- Advances by some slots, with the epochs that end on the way. -/
def walkSlots : (count : Nat) → Step (Run (State preset Votes)) Unit
  | 0 => pure ()
  | count + 1 => do
    walkSlot phase processEpoch
    walkSlots count

/-- Advances to a later slot. -/
def walkTo (target : Slot) : Step (Run (State preset Votes)) Unit := do
  let slot := (← get).state.chain.slot
  if slot < target then walkSlots phase processEpoch (target.toNat - slot.toNat)
  else throw (.slotNotLater slot target)

end State

/-- Advances a state that keeps attestations to a later slot. -/
def PendingState.walkTo {preset : Preset} (config : Config) (target : Slot) :
    Step (Run (PendingState preset)) Unit :=
  State.walkTo .phase0 (State.processPending config false) target

/-- Advances a state that keeps flags to a later slot, under the rules of a phase. -/
def FlagState.walkTo {preset : Preset} (config : Config) (phase : Phase) (target : Slot) :
    Step (Run (FlagState preset)) Unit :=
  State.walkTo phase (State.processFlags config phase false) target

/-! ## Across phases -/

namespace BeaconState

variable {preset : Preset}

/-- Advances to a later slot under the rules of the phase that the state is in. -/
def walkTo (config : Config) (target : Slot) : Step (Run (BeaconState preset)) Unit :=
  Run.dispatch (PendingState.walkTo config target)
    fun phase => FlagState.walkTo config phase.toPhase target

/-- Advances to a slot under the rules of the phase that the state is in, unless it is there. -/
def reach (config : Config) (target : Slot) : Step (Run (BeaconState preset)) Unit := do
  if (← get).state.slot < target then
    walkTo config target

/-- Enters the next phase. -/
def enter (next : FlagPhase) : Step (Run (BeaconState preset)) Unit := do
  let run ← get
  let state ← run.state.upgrade next
  set { run with state }
  Run.record (.upgraded next.toPhase state.slot)

/-- Advances to the target through the phases that are still ahead. Those that the schedule has at
the target are entered even if the target is reached. A schedule that has a phase at the target and
no fork on the way to it would keep the walk at the target for good, so this is an error. -/
def travel (config : Config) (target : Slot) :
    (ahead : List FlagPhase) → Step (Run (BeaconState preset)) Unit
  | [] => reach config target
  | next :: ahead => do
    let state := (← get).state
    if state.slot < target ∨ state.phase < config.phaseAtSlot preset target then
      match (config.forkSlot? preset next.toPhase).filter (· ≤ target) with
      | none =>
        reach config target
        if state.phase < config.phaseAtSlot preset target then
          throw .arithmeticOverflow
      | some fork =>
        reach config fork
        enter next
        travel config target ahead

/-- Advances to a later slot, through all phases that the schedule has up to it. -/
def processSlots (config : Config) (target : Slot) : Step (Run (BeaconState preset)) Unit := do
  let state := (← get).state
  if state.slot < target then travel config target state.phase.later
  else throw (.slotNotLater state.slot target)

end BeaconState

end BeaconEpoch
