import BeaconEpoch.Delta.Flags
import BeaconEpoch.Delta.Pending
import BeaconEpoch.Inactivity
import BeaconEpoch.Slashing
import BeaconEpoch.Tally.Flags
import BeaconEpoch.Tally.Pending

/-!
# Epochs

What happens to a state at the end of an epoch.

## Main definitions

* `Report`: the intermediate values of an epoch.
* `Plan`: what an epoch is going to write.
* `Chain.planPending`, `Chain.planFlags`: the part of an epoch that reads, by way of keeping votes.
* `PendingVotes.rotate`, `FlagVotes.rotate`: the votes one epoch later.
* `State.settle`, `State.slash`, `State.updateScores`: the pieces that write to a state.
* `State.conclude`: the part of an epoch that writes.
* `State.processPending`, `State.processFlags`: a whole epoch, by way of keeping votes.
* `BeaconState.processEpoch`: a whole epoch of a state of any phase.

## Design notes

* **Reading comes first and is a lookup.** Counting and the computation of deltas see a chain and
  its votes, and can write nothing but the cache; then balances, scores, slashing penalties and
  votes are written in this order.
* **Cancelling** is heeded between the steps that read.
-/

namespace BeaconEpoch

/-- The intermediate values of an epoch. The balances in the records are those around rewards and
penalties; slashing penalties come after. -/
structure Report where
  totals : Totals
  records : Array Record
  deltas : Array Delta
  /-- The penalized validators, in the order of the registry, each with its penalty. -/
  slashingPenalties : Array (ValidatorIndex × Gwei)
deriving DecidableEq, Repr, Inhabited

/-- What an epoch is going to write, found out before anything is written. -/
structure Plan where
  tally : Tally
  deltas : Array Delta
  /-- The new inactivity scores, if there are any. -/
  scores : Option (Array InactivityScore) := none
deriving DecidableEq, Repr, Inhabited

/-- What an epoch reports to the log. -/
def Report.event (report : Report) (phase : Phase) (epoch : Epoch) : Event :=
  .epochProcessed phase epoch report.totals.activeCurrent report.slashingPenalties.size

/-- Fails if accounting was told to stop. -/
def checkCancelled (cancelled : Bool) : Except Error Unit :=
  if cancelled then .error .cancelled else .ok ()

/-! ## Votes -/

/-- The votes one epoch later: those of the current epoch become those of the previous one. -/
def PendingVotes.rotate (votes : PendingVotes) : PendingVotes := ⟨votes.current, []⟩

/-- The votes one epoch later, with no flags yet for any validator. -/
def FlagVotes.rotate (votes : FlagVotes) (validatorCount : Nat) : FlagVotes :=
  { votes with previous := votes.current, current := Array.replicate validatorCount 0 }

/-- The votes with new inactivity scores, if there are any. -/
def FlagVotes.withScores (votes : FlagVotes) : Option (Array InactivityScore) → FlagVotes
  | none => votes
  | some inactivityScores => { votes with inactivityScores }

/-! ## The part that reads -/

namespace Chain

variable {preset : Preset} (chain : Chain preset)

/-- The deltas of all records: those that the rules give, but nothing in the first epoch. -/
def dueDeltas (records : Array Record) (deltas : Except Error (Array Delta)) :
    Except Error (Array Delta) :=
  if chain.isPastGenesis then deltas else .ok (records.map fun _ => {})

/-- The plan of an epoch for a chain that keeps votes as attestations. -/
def planPending (config : Config) (cancelled : Bool) (votes : PendingVotes) : Lookup Plan := do
  checkCancelled cancelled
  let tally ← chain.openPending
  checkCancelled cancelled
  let tally ← chain.countAttestations votes tally
  checkCancelled cancelled
  let deltas ← chain.dueDeltas tally.records (chain.epochDeltas config tally)
  checkCancelled cancelled
  return { tally, deltas }

/-- The plan of an epoch for a chain that keeps votes as flags, under the rules of a phase. Deltas
depend on the new scores. -/
def planFlags (config : Config) (phase : Phase) (cancelled : Bool) (votes : FlagVotes) :
    Lookup Plan := do
  checkCancelled cancelled
  let tally ← chain.openFlags votes.inactivityScores
  checkCancelled cancelled
  let tally ← countFlags preset phase votes tally
  checkCancelled cancelled
  let scores ← chain.nextScores config votes.inactivityScores tally.records
  let tally := { tally with records := withScores tally.records scores }
  let deltas ← chain.dueDeltas tally.records (chain.flagDeltas config phase tally)
  return { tally, deltas, scores }

end Chain

/-! ## The part that writes -/

namespace State

variable {preset : Preset} {Votes : Type}

/-- Settles all deltas with the balances of a state, and returns the records with both balances. -/
def settle (records : Array Record) (deltas : Array Delta) :
    Step (State preset Votes) (Array Record) := fun state =>
  match Books.settle deltas ⟨state.chain, records⟩ with
  | .ok _ books => .ok books.records { state with chain := books.chain }
  | .error e books => .error e { state with chain := books.chain }

/-- Takes the slashing penalties that are due from the balances of a state, and returns them. -/
def slash (active : GweiSum) (multiplier : Nat) :
    Step (State preset Votes) (Array (ValidatorIndex × Gwei)) := do
  let (chain, penalties) ← (← get).chain.slash PenaltyLog.keep active multiplier
  modify ({ · with chain })
  return penalties

/-- Updates the inactivity scores of a state, and returns the records that show them. -/
def updateScores (config : Config) (records : Array Record) :
    Step (State preset FlagVotes) (Array Record) := do
  let state ← get
  let scores ← state.chain.nextScores config state.votes.inactivityScores records
  set { state with votes := state.votes.withScores scores }
  return withScores records scores

/-- Writes what was planned. Once balances are settled the votes are amended, then slashing
penalties are taken, and at last the votes are moved one epoch on. -/
def conclude (phase : Phase) (amend : Votes → Votes) (rotate : Votes → Nat → Votes)
    (plan : Plan) : Step (State preset Votes) Report := do
  let records ← settle plan.tally.records plan.deltas
  modify fun state => { state with votes := amend state.votes }
  let active ← ask Chain.lookupTotalActive
  let slashingPenalties ← slash active (preset.slashingMultiplier phase)
  modify fun state =>
    { state with votes := rotate state.votes state.chain.validators.size }
  return { totals := plan.tally.totals, records, deltas := plan.deltas, slashingPenalties }

/-! ## Whole epochs -/

/-- A whole epoch of a state that keeps attestations. -/
def processPending (config : Config) (cancelled : Bool) :
    Step (State preset PendingVotes) Report := do
  let votes := (← get).votes
  let plan ← ask (·.planPending config cancelled votes)
  conclude .phase0 id (fun votes _ => votes.rotate) plan

/-- A whole epoch of a state that keeps flags, under the rules of a phase. -/
def processFlags (config : Config) (phase : Phase) (cancelled : Bool) :
    Step (State preset FlagVotes) Report := do
  let votes := (← get).votes
  let plan ← ask (·.planFlags config phase cancelled votes)
  conclude phase (·.withScores plan.scores) FlagVotes.rotate plan

end State

namespace BeaconState

variable {preset : Preset} {α : Type}

/-- Runs the step that fits the phase of a state. -/
def dispatch (pending : Step (PendingState preset) α)
    (flagged : FlagPhase → Step (FlagState preset) α) : Step (BeaconState preset) α
  | .pending state =>
    match pending state with
    | .ok a state => .ok a (.pending state)
    | .error e state => .error e (.pending state)
  | .flagged phase state =>
    match flagged phase state with
    | .ok a state => .ok a (.flagged phase state)
    | .error e state => .error e (.flagged phase state)

/-- A whole epoch of a state of any phase. -/
def processEpoch (config : Config) (cancelled : Bool) : Step (BeaconState preset) Report :=
  dispatch (State.processPending config cancelled)
    fun phase => State.processFlags config phase.toPhase cancelled

/-- Moves the votes of a state one epoch on. -/
def rotateVotes : Step (BeaconState preset) Unit :=
  dispatch (modify fun state => { state with votes := state.votes.rotate })
    fun _ => modify fun state =>
      { state with votes := state.votes.rotate state.chain.validators.size }

end BeaconState

end BeaconEpoch
