import BeaconEpoch.Document.Part
import BeaconEpoch.State

/-!
# State documents

States of any phase as JSON. A document names the phase of its state; the cache is not written down.

## Main definitions

* `Chain.keys`, `Chain.values`, `Chain.ofValues?`: the part of a document that all phases share.
* `PendingState.toJson`, `PendingState.ofJson?`, `FlagState.toJson`, `FlagState.ofJson?`: states
  with votes of one kind.
* `BeaconState.toJson`, `BeaconState.ofJson?`: states with their phase.
* `BeaconState.render`, `BeaconState.parse?`: states as text.

Reading gives back what was written, with an empty cache (`BeaconState.ofBody?_body`).
-/

namespace BeaconEpoch

variable {preset : Preset}

/-! ## Chains -/

namespace Chain

/-- The keys of the chain up to the votes. -/
def keys : List String :=
  ["slot", "block_roots", "validators", "balances", "randao_mixes", "slashings"]

/-- The key of the last checkpoint that cannot be undone, which follows the votes. -/
def finalityKey : String := "finalized_checkpoint"

/-- The values of a chain up to the votes. -/
def values (chain : Chain preset) : List Json :=
  [.ofNat chain.slot.toNat,
    .ofList Root.toJson chain.blockRoots.toList,
    .ofList Validator.toJson chain.validators.toList,
    .ofList (.ofNat ·.toNat) chain.balances.toList,
    .ofList Root.toJson chain.randaoMixes.toList,
    .ofList (.ofNat ·.toNat) chain.slashings.toList]

/-- The chain with these values up to the votes, and this checkpoint. -/
def ofValues? (preset : Preset) (values : List Json) (finalized : Json) :
    Option (Chain preset) := do
  match values with
  | [slot, blockRoots, validators, balances, randaoMixes, slashings] =>
    return {
      slot := ← slot.word?
      blockRoots := (← blockRoots.list? Root.ofJson?).toArray
      validators := (← validators.list? Validator.ofJson?).toArray
      balances := (← balances.list? Json.word?).toArray
      randaoMixes := (← randaoMixes.list? Root.ofJson?).toArray
      slashings := (← slashings.list? Json.word?).toArray
      finalizedCheckpoint := ← Checkpoint.ofJson? finalized }
  | _ => none

/-- A chain is read back from its values. -/
theorem ofValues?_values (chain : Chain preset) :
    ofValues? preset chain.values chain.finalizedCheckpoint.toJson = some chain := by
  simp [ofValues?, values, Json.word?_ofNat, Json.list?_ofList Root.ofJson?_toJson,
    Json.list?_ofList Validator.ofJson?_toJson, Json.list?_ofList Json.word?_ofNat,
    Checkpoint.ofJson?_toJson]

end Chain

/-! ## States -/

namespace PendingState

/-- The keys of a state of Phase 0. -/
def keys : List String :=
  Chain.keys ++ ["previous_epoch_attestations", "current_epoch_attestations", Chain.finalityKey]

/-- A state of Phase 0 as a JSON value. -/
def toJson (state : PendingState preset) : Json :=
  .record keys (state.chain.values ++
    [.ofList PendingAttestation.toJson state.votes.previous,
      .ofList PendingAttestation.toJson state.votes.current,
      state.chain.finalizedCheckpoint.toJson])

/-- The state of Phase 0 that a JSON value is. -/
def ofJson? (preset : Preset) (json : Json) : Option (PendingState preset) := do
  let values ← json.fields? keys
  match values.drop Chain.keys.length with
  | [previous, current, finalized] =>
    return {
      chain := ← Chain.ofValues? preset (values.take Chain.keys.length) finalized
      votes := {
        previous := ← previous.list? PendingAttestation.ofJson?
        current := ← current.list? PendingAttestation.ofJson? } }
  | _ => none

theorem ofJson?_toJson (state : PendingState preset) :
    ofJson? preset (toJson state) = some { state with cache := Cache.empty } := by
  rw [ofJson?, toJson, Json.fields?_record (show keys.Nodup by decide) (by rfl)]
  have length : Chain.keys.length = state.chain.values.length := rfl
  simp [length, Chain.ofValues?_values, Json.list?_ofList PendingAttestation.ofJson?_toJson]

end PendingState

namespace FlagState

/-- The keys of a state of Altair or later. -/
def keys : List String :=
  Chain.keys ++ ["previous_epoch_participation", "current_epoch_participation", Chain.finalityKey,
    "inactivity_scores"]

/-- A state of Altair or later as a JSON value. -/
def toJson (state : FlagState preset) : Json :=
  .record keys (state.chain.values ++
    [.ofList (.ofNat ·.toNat) state.votes.previous.toList,
      .ofList (.ofNat ·.toNat) state.votes.current.toList,
      state.chain.finalizedCheckpoint.toJson,
      .ofList (.ofNat ·.toNat) state.votes.inactivityScores.toList])

/-- The state of Altair or later that a JSON value is. -/
def ofJson? (preset : Preset) (json : Json) : Option (FlagState preset) := do
  let values ← json.fields? keys
  match values.drop Chain.keys.length with
  | [previous, current, finalized, scores] =>
    return {
      chain := ← Chain.ofValues? preset (values.take Chain.keys.length) finalized
      votes := {
        previous := (← previous.list? Json.byte?).toArray
        current := (← current.list? Json.byte?).toArray
        inactivityScores := (← scores.list? Json.word?).toArray } }
  | _ => none

theorem ofJson?_toJson (state : FlagState preset) :
    ofJson? preset (toJson state) = some { state with cache := Cache.empty } := by
  rw [ofJson?, toJson, Json.fields?_record (show keys.Nodup by decide) (by rfl)]
  have length : Chain.keys.length = state.chain.values.length := rfl
  simp [length, Chain.ofValues?_values, Json.list?_ofList Json.byte?_ofNat,
    Json.list?_ofList Json.word?_ofNat]

end FlagState

/-! ## Documents -/

namespace BeaconState

/-- The key of the phase. -/
def phaseKey : String := "phase"

/-- The key of the state. -/
def stateKey : String := "state"

/-- The value of a state without its phase. -/
def body : BeaconState preset → Json
  | pending state => PendingState.toJson state
  | flagged _ state => FlagState.toJson state

/-- A state as a JSON value. -/
def toJson (state : BeaconState preset) : Json :=
  .record [phaseKey, stateKey] [.ofText state.phase.name, state.body]

/-- The phase whose name a JSON value is. -/
def phaseOfText? (json : Json) : Option Phase := json.text?.bind Phase.ofName?

/-- The phase that the entry of a document names: a text, or an object with null under that name and
nothing else. -/
def phaseOfValue? : Json → Option Phase
  | .object [(name, .scalar .null)] => Phase.ofName? name
  | json => phaseOfText? json

/-- The phase and the state of a document: an object that has each of these keys once, whatever else
it has, or a list of the two. -/
def parts? : Json → Option (Phase × Json)
  | .object entries =>
    match entries.filter (·.1 == phaseKey), entries.filter (·.1 == stateKey) with
    | [(_, phase)], [(_, state)] => (phaseOfValue? phase).map (·, state)
    | _, _ => none
  | .array [phase, state] => (phaseOfText? phase).map (·, state)
  | _ => none

/-- The state of a phase that a JSON value is. -/
def ofBody? (preset : Preset) (phase : Phase) (body : Json) : Option (BeaconState preset) :=
  match FlagPhase.ofPhase? phase with
  | none => (PendingState.ofJson? preset body).map pending
  | some phase => (FlagState.ofJson? preset body).map (flagged phase)

/-- The state that a JSON value is. -/
def ofJson? (preset : Preset) (json : Json) : Option (BeaconState preset) := do
  let (phase, body) ← parts? json
  ofBody? preset phase body

/-- A state as text. -/
def render (state : BeaconState preset) : String := state.toJson.render

/-- The state of a text. -/
def parse? (preset : Preset) (text : String) : Option (BeaconState preset) :=
  (Json.parse? text).bind (ofJson? preset)

/-- The fields of a state are read back, and its cache is empty. -/
theorem ofBody?_body (state : BeaconState preset) :
    ofBody? preset state.phase state.body = some (state.withCache Cache.empty) := by
  cases state with
  | pending state =>
    simp [ofBody?, phase, FlagPhase.ofPhase?, body, PendingState.ofJson?_toJson, withCache]
  | flagged phase state =>
    have : FlagPhase.ofPhase? phase.toPhase = some phase := FlagPhase.ofPhase?_eq_some_iff.mpr rfl
    simp [ofBody?, BeaconState.phase, this, body, FlagState.ofJson?_toJson, withCache]

end BeaconState

end BeaconEpoch
