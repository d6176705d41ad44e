import BeaconEpoch.Cache

/-!
# States

A chain together with the votes of its last two epochs and its cache.

## Main definitions

* `State`: a chain, its votes and its cache.
* `PendingState`: a state that keeps votes as attestations.
* `FlagState`: a state that keeps votes as participation flags, with inactivity scores.
* `BeaconState`: a state of any phase.
* `State.ask`: a lookup as a step on a state.
-/

namespace BeaconEpoch

/-- The votes of two epochs as they were included. -/
structure PendingVotes where
  /-- The attestations of the previous epoch. -/
  previous : List PendingAttestation
  /-- The attestations of the current epoch. -/
  current : List PendingAttestation
deriving DecidableEq, Inhabited

/-- The votes of two epochs as flags, one entry per validator. -/
structure FlagVotes where
  /-- The flags for the previous epoch. -/
  previous : Array ParticipationFlags
  /-- The flags for the current epoch. -/
  current : Array ParticipationFlags
  /-- How long each validator has been missing. -/
  inactivityScores : Array InactivityScore
deriving DecidableEq, Inhabited

/-- A chain, its votes and its cache. -/
structure State (preset : Preset) (Votes : Type) where
  chain : Chain preset
  votes : Votes
  cache : Cache := Cache.empty
deriving DecidableEq

/-- A state of Phase 0. -/
abbrev PendingState (preset : Preset) := State preset PendingVotes

/-- A state of Altair or later. -/
abbrev FlagState (preset : Preset) := State preset FlagVotes

/-- A state of any phase. -/
inductive BeaconState (preset : Preset)
  | pending (state : PendingState preset)
  | flagged (phase : FlagPhase) (state : FlagState preset)
deriving DecidableEq

namespace State

variable {preset : Preset} {Votes α : Type}

/-- A question to the chain of a state, answered with the help of its cache. -/
def ask (question : Chain preset → Lookup α) : Step (State preset Votes) α := fun state =>
  Step.zoom State.cache (fun cache state => { state with cache })
    (question state.chain) state

end State

namespace BeaconState

/-- The state at genesis without validators and votes. -/
def empty (preset : Preset) : BeaconState preset :=
  pending { chain := Chain.empty preset, votes := ⟨[], []⟩ }

instance {preset : Preset} : Inhabited (BeaconState preset) := ⟨empty preset⟩

variable {preset : Preset}

/-- The phase of a state. -/
def phase : BeaconState preset → Phase
  | pending _ => .phase0
  | flagged phase _ => phase.toPhase

/-- The chain of a state. -/
def chain : BeaconState preset → Chain preset
  | pending state => state.chain
  | flagged _ state => state.chain

/-- The cache of a state. -/
def cache : BeaconState preset → Cache
  | pending state => state.cache
  | flagged _ state => state.cache

/-- The state with another chain. -/
def withChain (chain : Chain preset) : BeaconState preset → BeaconState preset
  | pending state => pending { state with chain }
  | flagged phase state => flagged phase { state with chain }

/-- The state with another cache. -/
def withCache (cache : Cache) : BeaconState preset → BeaconState preset
  | pending state => pending { state with cache }
  | flagged phase state => flagged phase { state with cache }

/-- The slot of a state. -/
def slot (state : BeaconState preset) : Slot := state.chain.slot

/-- A state with flags, as one of a phase; Phase 0 has no such states. -/
def ofFlagged? (phase : Phase) (state : FlagState preset) : Option (BeaconState preset) :=
  (FlagPhase.ofPhase? phase).map (flagged · state)

/-- A question to the chain of a state, answered with the help of its cache. -/
def ask {α : Type} (question : Chain preset → Lookup α) : Step (BeaconState preset) α :=
  fun state => Step.zoom BeaconState.cache BeaconState.withCache (question state.chain) state

end BeaconState

end BeaconEpoch
