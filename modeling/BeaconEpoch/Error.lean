/-!
# Errors

Why a lookup, an accounting step or a slot walk stops.

## Main definitions

* `Error`: the causes, each with the values its message shows.
* `Error.message`: the wording of a cause.

## Design notes

* **Causes, not texts.** The wording lives in one function, so that a law can name a cause without
  quoting a sentence.
* **A failed check of accounting on itself is a cause.** Arithmetic on words saturates, because a
  rule says so, carries a proof that its value fits, or is checked. A failed check is
  `arithmeticOverflow` and nothing else: it accuses the accounting, never its input.
-/

namespace BeaconEpoch

/-- The reasons for which accounting stops. -/
inductive Error
  /-- A value left the range of the word or sum that has to hold it, or accounting failed another
  check of its own: a division by zero, a list copied over one of another length, a walk that gets
  nowhere. -/
  | arithmeticOverflow
  /-- A reward would push a balance beyond the largest amount. -/
  | balanceOverflow
  /-- Epoch processing was told to stop. -/
  | cancelled
  /-- No committee of the slot has this index. -/
  | committeeIndexOutOfBounds
  /-- An attestation carries more or fewer bits than its committee has members. -/
  | committeeLengthMismatch (bits members : Nat)
  /-- The epoch lies after the next one. -/
  | epochAfterNext
  /-- The epoch lies before the previous one. -/
  | epochBeforePrevious
  /-- The epoch lies after the current one. -/
  | epochInTheFuture
  /-- The chain holds no randomness for the epoch. -/
  | mixOutOfRange (epoch : UInt64)
  /-- The chain holds no block root for the slot. -/
  | slotOutOfRange (slot : UInt64)
  /-- A voter has no entry in the participation list. -/
  | voterWithoutFlags (index : Nat)
  /-- A voter has no record. -/
  | voterWithoutRecord (index : Nat)
  /-- There is not one inactivity score per validator. -/
  | scoreCountMismatch (validators scores : Nat)
  /-- The inactivity score of a validator would leave its word. -/
  | scoreOverflow (index : Nat)
  /-- An attestation claims to have been included in the slot it votes for. -/
  | inclusionDelayZero
  /-- The participation lists do not fit the registry. -/
  | participationCountMismatch (validators previous current : Nat)
  /-- A record names a proposer that the registry does not have. -/
  | proposerOutOfRange (proposer : UInt64) (validators : Nat)
  /-- Records, validators, balances and deltas are not equally many. -/
  | registryLengthMismatch (records validators balances deltas : Nat)
  /-- A list has more positions than a shuffle can number. -/
  | tooManyPositions
  /-- The target of a walk is not ahead of the state. -/
  | slotNotLater (current target : UInt64)
  /-- There is not one balance per validator. -/
  | balanceCountMismatch (validators balances : Nat)
deriving DecidableEq, Repr

/-- The wording of a cause. -/
def Error.message : Error → String
  | .arithmeticOverflow => "arithmetic overflow"
  | .balanceOverflow => "balance overflowed"
  | .cancelled => "epoch processing was cancelled"
  | .committeeIndexOutOfBounds => "committee index is out of bounds"
  | .committeeLengthMismatch bits members =>
    s!"aggregation bitlist length {bits} does not match committee length {members}"
  | .epochAfterNext => "epoch is after next one relative to state"
  | .epochBeforePrevious => "epoch is before previous one relative to state"
  | .epochInTheFuture => "epoch is in the future relative to state"
  | .mixOutOfRange epoch => s!"state has no RANDAO mix for epoch {epoch}"
  | .slotOutOfRange slot => s!"slot {slot} is out of range"
  | .voterWithoutFlags index => s!"validator index {index} is out of bounds"
  | .voterWithoutRecord index => s!"validator index {index} is out of range"
  | .scoreCountMismatch validators scores =>
    "num of validators is different than num of inactivity scores " ++
      s!"(validators: {validators}, inactivity_scores: {scores})"
  | .scoreOverflow index => s!"inactivity score of validator {index} overflowed"
  | .inclusionDelayZero => "attestation with inclusion delay of 0"
  | .participationCountMismatch validators previous current =>
    "participation lists do not match validator registry " ++
      s!"(validators: {validators}, previous: {previous}, current: {current})"
  | .proposerOutOfRange proposer validators =>
    "proposer index out of range " ++
      s!"(proposer_index: {proposer}, validator_count: {validators})"
  | .registryLengthMismatch records validators balances deltas =>
    "validator registries not the same length " ++
      s!"(records: {records}, validators: {validators}, balances: {balances}, deltas: {deltas})"
  | .tooManyPositions => "out of range integral type conversion attempted"
  | .slotNotLater current target =>
    s!"target slot ({target}) is not later than current slot ({current})"
  | .balanceCountMismatch validators balances =>
    "num of validators is different than num of balances " ++
      s!"(validators: {validators}, balances: {balances})"

end BeaconEpoch
