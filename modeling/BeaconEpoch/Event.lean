import BeaconEpoch.Preset

/-!
# Events

What accounting reports while it runs.

## Main definitions

* `Event`: an epoch that was processed, an upgrade, a burned reward.
* `Event.line`: an event as a line of a log.
-/

namespace BeaconEpoch

/-- The things worth reporting. -/
inductive Event
  /-- An epoch was processed under the rules of a phase; the total of active stake, and the number
  of slashed validators that were penalized. -/
  | epochProcessed (phase : Phase) (epoch : Epoch) (active : GweiSum) (penalized : Nat)
  /-- A state entered a phase. -/
  | upgraded (phase : Phase) (slot : Slot)
  /-- Part of a base reward was burned. -/
  | rewardBurned (baseReward afterBurn : Gwei)
deriving DecidableEq, Repr

/-- An event as a line of a log: its level and its message. -/
def Event.line : Event → String
  | .epochProcessed phase epoch active penalized =>
    s!"DEBUG processed {phase.name} epoch {epoch} " ++
      s!"(active balance: {active}, slashed validators penalized: {penalized})"
  | .upgraded phase slot => s!"INFO upgraded state to {phase.name} at slot {slot}"
  | .rewardBurned baseReward afterBurn =>
    s!"DEBUG applied reward burn (base_reward: {baseReward}, after_burn: {afterBurn})"

end BeaconEpoch
