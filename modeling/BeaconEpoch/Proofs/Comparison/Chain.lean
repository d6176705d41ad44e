import BeaconEpoch.Proofs.Accounting.Report
import BeaconEpoch.Proofs.Comparison.Basic

/-!
# Comparing chains

Two chains with the same clock, the same finality and the same slashings, whose registries are the
same up to the order of their validators, agree on everything that an epoch computes from the
registry as a whole. What an epoch finds for each validator follows the validators.

## Main definitions

* `Chain.Alike`: two chains of this kind.
* `Cache.TellsActive`: what an epoch of Altair or later needs to know of a cache.

## Main statements

* `Chain.Alike.activeTotals_eq`, `Totals.addVotes_perm`: sums do not depend on the order.
* `Chain.Alike.lookupTotalActive_tied`: the active stake is the same, whatever two caches know.
* `Chain.Alike.slash_tied`: the sweep follows the validators.

## Design notes

* **Less than coherence is asked of caches.** Shuffles are about positions, so a cache is of no use
  to a chain in another order; but an epoch of Altair or later never looks at them.
-/

namespace BeaconEpoch

/-! ## Sums in any order -/

namespace Totals

/-- Totals are known by their readings. -/
theorem ext_readings {totals other : Totals}
    (activeCurrent : totals.activeCurrent = other.activeCurrent)
    (activePrevious : totals.activePrevious = other.activePrevious)
    (attested : ∀ category, totals.attested category = other.attested category) :
    totals = other := by
  obtain ⟨_, _, _, _, _, _, _⟩ := totals
  obtain ⟨_, _, _, _, _, _, _⟩ := other
  have currentEpoch := attested .currentEpoch
  have currentEpochTarget := attested .currentEpochTarget
  have previousEpoch := attested .previousEpoch
  have previousEpochTarget := attested .previousEpochTarget
  have previousEpochHead := attested .previousEpochHead
  simp_all [Totals.attested]

/-- Totals do not remember in which order records were added. -/
theorem addRecord_right_comm (phase : Phase) (totals : Totals) (record other : Record) :
    (totals.addRecord phase record).addRecord phase other =
      (totals.addRecord phase other).addRecord phase record := by
  refine ext_readings ?_ ?_ fun category => ?_
  · simp only [(active_addRecord ..).1]
  · simp only [(active_addRecord ..).2]
  · simp only [attested_addRecord, Nat.add_right_comm]

instance (phase : Phase) : RightCommutative (addRecord phase) := ⟨addRecord_right_comm phase⟩

/-- The stake behind votes does not depend on the order of the records. -/
theorem addVotes_perm (phase : Phase) (totals : Totals) {records others : Array Record}
    (perm : others.toList.Perm records.toList) :
    totals.addVotes phase others = totals.addVotes phase records := by
  rw [addVotes, addVotes, ← Array.foldl_toList, ← Array.foldl_toList]
  exact perm.foldl_eq totals

end Totals

namespace Chain

variable {preset : Preset} {count : Nat} {order : Equiv.Perm (Fin count)}

/-- Two chains with the same clock, finality and slashings, and with the same validators in another
order. -/
structure Alike (order : Equiv.Perm (Fin count)) (chain other : Chain preset) : Prop where
  slot : other.slot = chain.slot
  slashings : other.slashings = chain.slashings
  finalizedCheckpoint : other.finalizedCheckpoint = chain.finalizedCheckpoint
  validators : Matched order Eq chain.validators other.validators

namespace Alike

variable {chain other : Chain preset} (alike : Alike order chain other)

include alike

theorem currentEpoch : other.currentEpoch = chain.currentEpoch := by
  simp only [Chain.currentEpoch, alike.slot]

theorem previousEpoch : other.previousEpoch = chain.previousEpoch := by
  simp only [Chain.previousEpoch, alike.currentEpoch]

theorem isPastGenesis : other.isPastGenesis = chain.isPastGenesis := by
  simp only [Chain.isPastGenesis, alike.currentEpoch]

theorem isLeaking : other.isLeaking = chain.isLeaking := by
  rw [Chain.isLeaking, Chain.finalityDelay, alike.previousEpoch, alike.finalizedCheckpoint]
  rfl

theorem slashingIsDue : other.slashingIsDue = chain.slashingIsDue := by
  funext validator
  simp only [Chain.slashingIsDue, alike.currentEpoch]

theorem withBalances (balances balances' : Array Gwei) :
    Alike order ({ chain with balances } : Chain preset)
      ({ other with balances := balances' } : Chain preset) :=
  ⟨alike.slot, alike.slashings, alike.finalizedCheckpoint, alike.validators⟩

/-- The active stake is a sum over the registry, in whichever order. -/
theorem activeTotals_eq : other.activeTotals = chain.activeTotals := by
  simp only [activeTotals, alike.currentEpoch, alike.previousEpoch, ← Array.foldl_toList]
  refine alike.validators.perm.foldl_eq' ?_ _
  intro validator _ validator' _ totals
  cases validator.isActive chain.currentEpoch <;> cases validator.isActive chain.previousEpoch <;>
    cases validator'.isActive chain.currentEpoch <;>
    cases validator'.isActive chain.previousEpoch <;>
    simp [Totals.addActive, Nat.add_right_comm]

theorem totalActive_eq :
    other.totalActive other.currentEpoch = chain.totalActive chain.currentEpoch := by
  rw [totalActive_currentEpoch, totalActive_currentEpoch, alike.activeTotals_eq]

end Alike

end Chain

/-! ## The active stake -/

/-- If a cache knows the active stake of the current epoch it knows it rightly. -/
def Cache.TellsActive {preset : Preset} (cache : Cache) (chain : Chain preset) : Prop :=
  ∀ total : GweiSum, cache.totalActive.current = some total →
    GweiSum.checked (chain.totalActive chain.currentEpoch) = .ok total

namespace Cache

variable {preset : Preset} {cache : Cache} {chain other : Chain preset}

theorem CoherentWith.tellsActive (coherent : cache.CoherentWith chain) :
    cache.TellsActive chain := fun _ known => coherent.totalActive .current known

theorem TellsActive.congr (tells : cache.TellsActive chain)
    (same : other.totalActive other.currentEpoch = chain.totalActive chain.currentEpoch) :
    cache.TellsActive other := by
  intro total known
  rw [same]
  exact tells total known

end Cache

namespace Chain

variable {preset : Preset} {cache after : Cache} {chain : Chain preset}

/-- A cache still tells the active stake after it has learned what was counted. -/
theorem cacheTotalActive_tells {totals : Totals}
    (counted : chain.activeTotals.checked = .ok totals) (tells : cache.TellsActive chain)
    (ran : chain.cacheTotalActive totals.activeCurrent cache = .ok () after) :
    after.TellsActive chain := by
  obtain ⟨rfl, fits⟩ := Totals.eq_of_checked_eq_ok counted
  cases ran
  intro total known
  cases learned : cache.totalActive.current with
  | some before =>
    simp only [learned] at known
    exact tells total (learned.trans known)
  | none =>
    have increment : preset.effectiveBalanceIncrement < GweiSum.bound := by
      cases preset <;> decide
    simp only [learned] at known
    rw [totalActive_currentEpoch]
    cases known
    exact if_pos (Nat.max_lt.mpr ⟨increment, fits⟩)

/-- A cache that tells the active stake is as good as one that has to look it up. -/
theorem lookupTotalActive_of_tells (tells : cache.TellsActive chain) :
    ∃ after, chain.lookupTotalActive cache =
      (liftM (GweiSum.checked (chain.totalActive chain.currentEpoch)) : Lookup GweiSum) after := by
  unfold lookupTotalActive
  rw [Step.get_bind_apply]
  cases known : cache.totalActive.current with
  | some total =>
    refine ⟨cache, ?_⟩
    rw [tells total known]
    rfl
  | none =>
    cases fresh : GweiSum.checked (chain.totalActive chain.currentEpoch) with
    | ok total => exact ⟨_, rfl⟩
    | error e => exact ⟨cache, rfl⟩

section Pair

variable {count : Nat} {order : Equiv.Perm (Fin count)} {likeness : Likeness}
  {other : Chain preset} {cache' : Cache}

/-- Two caches that tell the truth give two alike chains the same divisor. -/
theorem Alike.lookupTotalActive_tied (alike : Alike order chain other)
    (tells : cache.TellsActive chain) (tells' : cache'.TellsActive other) :
    Step.Tied likeness (fun active _ active' _ => active' = active)
      (chain.lookupTotalActive cache) (other.lookupTotalActive cache') := by
  obtain ⟨after, looked⟩ := lookupTotalActive_of_tells tells
  obtain ⟨after', looked'⟩ := lookupTotalActive_of_tells tells'
  rw [looked, looked', alike.totalActive_eq]
  cases GweiSum.checked (chain.totalActive chain.currentEpoch) with
  | ok total => exact rfl
  | error e => exact fun _ => rfl

theorem Alike.ask_lookupTotalActive_tied {Votes : Type} {state other : State preset Votes}
    (alike : Alike order state.chain other.chain) (tells : state.cache.TellsActive state.chain)
    (tells' : other.cache.TellsActive other.chain) :
    Step.Tied likeness
      (fun active middle active' middle' => active' = active ∧ ∃ cache cache',
        middle = { state with cache } ∧ middle' = { other with cache := cache' })
      (State.ask Chain.lookupTotalActive state) (State.ask Chain.lookupTotalActive other) := by
  simp only [State.ask, Step.zoom_apply]
  refine (alike.lookupTotalActive_tied tells tells').move ?_
  intro active cache active' cache' same
  exact ⟨same, cache, cache', rfl, rfl⟩

end Pair

end Chain

/-! ## The sweep -/

/-- Two logs with the same penalties, each under the position of its validator. -/
def PenaltyLog.Alike {count : Nat} (order : Equiv.Perm (Fin count))
    (log other : Array (ValidatorIndex × Gwei)) : Prop :=
  ∃ penalty penalty' : Fin count → Option Gwei, log.toList = PenaltyLog.entries penalty ∧
    other.toList = PenaltyLog.entries penalty' ∧ ∀ index, penalty (order index) = penalty' index

/-- In the same order the logs are the same. -/
theorem PenaltyLog.Alike.eq {count : Nat} {log other : Array (ValidatorIndex × Gwei)}
    (alike : PenaltyLog.Alike (.refl (Fin count)) log other) : other = log := by
  obtain ⟨penalty, penalty', shown, shown', each⟩ := alike
  obtain rfl : penalty = penalty' := funext each
  exact Array.toList_inj.mp (shown'.trans shown.symm)

namespace Chain.Alike

variable {preset : Preset} {count : Nat} {order : Equiv.Perm (Fin count)} {likeness : Likeness}
  {chain other : Chain preset}

/-- Penalties follow the validators. -/
theorem slashingPenalties_tied (alike : Alike order chain other)
    (inOrder : likeness = .exact → order = .refl _) (active : GweiSum) (multiplier : Nat) :
    Tied likeness (Matched order Eq) (chain.slashingPenalties active multiplier)
      (other.slashingPenalties active multiplier) := by
  have stake : other.slashedStake active multiplier = chain.slashedStake active multiplier := by
    simp only [slashedStake, alike.slashings]
  have anybody : other.validators.any chain.slashingIsDue =
      chain.validators.any chain.slashingIsDue := by
    rw [← Array.any_toList, ← Array.any_toList]
    exact alike.validators.perm.any_eq
  simp only [slashingPenalties, alike.slashingIsDue, stake, anybody]
  split
  · refine (Tied.refl likeness _).bind ?_
    rintro slashed _ rfl
    refine alike.validators.mapM inOrder ?_
    rintro validator _ rfl
    exact Tied.refl likeness _
  · refine alike.validators.map ?_
    intro validator validator' _
    rfl

/-- **The sweep follows the validators.** It keeps every relation between balances that taking away
the same amount keeps. -/
theorem slash_tied (alike : Alike order chain other) {related : Gwei → Gwei → Prop}
    (balances : Matched order related chain.balances other.balances)
    (decrease : ∀ balance balance' amount, related balance balance' →
      related (Gwei.decrease balance amount) (Gwei.decrease balance' amount))
    (inOrder : likeness = .exact → order = .refl _) (active : GweiSum) (multiplier : Nat) :
    Tied likeness (fun swept swept' =>
        Matched order related swept.1.balances swept'.1.balances ∧
          PenaltyLog.Alike order swept.2 swept'.2)
      (chain.slash PenaltyLog.keep active multiplier)
      (other.slash PenaltyLog.keep active multiplier) := by
  have sizes := alike.validators.sizes
  have sizes' := balances.sizes
  simp only [slash]
  rw [if_pos (sizes.1.trans sizes'.1.symm), if_pos (sizes.2.trans sizes'.2.symm)]
  refine (alike.slashingPenalties_tied inOrder active multiplier).bind ?_
  intro penalties penalties' matched
  constructor
  · refine balances.zipWith matched ?_
    rintro balance balance' penalty _ kept rfl
    exact decrease balance balance' _ kept
  · obtain ⟨penalty, penalty', rfl, rfl, each⟩ := matched
    exact ⟨penalty, penalty', PenaltyLog.keep_ofFn, PenaltyLog.keep_ofFn, each⟩

end Chain.Alike

end BeaconEpoch
