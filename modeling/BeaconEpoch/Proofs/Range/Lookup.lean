import BeaconEpoch.Proofs.Coherence
import BeaconEpoch.Proofs.Range.Basic
import BeaconEpoch.Proofs.Shuffle

/-!
# Ranges of lookups

Shuffles, committees and roots of a bounded chain pass all checks of accounting on itself, from
every coherent cache.

## Main definitions

* `Chain.Finds`: a question that finds something that meets a condition, or fails with an allowed
  error.
* `Chain.Asks`: a question that passes these checks, with a condition on what it finds.

## Main statements

* `Chain.seed_sound`, `Chain.shuffledIndices_sound`: the epochs around a slot are far from the last
  word, and a shuffle is as long as the list of its validators.
* `Chain.Answers.finds`: a question finds what its answer without a cache does.
* `Chain.committee_asks`: the bounds of a committee are products that fit.

## Design notes

* **Coherence is a bound.** What a cache knows is right, so it is as small as what would be found.
-/

namespace BeaconEpoch

namespace Chain

variable {preset : Preset} {chain : Chain preset} {α β : Type}

/-! ## Shuffles -/

/-- There are several slots in an epoch, so no epoch around a slot is near the last word. -/
theorem toNat_epochOf_le (epoch : RelativeEpoch) : (chain.epochOf epoch).toNat ≤ 2 ^ 63 := by
  have current := chain.toNat_currentEpoch_lt
  cases epoch with
  | previous =>
    rw [epochOf, toNat_previousEpoch]
    omega
  | current =>
    rw [epochOf]
    omega
  | next =>
    rw [epochOf, toNat_nextEpoch]
    omega

theorem randaoMix_sound (epoch : Epoch) :
    Sound Error.AccusesInput (fun _ => True) (chain.randaoMix epoch) := by
  unfold randaoMix
  split
  · trivial
  · exact nofun

/-- The epoch of the randomness is counted forwards by a whole history before it is counted back, so
that it does not fall below the first epoch. -/
theorem seed_sound {allowed : Error → Prop}
    (mixes : ∀ epoch, Sound allowed (fun _ => True) (chain.randaoMix epoch)) {epoch : Epoch}
    (near : epoch.toNat ≤ 2 ^ 63) (domain : List UInt8) :
    Sound allowed (fun _ => True) (chain.seed epoch domain) := by
  have history : 2 ≤ preset.epochsPerHistoricalVector.toNat ∧
      preset.epochsPerHistoricalVector.toNat ≤ 65536 := by cases preset <;> decide
  have lookahead : preset.minSeedLookahead.toNat = 1 := rfl
  refine (Word.checked_sound (by omega)).bind ?_
  intro ahead sum
  have fits : preset.minSeedLookahead ≤ ahead := by
    rw [UInt64.le_iff_toNat_le]
    omega
  refine (Word.difference_sound fits).bind ?_
  intro seen less
  have fits : 1 ≤ seen := by
    rw [UInt64.le_iff_toNat_le]
    show 1 ≤ seen.toNat
    omega
  refine (Word.difference_sound fits).bind ?_
  intro fixed _
  exact (mixes fixed).bind fun mix _ => .pure trivial

theorem size_activeIndices_le (epoch : Epoch) :
    (chain.activeIndices epoch).size ≤ chain.validators.size :=
  Nat.le_trans Array.size_filterMap_le (Nat.le_of_eq Array.size_zipIdx)

/-- There are few validators, hence few positions to shuffle. -/
theorem shuffledIndices_sound (bounded : chain.Bounded) (epoch : RelativeEpoch) :
    Sound Error.AccusesInput (fun indices => indices.size < 2 ^ 25)
      (chain.shuffledIndices (chain.epochOf epoch)) := by
  have few := Nat.lt_of_le_of_lt (chain.size_activeIndices_le (chain.epochOf epoch))
    bounded.validators
  refine (seed_sound randaoMix_sound (toNat_epochOf_le epoch) _).bind ?_
  intro seed _
  have short : (chain.activeIndices (chain.epochOf epoch)).size ≤ 2 ^ 40 := by omega
  obtain ⟨indices, found, perm, -⟩ :=
    Shuffle.shuffle_of_few Sha256.digest seed preset.shuffleRoundCount short
  rw [found]
  exact perm.size_eq.trans_lt few

/-! ## Questions -/

/-- From every coherent cache a question finds something that meets a condition, and leaves the
cache coherent, or it fails with an allowed error. -/
abbrev Finds (chain : Chain preset) (allowed : Error → Prop) (post : α → Prop)
    (question : Lookup α) : Prop :=
  Step.Sound allowed (fun cache => cache.CoherentWith chain) post question

/-- From every coherent cache a question passes the checks of accounting on itself, finds something
that meets a condition, and leaves the cache coherent. -/
abbrev Asks (chain : Chain preset) (post : α → Prop) (question : Lookup α) : Prop :=
  chain.Finds Error.AccusesInput post question

/-- A question is as good as its answer. -/
theorem Answers.finds {allowed : Error → Prop} {question : Lookup α} {answer : Except Error α}
    {post : α → Prop} (answers : chain.Answers question answer)
    (sound : Sound allowed post answer) : chain.Finds allowed post question := by
  intro cache coherent
  obtain ⟨after, still, ran⟩ := answers cache coherent
  rw [ran]
  cases answer with
  | ok a => exact ⟨still, sound⟩
  | error e => exact sound

/-- A shuffle that is known is as short as one that is computed. -/
theorem lookupShuffled_asks (bounded : chain.Bounded) (epoch : RelativeEpoch) :
    chain.Asks (fun indices => indices.size < 2 ^ 25) (chain.lookupShuffled epoch) :=
  (lookupShuffled_answers epoch).finds (shuffledIndices_sound bounded epoch)

theorem lookupTotalActive_finds {allowed : Error → Prop} (bounded : chain.Bounded) :
    chain.Finds allowed (· ≤ stakeBound) chain.lookupTotalActive := by
  have small := totalActive_le bounded
  refine lookupTotalActive_answers.finds
    ((GweiSum.checked_sound (Nat.lt_of_le_of_lt small stakeBound_lt)).mono ?_)
  rintro total rfl
  exact small

/-! ## Committees -/

theorem relativeEpoch_sound (epoch : Epoch) :
    Sound Error.AccusesInput (fun _ => True) (chain.relativeEpoch epoch) := by
  unfold relativeEpoch
  dsimp only
  repeat' split
  all_goals first | trivial | exact nofun

theorem membersBetween_sound (indices : Array ValidatorIndex) (start stop : Nat) :
    Sound Error.AccusesInput (fun _ => True) (membersBetween indices start stop) := by
  unfold membersBetween
  split
  · trivial
  · exact nofun

theorem attestationEpoch_sound (epoch : Epoch) :
    Sound Error.AccusesInput (fun _ => True) (chain.attestationEpoch epoch) := by
  unfold attestationEpoch
  dsimp only
  repeat' split
  all_goals first | trivial | exact nofun

end Chain

/-! ### Positions within an epoch -/

namespace Preset

variable (preset : Preset)

/-- There is at least one committee in a slot, and there are at most 64. -/
theorem committeesPerSlot_bounds (activeCount : Nat) :
    1 ≤ preset.committeesPerSlot activeCount ∧ preset.committeesPerSlot activeCount ≤ 64 := by
  have most : preset.maxCommitteesPerSlot ≤ 64 := by cases preset <;> decide
  refine ⟨Nat.le_max_left .., Nat.max_le.mpr ⟨by decide, ?_⟩⟩
  exact Nat.le_trans (Nat.min_le_left ..) most

theorem toNat_slotsSinceStart (slot : Slot) :
    (preset.slotsSinceStart slot).toNat = slot.toNat % preset.slotsPerEpoch.toNat :=
  UInt64.toNat_mod ..

/-- The committees of the slots before, and those of the slot up to one of them, are not all
committees of an epoch. -/
theorem committeePosition_lt (slot : Slot) {perSlot index : Nat} (valid : index < perSlot) :
    (preset.slotsSinceStart slot).toNat * perSlot + index <
      perSlot * preset.slotsPerEpoch.toNat := by
  have inside : (preset.slotsSinceStart slot).toNat < preset.slotsPerEpoch.toNat := by
    rw [toNat_slotsSinceStart]
    exact Nat.mod_lt _ preset.slotsPerEpoch_pos
  calc
    _ < (preset.slotsSinceStart slot).toNat * perSlot + perSlot := Nat.add_lt_add_left valid _
    _ = perSlot * ((preset.slotsSinceStart slot).toNat + 1) := by rw [Nat.mul_succ, Nat.mul_comm]
    _ ≤ perSlot * preset.slotsPerEpoch.toNat := Nat.mul_le_mul_left _ inside

/-- There are at most two thousand and some committees in an epoch. -/
theorem committeesPerEpoch_le {perSlot : Nat} (few : perSlot ≤ 64) :
    perSlot * preset.slotsPerEpoch.toNat ≤ 2048 :=
  Nat.mul_le_mul few (show preset.slotsPerEpoch.toNat ≤ 32 by cases preset <;> decide)

end Preset

namespace Chain

variable {preset : Preset} {chain : Chain preset}

theorem committeeCount_asks (bounded : chain.Bounded) (epoch : RelativeEpoch) :
    chain.Asks (fun perSlot => 1 ≤ perSlot ∧ perSlot ≤ 64) (chain.committeeCount epoch) :=
  (lookupShuffled_asks bounded epoch).bind fun indices _ =>
    .pure (preset.committeesPerSlot_bounds indices.size)

/-- **The bounds of a committee are found.** A committee has a position within its epoch, so the
product of its position with the number of validators is as small as that with the number of all
committees. -/
theorem committee_asks (bounded : chain.Bounded) (slot : Slot) (index : UInt64) :
    chain.Asks (fun _ => True) (chain.committee slot index) := by
  refine (Step.Sound.lift (relativeEpoch_sound _)).bind ?_
  intro epoch _
  refine (committeeCount_asks bounded epoch).bind ?_
  rintro perSlot ⟨several, few⟩
  split
  · rename_i valid
    have most := preset.committeesPerEpoch_le few
    have nonzero := Nat.mul_pos several preset.slotsPerEpoch_pos
    have early := preset.committeePosition_lt slot valid
    refine (lookupShuffled_asks bounded epoch).bind ?_
    intro indices size
    refine (Step.Sound.lift (Word.checked_sound (by omega))).bind ?_
    intro perEpoch equal
    refine (Step.Sound.lift (Word.checked_sound (by omega))).bind ?_
    intro position place
    refine (Step.Sound.lift (Word.checked_sound (by omega))).bind ?_
    intro following next
    have product : ∀ place : Nat, place ≤ 2048 → indices.size * place < 2 ^ 64 := fun place le =>
      Nat.lt_of_le_of_lt (Nat.mul_le_mul (Nat.le_of_lt size) le) (by decide)
    refine (Step.Sound.lift (Word.checked_sound (product _ (by omega)))).bind ?_
    intro start _
    refine (Step.Sound.lift (Word.checked_sound (product _ (by omega)))).bind ?_
    intro stop _
    refine (Step.Sound.lift (quotient_sound (by omega))).bind ?_
    intro start _
    refine (Step.Sound.lift (quotient_sound (by omega))).bind ?_
    intro stop _
    exact .lift (membersBetween_sound indices start stop)
  · exact .throw nofun

/-- Voters are looked up in a committee. Another number of bits than it has members is an error of
the input. -/
theorem attestingIndices_asks (bounded : chain.Bounded) (data : AttestationData)
    (bits : List Bool) : chain.Asks (fun _ => True) (chain.attestingIndices data bits) := by
  refine (committee_asks bounded _ _).bind ?_
  intro members _
  split
  · exact .pure trivial
  · exact .throw nofun

/-! ## Roots -/

theorem blockRootAtSlot_sound (slot : Slot) :
    Sound Error.AccusesInput (fun _ => True) (chain.blockRootAtSlot slot) := by
  unfold blockRootAtSlot
  split
  · split
    · trivial
    · exact nofun
  · exact nofun

theorem isBlockRoot_sound (epoch : AttestationEpoch) (root : Root) :
    Sound Error.AccusesInput (fun _ => True) (chain.isBlockRoot epoch root) :=
  (blockRootAtSlot_sound _).bind fun _ _ => .pure trivial

theorem isBlockRootAtSlot_sound (slot : Slot) (root : Root) :
    Sound Error.AccusesInput (fun _ => True) (chain.isBlockRootAtSlot slot root) :=
  (blockRootAtSlot_sound _).bind fun _ _ => .pure trivial

/-- A check only has to be sound where it is made. -/
theorem checkIf_sound {allowed : Error → Prop} {condition : Bool} {check : Except Error Bool}
    (sound : condition = true → Sound allowed (fun _ => True) check) :
    Sound allowed (fun _ => True) (checkIf condition check) := by
  unfold checkIf
  split
  · exact sound ‹_›
  · trivial

end Chain

end BeaconEpoch
