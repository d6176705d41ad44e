import BeaconEpoch.Proofs.Range.Lookup
import BeaconEpoch.Proofs.Shuffle
import Mathlib.Data.List.Nodup
import Mathlib.Data.List.Pairwise

/-!
# Committees

The active validators of an epoch are in one committee each: the shuffle is cut into slices without
gaps, and a shuffle is a permutation.

## Main definitions

* `slice`: one of several parts of an array that are as equally long as possible.
* `Chain.HasDuties`: a validator that is active in an epoch.
* `Preset.position`, `Preset.cutCommittee`: the number of a committee within its epoch, and the
  slice with that number.
* `Preset.slotsOf`, `Preset.places`: the slots of an epoch and its committees, in order.
* `Chain.Committees`: the committees of an epoch, as they are found from every coherent cache.

## Main statements

* `flatten_slices_all`, `length_slice`: slices put together, and how long one is.
* `Chain.relativeEpoch_epochOf`, `Chain.epochOf_of_relativeEpoch`: which epochs are around a slot.
* `Chain.committee_answers`: a committee is a slice of the shuffle.
* `Chain.committees_partition`: the committees of an epoch partition its active validators.

## Design notes

* **Few enough validators.** The bounds of a slice are products of the number of validators with
  the number of a committee, of which an epoch has at most `2 ^ 11`. With `2 ^ 40` validators they
  are far from the last word.
-/

namespace BeaconEpoch

/-! ## Slices -/

section Slices

variable {α : Type} (xs : Array α) (parts : Nat)

/-- One of several parts of an array that are as equally long as possible. -/
def slice (position : Nat) : List α :=
  (xs.extract (xs.size * position / parts) (xs.size * (position + 1) / parts)).toList

/-- Every slice starts where the one before it has stopped. -/
theorem flatten_slices (count : Nat) :
    ((List.range count).map (slice xs parts)).flatten =
      (xs.extract 0 (xs.size * count / parts)).toList := by
  induction count with
  | zero => simp
  | succ count ih =>
    have order : xs.size * count / parts ≤ xs.size * (count + 1) / parts :=
      Nat.div_le_div_right (Nat.mul_le_mul_left _ (Nat.le_succ count))
    rw [List.range_succ, List.map_append, List.flatten_append, ih]
    simp only [List.map_cons, List.map_nil, List.flatten_cons, List.flatten_nil, List.append_nil]
    rw [slice, ← Array.toList_append, Array.extract_append_extract, Nat.min_eq_left (Nat.zero_le _),
      Nat.max_eq_right order]

theorem flatten_slices_all (several : 0 < parts) :
    ((List.range parts).map (slice xs parts)).flatten = xs.toList := by
  rw [flatten_slices, Nat.mul_div_cancel _ several, Array.extract_size]

/-- A part ends after its start and within the array. -/
theorem slice_bounds {position : Nat} (valid : position < parts) :
    xs.size * position / parts ≤ xs.size * (position + 1) / parts ∧
      xs.size * (position + 1) / parts ≤ xs.size := by
  refine ⟨Nat.div_le_div_right (Nat.mul_le_mul_left _ (Nat.le_succ position)), ?_⟩
  refine Nat.div_le_of_le_mul ?_
  rw [Nat.mul_comm parts]
  exact Nat.mul_le_mul_left _ valid

theorem div_rounded_up {n parts : Nat} (several : 0 < parts) (remainder : 0 < n % parts) :
    (n + parts - 1) / parts = n / parts + 1 := by
  have whole : (parts - 1) / parts = 0 := Nat.div_eq_of_lt (by omega)
  have part : (parts - 1) % parts = parts - 1 := Nat.mod_eq_of_lt (by omega)
  rw [Nat.add_sub_assoc several, Nat.add_div several, whole, part, if_pos (by omega)]

/-- The bounds of a slice are rounded down, so its length is the average, rounded down or up. -/
theorem length_slice {position : Nat} (valid : position < parts) :
    (slice xs parts position).length = xs.size / parts ∨
      (slice xs parts position).length = (xs.size + parts - 1) / parts := by
  have several : 0 < parts := Nat.zero_lt_of_lt valid
  have inside := (slice_bounds xs parts valid).2
  have length : (slice xs parts position).length =
      xs.size * (position + 1) / parts - xs.size * position / parts := by
    rw [slice, Array.length_toList, Array.size_extract, Nat.min_eq_left inside]
  rw [length, Nat.mul_succ, Nat.add_div several, Nat.add_assoc, Nat.add_sub_cancel_left]
  split
  · -- an element more than the average can only come from a remainder
    rename_i carried
    have less := Nat.mod_lt (xs.size * position) several
    exact .inr (div_rounded_up several (by omega)).symm
  · exact .inl rfl

/-- **The bounds of a part are never refused.** -/
theorem membersBetween_slice (indices : Array ValidatorIndex) {parts position : Nat}
    (valid : position < parts) :
    membersBetween indices (indices.size * position / parts)
      (indices.size * (position + 1) / parts) = .ok (slice indices parts position) :=
  if_pos (slice_bounds indices parts valid)

end Slices

/-! ## Active validators -/

namespace Chain

variable {preset : Preset} {chain : Chain preset}

/-- The registry has a validator at a position, and that validator has duties in an epoch. -/
def HasDuties (chain : Chain preset) (epoch : Epoch) (index : ValidatorIndex) : Prop :=
  ∃ validator, chain.validators[index]? = some validator ∧ validator.isActive epoch = true

theorem mem_activeIndices_iff {epoch : Epoch} {index : ValidatorIndex} :
    index ∈ chain.activeIndices epoch ↔ chain.HasDuties epoch index := by
  simp only [activeIndices, HasDuties, Array.mem_filterMap, Prod.exists]
  constructor
  · rintro ⟨validator, position, listed, kept⟩
    split at kept
    · rename_i active
      cases kept
      exact ⟨validator, Array.mk_mem_zipIdx_iff_getElem?.mp listed, active⟩
    · cases kept
  · rintro ⟨validator, listed, active⟩
    exact ⟨validator, index, Array.mk_mem_zipIdx_iff_getElem?.mpr listed, if_pos active⟩

theorem nodup_activeIndices (epoch : Epoch) : (chain.activeIndices epoch).toList.Nodup := by
  have positions : chain.validators.toList.zipIdx.Pairwise fun one other => one.2 ≠ other.2 := by
    rw [← List.pairwise_map (f := Prod.snd), List.zipIdx_map_snd]
    exact List.nodup_range'
  rw [activeIndices, Array.toList_filterMap, Array.toList_zipIdx]
  refine positions.filterMap _ ?_
  rintro ⟨validator, position⟩ ⟨validator', position'⟩ apart index kept index' kept'
  simp only [Option.ite_none_right_eq_some, Option.some.injEq] at kept kept'
  rw [← kept.2, ← kept'.2]
  exact apart

/-! ## Epochs around a slot -/

theorem epochOf_of_relativeEpoch {epoch : Epoch} {relative : RelativeEpoch}
    (near : chain.relativeEpoch epoch = .ok relative) : chain.epochOf relative = epoch := by
  have next := chain.toNat_nextEpoch
  have previous := chain.toNat_previousEpoch
  have distance : ∀ {count : UInt64}, epoch ≤ chain.nextEpoch →
      chain.nextEpoch - epoch = count → epoch.toNat + count.toNat = chain.nextEpoch.toNat := by
    rintro count le rfl
    rw [UInt64.toNat_sub_of_le _ _ le, Nat.add_sub_cancel' (UInt64.le_iff_toNat_le.mp le)]
  simp only [relativeEpoch] at near
  rw [← UInt64.toNat_inj]
  split at near
  · cases near
  · rename_i reached
    have le : epoch ≤ chain.nextEpoch := UInt64.not_lt.mp reached
    split at near
    · rename_i far
      cases near
      exact (distance le far).symm
    split at near
    · rename_i far
      cases near
      have := distance le far
      simp only [epochOf, UInt64.reduceToNat] at this ⊢
      omega
    split at near
    · rename_i far
      cases near
      have := distance le far
      simp only [epochOf, UInt64.reduceToNat] at this ⊢
      omega
    · cases near

theorem relativeEpoch_epochOf (chain : Chain preset) (relative : RelativeEpoch) :
    ∃ found, chain.relativeEpoch (chain.epochOf relative) = .ok found := by
  have next := chain.toNat_nextEpoch
  have previous := chain.toNat_previousEpoch
  have near : (chain.epochOf relative).toNat ≤ chain.nextEpoch.toNat ∧
      chain.nextEpoch.toNat - (chain.epochOf relative).toNat ≤ 2 := by
    cases relative <;> simp only [epochOf] <;> omega
  have reached : chain.epochOf relative ≤ chain.nextEpoch := UInt64.le_iff_toNat_le.mpr near.1
  simp only [relativeEpoch, if_neg (UInt64.not_lt.mpr reached)]
  split
  · exact ⟨_, rfl⟩
  split
  · exact ⟨_, rfl⟩
  split
  · exact ⟨_, rfl⟩
  · rename_i zero one two
    rw [← UInt64.toNat_inj, UInt64.toNat_sub_of_le _ _ reached] at zero one two
    simp only [UInt64.reduceToNat] at zero one two
    omega

/-! ## Lookups -/

/-- A shuffle is found if its seed is: no registry is so long that a shuffle refuses it. -/
theorem shuffledIndices_of_seed {epoch : Epoch} {seed : Root}
    (few : chain.validators.size < 2 ^ 40)
    (seeded : chain.seed epoch beaconAttesterDomain = .ok seed) :
    ∃ indices, chain.shuffledIndices epoch = .ok indices := by
  have short : (chain.activeIndices epoch).size ≤ 2 ^ 40 :=
    Nat.le_trans (chain.size_activeIndices_le epoch) (Nat.le_of_lt few)
  obtain ⟨indices, found, -⟩ :=
    Shuffle.shuffle_of_few Sha256.digest seed preset.shuffleRoundCount short
  refine ⟨indices, ?_⟩
  rw [shuffledIndices, seeded]
  exact found

/-- A shuffle is one of the active validators. -/
theorem shuffledIndices_perm {epoch : Epoch} {indices : Array ValidatorIndex}
    (shuffled : chain.shuffledIndices epoch = .ok indices) :
    indices.Perm (chain.activeIndices epoch) := by
  unfold shuffledIndices at shuffled
  cases seeded : chain.seed epoch beaconAttesterDomain with
  | error e =>
    rw [seeded] at shuffled
    cases shuffled
  | ok seed =>
    rw [seeded] at shuffled
    exact Shuffle.perm_of_shuffle _ _ preset.shuffleRoundCount_pos shuffled

theorem committeeCount_answers {relative : RelativeEpoch} {indices : Array ValidatorIndex}
    (shuffled : chain.shuffledIndices (chain.epochOf relative) = .ok indices) :
    chain.Answers (chain.committeeCount relative)
      (.ok (preset.committeesPerSlot indices.size)) := by
  have found : chain.Answers (chain.lookupShuffled relative) _ := lookupShuffled_answers relative
  rw [shuffled] at found
  exact found.bind_ok (answers_lift (.ok _))

end Chain

theorem Word.exists_checked {n : Nat} (fits : n < 2 ^ 64) :
    ∃ word, Word.checked n = .ok word ∧ word.toNat = n :=
  ⟨UInt64.ofNat n, if_pos fits, Word.toNat_ofNat fits⟩

namespace Preset

variable (preset : Preset)

/-- How many committees of its epoch come before the one at a place: a slot and an index. -/
def position (perSlot : Nat) (place : Slot × UInt64) : Nat :=
  (preset.slotsSinceStart place.1).toNat * perSlot + place.2.toNat

/-- The committee at a place, cut from the shuffle of its epoch. -/
def cutCommittee (indices : Array ValidatorIndex) (place : Slot × UInt64) : List ValidatorIndex :=
  slice indices (preset.committeesPerSlot indices.size * preset.slotsPerEpoch.toNat)
    (preset.position (preset.committeesPerSlot indices.size) place)

end Preset

namespace Chain

variable {preset : Preset} {chain : Chain preset}

/-- **A committee is a slice of the shuffle.** It is the one at the position of the committee within
its epoch, out of as many as the epoch has committees. -/
theorem committee_answers (few : chain.validators.size < 2 ^ 40) {slot : Slot} {index : UInt64}
    {relative : RelativeEpoch} {indices : Array ValidatorIndex}
    (near : chain.relativeEpoch (preset.epochAt slot) = .ok relative)
    (shuffled : chain.shuffledIndices (preset.epochAt slot) = .ok indices)
    (valid : index.toNat < preset.committeesPerSlot indices.size) :
    chain.Answers (chain.committee slot index)
      (.ok (preset.cutCommittee indices (slot, index))) := by
  unfold Preset.cutCommittee Preset.position
  have equal := epochOf_of_relativeEpoch near
  have looked : chain.Answers (chain.lookupShuffled relative) _ := lookupShuffled_answers relative
  rw [equal, shuffled] at looked
  have counted : chain.Answers (chain.committeeCount relative) _ :=
    committeeCount_answers (equal ▸ shuffled)
  have size : indices.size < 2 ^ 40 := by
    rw [(shuffledIndices_perm shuffled).size_eq]
    exact Nat.lt_of_le_of_lt (chain.size_activeIndices_le _) few
  obtain ⟨several, atMost⟩ := preset.committeesPerSlot_bounds indices.size
  generalize preset.committeesPerSlot indices.size = perSlot at *
  have most := preset.committeesPerEpoch_le atMost
  have nonzero := Nat.mul_pos several preset.slotsPerEpoch_pos
  have early := preset.committeePosition_lt slot valid
  have product : ∀ place : Nat, place ≤ 2048 → indices.size * place < 2 ^ 64 := fun place le =>
    Nat.lt_of_le_of_lt (Nat.mul_le_mul (Nat.le_of_lt size) le) (by decide)
  have divides : ∀ n : Nat, quotient n (perSlot * preset.slotsPerEpoch.toNat) =
      .ok (n / (perSlot * preset.slotsPerEpoch.toNat)) := fun n => if_neg (by omega)
  -- every number on the way is a word
  obtain ⟨perEpoch, fits₁, all⟩ :=
    Word.exists_checked (n := perSlot * preset.slotsPerEpoch.toNat) (by omega)
  obtain ⟨position, fits₂, place⟩ := Word.exists_checked
    (n := (preset.slotsSinceStart slot).toNat * perSlot + index.toNat) (by omega)
  obtain ⟨following, fits₃, next⟩ := Word.exists_checked (n := position.toNat + 1) (by omega)
  obtain ⟨start, fits₄, lower⟩ := Word.exists_checked (product position.toNat (by omega))
  obtain ⟨stop, fits₅, upper⟩ := Word.exists_checked (product following.toNat (by omega))
  rw [← all] at divides
  unfold committee
  refine (Answers.lift near).bind_ok (counted.bind_ok ?_)
  rw [if_pos valid]
  refine looked.bind_ok ?_
  refine (Answers.lift fits₁).bind_ok ((Answers.lift fits₂).bind_ok ?_)
  refine (Answers.lift fits₃).bind_ok ((Answers.lift fits₄).bind_ok ?_)
  refine (Answers.lift fits₅).bind_ok ((Answers.lift (divides _)).bind_ok ?_)
  refine (Answers.lift (divides _)).bind_ok ?_
  rw [lower, upper, next, place, all]
  -- the position is below the number of committees, so the slice lies within the shuffle
  exact Answers.lift (membersBetween_slice indices early)

/-- A committee that is found is a slice of the shuffle, however large the registry is. -/
theorem committee_eq_ok {slot : Slot} {index : UInt64} {members : List ValidatorIndex}
    {cache after : Cache} (coherent : cache.CoherentWith chain)
    (found : chain.committee slot index cache = .ok members after) :
    ∃ relative indices, chain.relativeEpoch (preset.epochAt slot) = .ok relative ∧
      chain.shuffledIndices (preset.epochAt slot) = .ok indices ∧
      index.toNat < preset.committeesPerSlot indices.size ∧
      members = preset.cutCommittee indices (slot, index) := by
  unfold committee at found
  obtain ⟨relative, near, rest⟩ := Step.lift_bind_eq_ok_iff.mp found
  have answers : chain.Answers (chain.lookupShuffled relative) _ := lookupShuffled_answers relative
  rw [epochOf_of_relativeEpoch near] at answers
  obtain ⟨perSlot, middle, counted, rest⟩ := Step.bind_eq_ok_iff.mp rest
  obtain ⟨indices, _, looked, counted⟩ := Step.bind_eq_ok_iff.mp counted
  obtain ⟨shuffled, coherent⟩ := answers.eq_ok coherent looked
  cases counted
  split at rest
  · rename_i valid
    obtain ⟨_, _, looked, rest⟩ := Step.bind_eq_ok_iff.mp rest
    cases shuffled.symm.trans (answers.eq_ok coherent looked).1
    -- what is computed in words is what the numbers are
    obtain ⟨perEpoch, all, rest⟩ := Step.lift_bind_eq_ok_iff.mp rest
    obtain ⟨position, place, rest⟩ := Step.lift_bind_eq_ok_iff.mp rest
    obtain ⟨following, next, rest⟩ := Step.lift_bind_eq_ok_iff.mp rest
    obtain ⟨lower, below, rest⟩ := Step.lift_bind_eq_ok_iff.mp rest
    obtain ⟨upper, above, rest⟩ := Step.lift_bind_eq_ok_iff.mp rest
    obtain ⟨start, first, rest⟩ := Step.lift_bind_eq_ok_iff.mp rest
    obtain ⟨stop, last, rest⟩ := Step.lift_bind_eq_ok_iff.mp rest
    rw [Word.checked_eq_ok_iff] at all place next below above
    obtain rfl := (quotient_gives ..).met_of_eq_ok first
    obtain rfl := (quotient_gives ..).met_of_eq_ok last
    obtain ⟨cut, -⟩ := Step.lift_eq_ok_iff.mp rest
    rw [← above, ← below, ← next, ← place, ← all] at cut
    rw [membersBetween_slice indices (preset.committeePosition_lt slot valid)] at cut
    cases cut
    exact ⟨relative, indices, near, shuffled, valid, rfl⟩
  · cases rest

theorem committee_answers_outOfBounds {slot : Slot} {index : UInt64} {relative : RelativeEpoch}
    {indices : Array ValidatorIndex}
    (near : chain.relativeEpoch (preset.epochAt slot) = .ok relative)
    (shuffled : chain.shuffledIndices (preset.epochAt slot) = .ok indices)
    (beyond : preset.committeesPerSlot indices.size ≤ index.toNat) :
    chain.Answers (chain.committee slot index) (.error .committeeIndexOutOfBounds) := by
  rw [← epochOf_of_relativeEpoch near] at shuffled
  unfold committee
  refine (Answers.lift near).bind_ok ((committeeCount_answers shuffled).bind_ok ?_)
  rw [if_neg (Nat.not_lt.mpr beyond)]
  exact answers_lift (.error _)

/-- There are no committees in the epochs that are not around the slot. -/
theorem committee_answers_error {slot : Slot} (index : UInt64)
    (far : ∀ relative, chain.epochOf relative ≠ preset.epochAt slot) :
    ∃ e, chain.Answers (chain.committee slot index) (.error e) := by
  cases near : chain.relativeEpoch (preset.epochAt slot) with
  | ok relative => exact absurd (epochOf_of_relativeEpoch near) (far relative)
  | error e => exact ⟨e, (Answers.lift near).bind_error⟩

end Chain

/-! ## The committees of an epoch -/

theorem flatMap_range_map_range (rows columns : Nat) :
    (List.range rows).flatMap (fun row => (List.range columns).map (row * columns + ·)) =
      List.range (rows * columns) := by
  induction rows with
  | zero => simp
  | succ rows ih =>
    rw [List.range_succ, List.flatMap_append, ih, List.flatMap_singleton, Nat.succ_mul,
      List.range_add]

namespace Preset

variable (preset : Preset) {epoch : Epoch} {slot : Slot} {perSlot : Nat}

/-- The slots of an epoch, in order. -/
def slotsOf (epoch : Epoch) : List Slot :=
  (List.range preset.slotsPerEpoch.toNat).map fun offset =>
    UInt64.ofNat (epoch.toNat * preset.slotsPerEpoch.toNat + offset)

/-- The slots of an epoch, each with the indices of its committees, in order. -/
def places (epoch : Epoch) (perSlot : Nat) : List (Slot × UInt64) :=
  (preset.slotsOf epoch).flatMap fun slot =>
    (List.range perSlot).map fun index => (slot, UInt64.ofNat index)

variable {preset}

theorem toNat_slot_of_lt {offset : Nat}
    (room : (epoch.toNat + 1) * preset.slotsPerEpoch.toNat ≤ 2 ^ 64)
    (inside : offset < preset.slotsPerEpoch.toNat) :
    (UInt64.ofNat (epoch.toNat * preset.slotsPerEpoch.toNat + offset)).toNat =
      epoch.toNat * preset.slotsPerEpoch.toNat + offset := by
  rw [Nat.succ_mul] at room
  exact Word.toNat_ofNat (by omega)

theorem mem_slotsOf_iff (room : (epoch.toNat + 1) * preset.slotsPerEpoch.toNat ≤ 2 ^ 64) :
    slot ∈ preset.slotsOf epoch ↔ preset.epochAt slot = epoch := by
  simp only [slotsOf, List.mem_map, List.mem_range, ← UInt64.toNat_inj, toNat_epochAt]
  constructor
  · rintro ⟨offset, inside, equal⟩
    rw [toNat_slot_of_lt room inside] at equal
    rw [← equal, Nat.mul_comm, Nat.mul_add_div preset.slotsPerEpoch_pos, Nat.div_eq_of_lt inside,
      Nat.add_zero]
  · intro equal
    have inside := Nat.mod_lt slot.toNat preset.slotsPerEpoch_pos
    refine ⟨slot.toNat % preset.slotsPerEpoch.toNat, inside, ?_⟩
    rw [toNat_slot_of_lt room inside, ← equal, Nat.mul_comm, Nat.div_add_mod]

/-- The places of an epoch are those of its slots, with as many indices as committees share one. -/
theorem mem_places_iff {index : UInt64} (few : perSlot ≤ 64) :
    (slot, index) ∈ preset.places epoch perSlot ↔
      slot ∈ preset.slotsOf epoch ∧ index.toNat < perSlot := by
  simp only [places, List.mem_flatMap, List.mem_map, List.mem_range, Prod.mk.injEq]
  constructor
  · rintro ⟨slot, listed, number, less, rfl, rfl⟩
    rw [Word.toNat_ofNat (by omega)]
    exact ⟨listed, less⟩
  · rintro ⟨listed, less⟩
    exact ⟨slot, listed, index.toNat, less, rfl, UInt64.ofNat_toNat⟩

/-- The committees of an epoch are numbered without gaps, in order. -/
theorem map_position_places (few : perSlot ≤ 64)
    (room : (epoch.toNat + 1) * preset.slotsPerEpoch.toNat ≤ 2 ^ 64) :
    (preset.places epoch perSlot).map (preset.position perSlot) =
      List.range (perSlot * preset.slotsPerEpoch.toNat) := by
  rw [places, slotsOf, List.flatMap_map, List.map_flatMap, Nat.mul_comm perSlot,
    ← flatMap_range_map_range]
  refine List.flatMap_congr fun offset listed => ?_
  have inside : offset < preset.slotsPerEpoch.toNat := List.mem_range.mp listed
  rw [List.map_map]
  refine List.map_congr_left fun index listed => ?_
  have less : index < perSlot := List.mem_range.mp listed
  simp only [Function.comp_apply, position]
  rw [toNat_slotsSinceStart, toNat_slot_of_lt room inside, Word.toNat_ofNat (by omega),
    Nat.mul_comm epoch.toNat, Nat.mul_add_mod, Nat.mod_eq_of_lt inside]

end Preset

namespace Chain

variable {preset : Preset} {chain : Chain preset}

/-- The committees of an epoch: how many there are in a slot, and who is in them. -/
structure Committees (chain : Chain preset) (epoch : RelativeEpoch) where
  /-- The active validators in the order from which committees are cut. -/
  indices : Array ValidatorIndex
  /-- The number of committees in a slot. -/
  perSlot : Nat
  /-- The members of the committee at a place. -/
  members : Slot × UInt64 → List ValidatorIndex
  shuffled : chain.shuffledIndices (chain.epochOf epoch) = .ok indices
  counted : chain.Answers (chain.committeeCount epoch) (.ok perSlot)
  found : ∀ slot index, preset.epochAt slot = chain.epochOf epoch → index.toNat < perSlot →
    chain.Answers (chain.committee slot index) (.ok (members (slot, index)))
  /-- No slot has further committees. -/
  bounded : ∀ slot index, preset.epochAt slot = chain.epochOf epoch → perSlot ≤ index.toNat →
    chain.Answers (chain.committee slot index) (.error .committeeIndexOutOfBounds)
  /-- One after another the committees are the shuffle. -/
  covering : (preset.places (chain.epochOf epoch) perSlot).flatMap members = indices.toList
  /-- A committee is as long as all others, up to one member. -/
  balanced : ∀ place ∈ preset.places (chain.epochOf epoch) perSlot,
    (members place).length = indices.size / (perSlot * preset.slotsPerEpoch.toNat) ∨
      (members place).length = (indices.size + perSlot * preset.slotsPerEpoch.toNat - 1) /
        (perSlot * preset.slotsPerEpoch.toNat)

namespace Committees

variable {epoch : RelativeEpoch}

theorem nodup_indices (committees : chain.Committees epoch) : committees.indices.toList.Nodup :=
  (shuffledIndices_perm committees.shuffled).toList.nodup_iff.mpr
    (chain.nodup_activeIndices _)

theorem mem_indices_iff (committees : chain.Committees epoch) {validator : ValidatorIndex} :
    validator ∈ committees.indices.toList ↔ chain.HasDuties (chain.epochOf epoch) validator := by
  rw [(shuffledIndices_perm committees.shuffled).toList.mem_iff, Array.mem_toList_iff,
    mem_activeIndices_iff]

/-- Only those with duties are in a committee. -/
theorem hasDuties_of_mem (committees : chain.Committees epoch) {place : Slot × UInt64}
    {validator : ValidatorIndex}
    (listed : place ∈ preset.places (chain.epochOf epoch) committees.perSlot)
    (member : validator ∈ committees.members place) :
    chain.HasDuties (chain.epochOf epoch) validator := by
  rw [← committees.mem_indices_iff, ← committees.covering]
  exact List.mem_flatMap.mpr ⟨place, listed, member⟩

/-- A shuffle lists nobody twice, so no two committees of an epoch share a member. -/
theorem existsUnique_place (committees : chain.Committees epoch) {validator : ValidatorIndex}
    (active : chain.HasDuties (chain.epochOf epoch) validator) :
    ∃! place, place ∈ preset.places (chain.epochOf epoch) committees.perSlot ∧
      validator ∈ committees.members place := by
  rw [← committees.mem_indices_iff, ← committees.covering] at active
  have once := committees.nodup_indices
  rw [← committees.covering, List.nodup_flatMap] at once
  obtain ⟨place, listed, member⟩ := List.mem_flatMap.mp active
  refine ⟨place, ⟨listed, member⟩, ?_⟩
  rintro other ⟨listed', member'⟩
  have : Std.Symm (Function.onFun List.Disjoint committees.members) :=
    ⟨fun _ _ => List.disjoint_symm⟩
  by_contra different
  exact once.2.forall listed' listed different member' member

/-- Every active validator is in exactly one committee, and nobody else is in any. -/
structure IsPartition (committees : chain.Committees epoch) : Prop where
  indices_perm : committees.indices.Perm (chain.activeIndices (chain.epochOf epoch))
  slots : ∀ slot, slot ∈ preset.slotsOf (chain.epochOf epoch) ↔
    preset.epochAt slot = chain.epochOf epoch
  existsUnique_place : ∀ validator, chain.HasDuties (chain.epochOf epoch) validator →
    ∃! place, place ∈ preset.places (chain.epochOf epoch) committees.perSlot ∧
      validator ∈ committees.members place
  hasDuties : ∀ place ∈ preset.places (chain.epochOf epoch) committees.perSlot,
    ∀ validator ∈ committees.members place, chain.HasDuties (chain.epochOf epoch) validator

end Committees

/-- Where there is a seed there are committees. -/
theorem exists_committees (few : chain.validators.size < 2 ^ 40) {epoch : RelativeEpoch}
    (room : ((chain.epochOf epoch).toNat + 1) * preset.slotsPerEpoch.toNat ≤ 2 ^ 64)
    {indices : Array ValidatorIndex}
    (shuffled : chain.shuffledIndices (chain.epochOf epoch) = .ok indices) :
    Nonempty (chain.Committees epoch) := by
  obtain ⟨several, atMost⟩ := preset.committeesPerSlot_bounds indices.size
  obtain ⟨relative, near⟩ := chain.relativeEpoch_epochOf epoch
  have numbered := preset.map_position_places atMost room
  generalize counted : preset.committeesPerSlot indices.size = perSlot at *
  have covering : (preset.places (chain.epochOf epoch) perSlot).flatMap (fun place =>
      slice indices (perSlot * preset.slotsPerEpoch.toNat) (preset.position perSlot place)) =
      indices.toList := by
    have whole := flatten_slices_all indices _ (Nat.mul_pos several preset.slotsPerEpoch_pos)
    rw [← numbered, List.map_map] at whole
    exact whole
  refine ⟨⟨indices, perSlot, _, shuffled, ?counted, ?found, ?bounded, covering, ?balanced⟩⟩
  case counted => exact counted ▸ committeeCount_answers shuffled
  case found =>
    intro slot index equal valid
    rw [← equal] at near shuffled
    subst counted
    exact committee_answers few near shuffled valid
  case bounded =>
    intro slot index equal beyond
    rw [← equal] at near shuffled
    subst counted
    exact committee_answers_outOfBounds near shuffled beyond
  case balanced =>
    intro place listed
    refine length_slice indices _ (List.mem_range.mp ?_)
    rw [← numbered]
    exact List.mem_map_of_mem listed

/-- **Committees partition the active validators.** Let a registry have fewer than `2 ^ 40`
validators, and let one of the epochs around the slot have a seed and no slot beyond the last word.
Then all its committees are found, from every coherent cache; one after another they are the shuffle
of the active validators, so that every active validator is in exactly one of them and nobody else
is in any; their lengths are the average, rounded down or up. A slot has no further committees, and
a slot outside of the epochs around has none at all. -/
theorem committees_partition (few : chain.validators.size < 2 ^ 40) (epoch : RelativeEpoch)
    (room : ((chain.epochOf epoch).toNat + 1) * preset.slotsPerEpoch.toNat ≤ 2 ^ 64)
    (seeded : ∃ seed, chain.seed (chain.epochOf epoch) beaconAttesterDomain = .ok seed) :
    (∃ committees : chain.Committees epoch, committees.IsPartition) ∧
      ∀ slot index, (∀ relative, chain.epochOf relative ≠ preset.epochAt slot) →
        ∃ e, chain.Answers (chain.committee slot index) (.error e) := by
  obtain ⟨seed, seeded⟩ := seeded
  obtain ⟨_, shuffled⟩ := shuffledIndices_of_seed few seeded
  obtain ⟨committees⟩ := exists_committees few room shuffled
  refine ⟨⟨committees, shuffledIndices_perm committees.shuffled, ?slots, ?once, ?only⟩, ?far⟩
  case slots => exact fun slot => Preset.mem_slotsOf_iff room
  case once => exact fun validator active => committees.existsUnique_place active
  case only => exact fun place listed validator member => committees.hasDuties_of_mem listed member
  case far => exact fun slot index far => committee_answers_error index far

/-- A chain in its second epoch with five validators, the last of which has left. -/
def fiveValidators : Chain .minimal := { Chain.empty .minimal with
  slot := 11
  validators :=
    let staying : Validator := ⟨32000000000, false, 0, 0, farFutureEpoch, farFutureEpoch⟩
    #[staying, staying, staying, staying, { staying with exitEpoch := 1 }] }

theorem committees_partition_fiveValidators :
    (∃ committees : fiveValidators.Committees .current, committees.IsPartition) ∧
      ∀ slot index, (∀ relative, fiveValidators.epochOf relative ≠ Preset.minimal.epochAt slot) →
        ∃ e, fiveValidators.Answers (fiveValidators.committee slot index) (.error e) :=
  committees_partition (by decide) .current (by decide) ⟨_, rfl⟩

end Chain

end BeaconEpoch
