import BeaconEpoch.Proofs.Committee
import BeaconEpoch.Proofs.History

/-!
# Lookups that are found

On a chain with histories of full length, an attestation of a committee of the current or the
previous epoch finds the roots that it is held against and the committee that it comes from.

## Main definitions

* `Error.IsOutgrown`: the errors that no care with attestations prevents.
* `Chain.WellFormed`: histories of full length and one balance per validator.
* `PendingAttestation.Fits`: an attestation of a committee of one of the last two epochs.
* `Chain.Seats`: the committee of an attestation, with a bit for each member.

## Main statements

* `Chain.attestingIndices_eq_ok_iff`: voters are found if and only if there is a bit for each
  member of the committee.
* `Chain.shuffledIndices_found`, `Chain.blockRootAtSlot_found`: seeds and roots.
* `PendingAttestation.Fits.isBlockRoot_found`, `PendingAttestation.Fits.isBlockRootAtSlot_found`,
  `PendingAttestation.Fits.seats`: what is looked up for an attestation.
* `PendingAttestation.Fits.later`: an attestation that fits does so as long as its epoch is one of
  the last two.

## Design notes

* **Both epochs at once.** The first epoch is its own predecessor, so an attestation may fit for two
  reasons. Nothing here depends on which of them is taken.
-/

namespace BeaconEpoch

/-- A balance or an inactivity score has outgrown its word. -/
def Error.IsOutgrown (e : Error) : Prop := e = .balanceOverflow ∨ ∃ index, e = .scoreOverflow index

/-- A bounded chain with one balance per validator and with histories of full length. -/
structure Chain.WellFormed {preset : Preset} (chain : Chain preset) : Prop
    extends Chain.Bounded chain where
  balances : chain.balances.size = chain.validators.size
  blockRoots : chain.blockRoots.size = preset.slotsPerHistoricalRoot.toNat
  randaoMixes : chain.randaoMixes.size = preset.epochsPerHistoricalVector.toNat

/-- An attestation is one of a committee of an epoch, for that epoch, and was included later by a
validator of the registry, but not later than now. -/
structure PendingAttestation.Fits {preset : Preset} (attestation : PendingAttestation)
    (chain : Chain preset) (epoch : AttestationEpoch) : Prop where
  delayed : attestation.inclusionDelay ≠ 0
  included : attestation.data.slot.toNat + attestation.inclusionDelay.toNat ≤ chain.slot.toNat
  proposer : attestation.proposerIndex.toNat < chain.validators.size
  slot : preset.epochAt attestation.data.slot = chain.epochOf epoch.toRelative
  target : attestation.data.target.epoch = chain.epochOf epoch.toRelative
  index : attestation.data.index.toNat <
    preset.committeesPerSlot (chain.activeIndices (chain.epochOf epoch.toRelative)).size
  bits : ∀ members,
    chain.Answers (chain.committee attestation.data.slot attestation.data.index) (.ok members) →
      members.length = attestation.aggregationBits.length

/-! ## Members and voters -/

theorem mem_of_mem_slice {α : Type} {xs : Array α} {parts position : Nat} {a : α}
    (mem : a ∈ slice xs parts position) : a ∈ xs := by
  rw [slice, Array.toList_extract] at mem
  exact Array.mem_toList_iff.mp (List.mem_of_mem_drop (List.mem_of_mem_take mem))

theorem mem_voters_iff {bits : List Bool} {members : List ValidatorIndex}
    {validator : ValidatorIndex} :
    validator ∈ voters bits members ↔
      ∃ position : Nat, members[position]? = some validator ∧ bits[position]? = some true := by
  simp only [voters, List.mem_filterMap, Option.ite_none_right_eq_some, Option.some.injEq]
  constructor
  · rintro ⟨⟨present, index⟩, listed, rfl, rfl⟩
    obtain ⟨position, found⟩ := List.mem_iff_getElem?.mp listed
    obtain ⟨bit, member⟩ := List.getElem?_zip_eq_some.mp found
    exact ⟨position, member, bit⟩
  · rintro ⟨position, member, bit⟩
    have found : (bits.zip members)[position]? = some (true, validator) :=
      List.getElem?_zip_eq_some.mpr ⟨bit, member⟩
    exact ⟨_, List.mem_of_getElem? found, rfl, rfl⟩

namespace Chain

variable {preset : Preset} {chain other : Chain preset}

theorem HasDuties.lt {epoch : Epoch} {index : ValidatorIndex}
    (active : chain.HasDuties epoch index) : index < chain.validators.size := by
  obtain ⟨validator, listed, -⟩ := active
  exact (Array.getElem?_eq_some_iff.mp listed).1

theorem Answers.unique {α : Type} {question : Lookup α} {a b : α}
    (first : chain.Answers question (.ok a)) (second : chain.Answers question (.ok b)) :
    a = b := by
  obtain ⟨after, -, ran⟩ := first Cache.empty (.empty chain)
  obtain ⟨after', -, ran'⟩ := second Cache.empty (.empty chain)
  have same := ran.symm.trans ran'
  cases same
  rfl

/-! ### Seats -/

/-- Some validators are the committee of an attestation, which has a bit for each of them. -/
structure Seats (chain : Chain preset) (attestation : PendingAttestation)
    (members : List ValidatorIndex) : Prop where
  answers : chain.Answers (chain.committee attestation.data.slot attestation.data.index)
    (.ok members)
  lengths : members.length = attestation.aggregationBits.length

section Seats

variable {attestation : PendingAttestation} {members : List ValidatorIndex} {cache : Cache}

theorem Seats.attestingIndices (seats : chain.Seats attestation members) :
    chain.Answers (chain.attestingIndices attestation.data attestation.aggregationBits)
      (.ok (voters attestation.aggregationBits members)) := by
  refine seats.answers.bind_ok ?_
  rw [if_pos seats.lengths]
  exact answers_lift (.ok _)

/-- Voters are found if the committee is and has the right length, and then they are its members
whose bits are set. -/
theorem attestingIndices_eq_ok_iff {found : List ValidatorIndex}
    (coherent : cache.CoherentWith chain) :
    (∃ after, chain.attestingIndices attestation.data attestation.aggregationBits cache =
        .ok found after) ↔
      ∃ members, chain.Seats attestation members ∧
        found = voters attestation.aggregationBits members := by
  constructor
  · rintro ⟨after, ran⟩
    obtain ⟨members, _, looked, rest⟩ := Step.bind_eq_ok_iff.mp ran
    have answers := (committee_hasAnswer ..).answers_of_ok coherent looked
    split at rest
    · rename_i lengths
      cases rest
      exact ⟨members, ⟨answers, lengths⟩, rfl⟩
    · cases rest
  · rintro ⟨members, seats, rfl⟩
    obtain ⟨after, -, ran⟩ := seats.attestingIndices cache coherent
    exact ⟨after, ran⟩

/-- The members of a committee have duties in the epoch of its slot. -/
theorem Seats.hasDuties (seats : chain.Seats attestation members) {member : ValidatorIndex}
    (mem : member ∈ members) :
    chain.HasDuties (preset.epochAt attestation.data.slot) member := by
  obtain ⟨_, -, found⟩ := seats.answers Cache.empty (.empty chain)
  obtain ⟨-, indices, -, shuffled, -, rfl⟩ := committee_eq_ok (.empty chain) found
  rw [← mem_activeIndices_iff, ← (shuffledIndices_perm shuffled).mem_iff]
  exact mem_of_mem_slice mem

/-- Voters are registered. -/
theorem Seats.registered (seats : chain.Seats attestation members) {voter : ValidatorIndex}
    (mem : voter ∈ voters attestation.aggregationBits members) :
    voter < chain.validators.size := by
  obtain ⟨_, member, -⟩ := mem_voters_iff.mp mem
  exact (seats.hasDuties (List.mem_of_getElem? member)).lt

end Seats

/-! ## Seeds -/

theorem randaoMix_found {allowed : Error → Prop} (wellFormed : chain.WellFormed) (epoch : Epoch) :
    Sound allowed (fun _ => True) (chain.randaoMix epoch) := by
  have inside : (epoch % preset.epochsPerHistoricalVector).toNat < chain.randaoMixes.size := by
    rw [wellFormed.randaoMixes, UInt64.toNat_mod]
    exact Nat.mod_lt _ (by cases preset <;> decide)
  unfold randaoMix
  rw [Array.getElem?_eq_getElem inside]
  trivial

/-- The registry is small enough for committees to be cut from it. -/
theorem WellFormed.few (wellFormed : chain.WellFormed) : chain.validators.size < 2 ^ 40 :=
  Nat.lt_of_lt_of_le wellFormed.validators (by decide)

theorem shuffledIndices_found (wellFormed : chain.WellFormed) (epoch : RelativeEpoch) :
    ∃ indices, chain.shuffledIndices (chain.epochOf epoch) = .ok indices := by
  obtain ⟨seed, found, -⟩ : ∃ seed, chain.seed (chain.epochOf epoch) beaconAttesterDomain =
      .ok seed ∧ True :=
    (seed_sound (randaoMix_found wellFormed) (toNat_epochOf_le epoch) _).found
  exact shuffledIndices_of_seed wellFormed.few found

/-- A committee of one of the epochs around the slot is a slice of the shuffle of that epoch. -/
theorem committee_of_epochOf (few : chain.validators.size < 2 ^ 40) {slot : Slot} {index : UInt64}
    {epoch : RelativeEpoch} {indices : Array ValidatorIndex}
    (inside : preset.epochAt slot = chain.epochOf epoch)
    (shuffled : chain.shuffledIndices (chain.epochOf epoch) = .ok indices)
    (valid : index.toNat <
      preset.committeesPerSlot (chain.activeIndices (chain.epochOf epoch)).size) :
    chain.Answers (chain.committee slot index)
      (.ok (preset.cutCommittee indices (slot, index))) := by
  obtain ⟨relative, near⟩ := chain.relativeEpoch_epochOf epoch
  rw [← (shuffledIndices_perm shuffled).size_eq] at valid
  rw [← inside] at shuffled near
  exact committee_answers few near shuffled valid

/-! ## Roots -/

/-- A slot of the last two epochs has a root. -/
theorem blockRootAtSlot_found {allowed : Error → Prop} (wellFormed : chain.WellFormed)
    {slot : Slot} (before : slot < chain.slot)
    (recent : chain.slot.toNat ≤ slot.toNat + 2 * preset.slotsPerEpoch.toNat) :
    Sound allowed (fun _ => True) (chain.blockRootAtSlot slot) := by
  have long := preset.two_epochs_le
  have reaches : chain.Reaches slot := ⟨UInt64.lt_iff_toNat_lt.mp before, by omega⟩
  obtain ⟨root, found⟩ := (blockRootAtSlot_found_iff wellFormed.blockRoots).mpr reaches
  rw [found]
  trivial

end Chain

namespace PendingAttestation.Fits

variable {preset : Preset} {chain other : Chain preset} {attestation : PendingAttestation}
  {epoch : AttestationEpoch}

/-! ## Attestations that fit -/

/-- The epoch of the slot is that of the vote or the one after it. -/
theorem epoch_bounds (chain : Chain preset) (epoch : AttestationEpoch) :
    (chain.epochOf epoch.toRelative).toNat ≤ chain.currentEpoch.toNat ∧
      chain.currentEpoch.toNat ≤ (chain.epochOf epoch.toRelative).toNat + 1 := by
  have previous := chain.toNat_previousEpoch
  cases epoch with
  | previous =>
    simp only [AttestationEpoch.toRelative, Chain.epochOf]
    omega
  | current =>
    simp only [AttestationEpoch.toRelative, Chain.epochOf]
    omega

theorem slot_lt (fits : attestation.Fits chain epoch) : attestation.data.slot < chain.slot := by
  have included := fits.included
  have delayed : attestation.inclusionDelay.toNat ≠ 0 := fun zero =>
    fits.delayed (UInt64.toNat_inj.mp zero)
  rw [UInt64.lt_iff_toNat_lt]
  omega

/-- The first slot of the epoch of a vote is at most two epochs ago, and so is the slot of the
vote. -/
theorem slot_bounds (fits : attestation.Fits chain epoch) :
    (preset.startSlot (chain.epochOf epoch.toRelative)).toNat ≤ attestation.data.slot.toNat ∧
      chain.slot.toNat ≤ (preset.startSlot (chain.epochOf epoch.toRelative)).toNat +
        2 * preset.slotsPerEpoch.toNat := by
  have near := (epoch_bounds chain epoch).2
  have voted := congrArg UInt64.toNat fits.slot
  rw [Preset.toNat_epochAt] at voted
  rw [Chain.toNat_currentEpoch, ← voted] at near
  rw [Preset.toNat_startSlot, ← voted]
  have last := attestation.data.slot.toNat_lt
  rcases preset.slotsPerEpoch_cases with length | length <;> rw [length] at near ⊢ <;> omega

theorem isBlockRoot_found {allowed : Error → Prop} (wellFormed : chain.WellFormed)
    (fits : attestation.Fits chain epoch) (root : Root) :
    Sound allowed (fun _ => True) (chain.isBlockRoot epoch root) := by
  obtain ⟨start, recent⟩ := fits.slot_bounds
  have before : preset.startSlot (chain.epochOf epoch.toRelative) < chain.slot :=
    UInt64.lt_of_le_of_lt (UInt64.le_iff_toNat_le.mpr start) fits.slot_lt
  exact (Chain.blockRootAtSlot_found wellFormed before recent).bind fun _ _ => .pure trivial

theorem isBlockRootAtSlot_found {allowed : Error → Prop} (wellFormed : chain.WellFormed)
    (fits : attestation.Fits chain epoch) (root : Root) :
    Sound allowed (fun _ => True) (chain.isBlockRootAtSlot attestation.data.slot root) := by
  obtain ⟨start, recent⟩ := fits.slot_bounds
  have recent : chain.slot.toNat ≤
      attestation.data.slot.toNat + 2 * preset.slotsPerEpoch.toNat := by omega
  exact (Chain.blockRootAtSlot_found wellFormed fits.slot_lt recent).bind fun _ _ => .pure trivial

/-! ### Voters -/

/-- The committee of an attestation is found: a slice of the shuffle of its epoch. -/
theorem committee_answers (wellFormed : chain.WellFormed) (fits : attestation.Fits chain epoch) :
    ∃ indices, chain.shuffledIndices (chain.epochOf epoch.toRelative) = .ok indices ∧
      chain.Answers (chain.committee attestation.data.slot attestation.data.index)
        (.ok (preset.cutCommittee indices (attestation.data.slot, attestation.data.index))) := by
  obtain ⟨indices, shuffled⟩ := Chain.shuffledIndices_found wellFormed epoch.toRelative
  exact ⟨indices, shuffled, Chain.committee_of_epochOf wellFormed.few fits.slot shuffled fits.index⟩

theorem seats (wellFormed : chain.WellFormed) (fits : attestation.Fits chain epoch) :
    ∃ members, chain.Seats attestation members := by
  obtain ⟨indices, -, found⟩ := fits.committee_answers wellFormed
  exact ⟨_, found, fits.bits _ found⟩

/-! ### Later slots -/

/-- An attestation still fits at a later slot, for an epoch that is the same one then. -/
theorem later (wellFormed : chain.WellFormed) (validators : other.validators = chain.validators)
    (randaoMixes : other.randaoMixes = chain.randaoMixes) (order : chain.slot ≤ other.slot)
    {epoch' : AttestationEpoch}
    (same : other.epochOf epoch'.toRelative = chain.epochOf epoch.toRelative)
    (fits : attestation.Fits chain epoch) : attestation.Fits other epoch' := by
  have active : other.activeIndices (other.epochOf epoch'.toRelative) =
      chain.activeIndices (chain.epochOf epoch.toRelative) := by
    rw [same, Chain.activeIndices, Chain.activeIndices, validators]
  have slot := fits.slot.trans same.symm
  have index := active ▸ fits.index
  refine ⟨fits.delayed, ?included, validators ▸ fits.proposer, slot, fits.target.trans same.symm,
    index, ?bits⟩
  case included => exact Nat.le_trans fits.included (UInt64.le_iff_toNat_le.mp order)
  case bits =>
    -- both chains cut the committee from the same shuffle
    intro members found
    obtain ⟨indices, shuffled, cut⟩ := fits.committee_answers wellFormed
    rw [← same, ← Chain.shuffledIndices_congr validators randaoMixes] at shuffled
    rw [found.unique (Chain.committee_of_epochOf (validators ▸ wellFormed.few) slot shuffled index)]
    exact fits.bits _ cut

end PendingAttestation.Fits

end BeaconEpoch
