import BeaconEpoch.Chain
import Mathlib.Logic.ExistsUnique

/-!
# Histories

The roots of blocks are kept in a circle. A lookup finds a root exactly if its slot is one of those
that the circle reaches back to, and no two of these share a position.

## Main definitions

* `Chain.Reaches`: the slots that a history reaches.
* `Chain.ReadsAt`: the position of the history that a lookup depends on.

## Main statements

* `Chain.blockRootAtSlot_eq`: a lookup by the slots that are reached.
* `Chain.readsAt_iff`: the only position that a lookup reads.
* `Chain.Reaches.eq_of_mod_eq`, `Chain.exists_reaches`: slots that are reached and positions.
* `Chain.blockRoot_found_iff`: the roots of epochs.
* `Chain.history_exact`: all of it.

## Design notes

* **Slots are compared as natural numbers.** A sum that would leave its word is cut off at the
  largest one, and no slot is later than that; so the window ends where it would without limits.
* **A position is read if it is all that matters.** What is said of positions holds for any roots
  in the history, not only for those that happen to be there.
-/

namespace BeaconEpoch

namespace Preset

theorem slotsPerHistoricalRoot_pos (preset : Preset) : 0 < preset.slotsPerHistoricalRoot.toNat := by
  cases preset <;> decide

/-- A history holds the roots of far more slots than there are in two epochs. -/
theorem two_epochs_le (preset : Preset) :
    2 * preset.slotsPerEpoch.toNat ≤ preset.slotsPerHistoricalRoot.toNat := by
  cases preset <;> decide

end Preset

namespace Chain

variable {preset : Preset} (chain : Chain preset)

/-- A history reaches the slots before that of its chain, as far back as it is long. -/
def Reaches (slot : Slot) : Prop :=
  slot.toNat < chain.slot.toNat ∧
    chain.slot.toNat ≤ slot.toNat + preset.slotsPerHistoricalRoot.toNat

instance (slot : Slot) : Decidable (chain.Reaches slot) := inferInstanceAs (Decidable (_ ∧ _))

/-- The chain with other roots in its history. -/
def withBlockRoots (roots : Array Root) : Chain preset := { chain with blockRoots := roots }

/-- A lookup reads a position if it finds what is there, whatever roots are kept. -/
def ReadsAt (slot : Slot) (position : Nat) : Prop :=
  ∀ roots : Array Root, roots.size = chain.blockRoots.size →
    ∃ root, roots[position]? = some root ∧
      (chain.withBlockRoots roots).blockRootAtSlot slot = .ok root

variable {chain} {slot other : Slot} {position : Nat}

/-! ## The window -/

/-- The window of a lookup is the one that is meant, up to the last slot of all. -/
theorem reaches_iff :
    chain.Reaches slot ↔
      slot < chain.slot ∧ chain.slot ≤ Word.addSat slot preset.slotsPerHistoricalRoot := by
  have last := chain.slot.toNat_lt
  rw [UInt64.lt_iff_toNat_lt, UInt64.le_iff_toNat_le, Word.toNat_addSat, Reaches]
  omega

/-- A lookup finds the root at the position of its slot, if it reaches the slot and there is such a
position. -/
theorem blockRootAtSlot_eq {root : Root} (reaches : chain.Reaches slot)
    (kept : chain.blockRoots[slot.toNat % preset.slotsPerHistoricalRoot.toNat]? = some root) :
    chain.blockRootAtSlot slot = .ok root := by
  unfold blockRootAtSlot
  rw [if_pos (reaches_iff.mp reaches), UInt64.toNat_mod, kept]

/-- A slot that is not reached is the fault. -/
theorem blockRootAtSlot_of_not_reaches (beyond : ¬chain.Reaches slot) :
    chain.blockRootAtSlot slot = .error (.slotOutOfRange slot) :=
  if_neg (mt reaches_iff.mpr beyond)

/-- Two slots that are reached and share a position are the same. -/
theorem Reaches.eq_of_mod_eq (reaches : chain.Reaches slot) (reaches' : chain.Reaches other)
    (same : slot.toNat % preset.slotsPerHistoricalRoot.toNat =
      other.toNat % preset.slotsPerHistoricalRoot.toNat) : slot = other := by
  obtain ⟨before, recent⟩ := reaches
  obtain ⟨before', recent'⟩ := reaches'
  rw [← UInt64.toNat_inj]
  -- The length of a history is a literal number for every preset.
  cases preset
  all_goals
    simp only [Preset.slotsPerHistoricalRoot, Preset.epochsPerHistoricalRoot, Preset.slotsPerEpoch,
      UInt64.reduceMul, UInt64.reduceToNat] at recent recent' same
    omega

/-- Every position is that of a slot that is reached, once the first slots are as far back as the
history is long. -/
theorem exists_reaches (full : preset.slotsPerHistoricalRoot ≤ chain.slot)
    (inside : position < preset.slotsPerHistoricalRoot.toNat) :
    ∃ slot, chain.Reaches slot ∧ slot.toNat % preset.slotsPerHistoricalRoot.toNat = position := by
  rw [UInt64.le_iff_toNat_le] at full
  let length := preset.slotsPerHistoricalRoot.toNat
  -- The last slot before that of the chain which lies whole turns after the position.
  let turns := (chain.slot.toNat - 1 - position) / length
  have last := chain.slot.toNat_lt
  have turned : length * turns ≤ chain.slot.toNat - 1 - position := Nat.mul_div_le ..
  have latest : chain.slot.toNat - 1 - position < length * turns + length :=
    Nat.lt_mul_div_succ _ preset.slotsPerHistoricalRoot_pos
  have small : position + length * turns < 2 ^ 64 := by omega
  refine ⟨UInt64.ofNat (position + length * turns), ⟨?_, ?_⟩, ?_⟩
  · rw [Word.toNat_ofNat small]
    omega
  · rw [Word.toNat_ofNat small]
    omega
  · rw [Word.toNat_ofNat small, Nat.add_mul_mod_self_left, Nat.mod_eq_of_lt inside]

/-! ## Full histories -/

section Full

variable (full : chain.blockRoots.size = preset.slotsPerHistoricalRoot.toNat)

include full

/-- In a history of full length every slot has a position. -/
theorem exists_kept (slot : Slot) :
    ∃ root, chain.blockRoots[slot.toNat % preset.slotsPerHistoricalRoot.toNat]? = some root := by
  have inside : slot.toNat % preset.slotsPerHistoricalRoot.toNat < chain.blockRoots.size := by
    rw [full]
    exact Nat.mod_lt _ preset.slotsPerHistoricalRoot_pos
  exact ⟨_, Array.getElem?_eq_getElem inside⟩

/-- **A root is found exactly if its slot is reached.** -/
theorem blockRootAtSlot_found_iff :
    (∃ root, chain.blockRootAtSlot slot = .ok root) ↔ chain.Reaches slot := by
  by_cases reaches : chain.Reaches slot
  · obtain ⟨root, kept⟩ := exists_kept full slot
    exact iff_of_true ⟨root, blockRootAtSlot_eq reaches kept⟩ reaches
  · rw [blockRootAtSlot_of_not_reaches reaches]
    exact iff_of_false nofun reaches

/-- A slot that is reached has its root read at its position, whatever roots are kept. -/
theorem Reaches.readsAt (reaches : chain.Reaches slot) :
    chain.ReadsAt slot (slot.toNat % preset.slotsPerHistoricalRoot.toNat) := by
  intro roots size
  have full' : (chain.withBlockRoots roots).blockRoots.size =
      preset.slotsPerHistoricalRoot.toNat := size.trans full
  obtain ⟨root, kept⟩ := exists_kept full' slot
  have reaches' : (chain.withBlockRoots roots).Reaches slot := reaches
  exact ⟨root, kept, blockRootAtSlot_eq reaches' kept⟩

/-- **A lookup reads one position,** that of its slot, exactly if it reaches the slot. -/
theorem readsAt_iff :
    chain.ReadsAt slot position ↔
      chain.Reaches slot ∧ position = slot.toNat % preset.slotsPerHistoricalRoot.toNat := by
  constructor
  · intro reads
    obtain ⟨root, -, found⟩ := reads chain.blockRoots rfl
    have reaches := (blockRootAtSlot_found_iff full).mp ⟨root, found⟩
    refine ⟨reaches, ?_⟩
    -- A root that stands out in the history shows where it is read.
    let roots := (Array.replicate chain.blockRoots.size Root.zero).setIfInBounds position
      (Root.ofByte 1)
    have size : roots.size = chain.blockRoots.size := by simp [roots]
    obtain ⟨marked, there, read⟩ := reads roots size
    obtain ⟨marked', there', read'⟩ := reaches.readsAt full roots size
    obtain rfl : marked = marked' := Except.ok.inj (read.symm.trans read')
    have own : marked = Root.ofByte 1 := by
      simp only [roots, Array.getElem?_setIfInBounds_self] at there
      split at there <;> simp_all
    refine Decidable.byContradiction fun elsewhere => ?_
    simp only [roots, Array.getElem?_setIfInBounds_ne elsewhere] at there'
    have blank := Array.eq_of_mem_replicate (Array.mem_of_getElem? there')
    exact absurd (own.symm.trans blank) (by decide)
  · rintro ⟨reaches, rfl⟩
    exact reaches.readsAt full

/-- **Roots of epochs.** The first slot of the previous epoch is reached unless the chain is at the
first slot of all, that of the current epoch unless the chain is there. -/
theorem blockRoot_found_iff (epoch : AttestationEpoch) :
    (∃ root, chain.blockRoot epoch = .ok root) ↔
      match epoch with
      | .previous => chain.slot ≠ genesisSlot
      | .current => preset.isEpochStart chain.slot = false := by
  have position := chain.slot.toNat_lt
  have long := preset.two_epochs_le
  have started := Nat.div_add_mod chain.slot.toNat preset.slotsPerEpoch.toNat
  have since := Nat.mod_lt chain.slot.toNat preset.slotsPerEpoch_pos
  rw [Nat.mul_comm, ← chain.toNat_currentEpoch] at started
  unfold blockRoot
  rw [blockRootAtSlot_found_iff full, Reaches, Preset.toNat_startSlot]
  cases epoch with
  | previous =>
    simp only [AttestationEpoch.toRelative, epochOf]
    rw [toNat_previousEpoch, Nat.sub_mul, ne_eq, ← UInt64.toNat_inj, genesisSlot,
      UInt64.toNat_zero]
    omega
  | current =>
    simp only [AttestationEpoch.toRelative, epochOf]
    rw [Bool.eq_false_iff, ne_eq, Preset.isEpochStart_iff]
    omega

end Full

/-- **Histories are exact.** In a history of full length, a root is found exactly if its slot is
before that of the chain, by no more than the length of the history; sums do not wrap around, nor
are they cut off. A lookup that succeeds reads exactly one position, whatever roots are kept, no two
lookups of different slots read the same one, and once there are as many slots as positions, each of
them is read. Hence the root of the previous epoch is found exactly if there is a slot before that
of the chain, and that of the current epoch exactly if the chain is not at its first slot. -/
theorem history_exact (chain : Chain preset)
    (full : chain.blockRoots.size = preset.slotsPerHistoricalRoot.toNat) :
    (∀ slot, (∃ root, chain.blockRootAtSlot slot = .ok root) ↔
      slot.toNat < chain.slot.toNat ∧
        chain.slot.toNat ≤ slot.toNat + preset.slotsPerHistoricalRoot.toNat) ∧
    (∀ slot root, chain.blockRootAtSlot slot = .ok root →
      ∃! position, chain.ReadsAt slot position) ∧
    (∀ slot other position, chain.ReadsAt slot position → chain.ReadsAt other position →
      slot = other) ∧
    (preset.slotsPerHistoricalRoot ≤ chain.slot →
      ∀ position < chain.blockRoots.size, ∃ slot, chain.ReadsAt slot position) ∧
    ((∃ root, chain.blockRoot .previous = .ok root) ↔ genesisSlot < chain.slot) ∧
    ((∃ root, chain.blockRoot .current = .ok root) ↔ preset.isEpochStart chain.slot = false) := by
  refine ⟨fun slot => blockRootAtSlot_found_iff full, fun slot root found => ?_,
    fun slot other position reads reads' => ?_, fun late position inside => ?_, ?_,
    blockRoot_found_iff full .current⟩
  · have reaches := (blockRootAtSlot_found_iff full).mp ⟨root, found⟩
    exact ⟨_, reaches.readsAt full, fun position reads => ((readsAt_iff full).mp reads).2⟩
  · obtain ⟨reaches, rfl⟩ := (readsAt_iff full).mp reads
    obtain ⟨reaches', same⟩ := (readsAt_iff full).mp reads'
    exact reaches.eq_of_mod_eq reaches' same
  · obtain ⟨slot, reaches, rfl⟩ := exists_reaches late (full ▸ inside)
    exact ⟨slot, reaches.readsAt full⟩
  · rw [blockRoot_found_iff full .previous, UInt64.lt_iff_toNat_lt, ne_eq, ← UInt64.toNat_inj,
      genesisSlot, UInt64.toNat_zero]
    omega

/-- A chain without validators at the last slot of all. -/
def atLastSlot : Chain .minimal := { empty .minimal with slot := farFutureSlot }

/-- The slots that can still be looked up end with the last but one, and the sum of the earliest of
them and the length of the history is the last slot. -/
theorem history_exact_atLastSlot :
    atLastSlot.blockRoots.size = Preset.minimal.slotsPerHistoricalRoot.toNat ∧
      ¬(∃ root, atLastSlot.blockRootAtSlot farFutureSlot = .ok root) ∧
      (∃ root, atLastSlot.blockRootAtSlot (farFutureSlot - 1) = .ok root) ∧
      (∃ root, atLastSlot.blockRootAtSlot (farFutureSlot - 64) = .ok root) ∧
      ¬(∃ root, atLastSlot.blockRootAtSlot (farFutureSlot - 65) = .ok root) ∧
      (∃ slot, atLastSlot.ReadsAt slot 63) ∧
      (∃ root, atLastSlot.blockRoot .previous = .ok root) ∧
      (∃ root, atLastSlot.blockRoot .current = .ok root) := by
  have full : atLastSlot.blockRoots.size = Preset.minimal.slotsPerHistoricalRoot.toNat := by decide
  obtain ⟨found, -, -, covered, previous, current⟩ := history_exact atLastSlot full
  exact ⟨full, mt (found _).mp (by decide), (found _).mpr (by decide), (found _).mpr (by decide),
    mt (found _).mp (by decide), covered (by decide) 63 (by decide), previous.mpr (by decide),
    current.mpr (by decide)⟩

end Chain

end BeaconEpoch
