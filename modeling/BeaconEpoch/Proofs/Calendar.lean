import BeaconEpoch.Proofs.Schedule

/-!
# Calendars

A schedule of forks is read by slot where a state moves and by epoch elsewhere. The two readings
agree up to the last slot of all.

## Main definitions

* `Config.Orderly`: both readings go forward in time, and a phase is reached exactly if it has a
  first slot that is not ahead.

## Main statements

* `Config.phaseAtSlot_eq_phaseAtEpoch`, `Config.phaseAtEpoch_eq_phaseAtSlot`: one reading from the
  other.
* `Config.isEpochStart_of_forkSlot?`: forks happen where epochs start.
* `Config.calendars_agree`: all of it, and what a schedule in order adds.

## Design notes

* **Phase 0 is listed once.** The reading by slot goes through all phases, the one by epoch leaves
  out the first of them, which has always started.
* **A fork without a first slot is ahead of every slot.** Its epoch is one that no slot reaches, so
  both readings stop there for the same reason.
-/

namespace BeaconEpoch

/-! ## First slots -/

namespace Preset

variable {preset : Preset} {epoch : Epoch}

/-- An epoch that starts at a slot starts at a multiple of its length. -/
theorem toNat_startSlot_of_lt (starts : epoch.toNat * preset.slotsPerEpoch.toNat < 2 ^ 64) :
    (preset.startSlot epoch).toNat = epoch.toNat * preset.slotsPerEpoch.toNat := by
  rw [toNat_startSlot]
  exact Nat.min_eq_left (Nat.le_pred_of_lt starts)

/-- The first slot of an epoch lies in it. -/
theorem epochAt_startSlot (starts : epoch.toNat * preset.slotsPerEpoch.toNat < 2 ^ 64) :
    preset.epochAt (preset.startSlot epoch) = epoch := by
  rw [← UInt64.toNat_inj, toNat_epochAt, toNat_startSlot_of_lt starts,
    Nat.mul_div_cancel _ preset.slotsPerEpoch_pos]

end Preset

namespace Config

variable {config : Config} {preset : Preset}

/-- A phase that has a first slot has that of its first epoch. -/
theorem eq_startSlot_of_forkSlot? {phase : Phase} {fork : Slot}
    (scheduled : config.forkSlot? preset phase = some fork) :
    (config.forkEpoch phase).toNat * preset.slotsPerEpoch.toNat < 2 ^ 64 ∧
      fork = preset.startSlot (config.forkEpoch phase) := by
  have slot := (config.forkSlot?_eq_some_iff).mp scheduled
  have starts := slot ▸ fork.toNat_lt
  exact ⟨starts, UInt64.toNat_inj.mp (slot.trans (Preset.toNat_startSlot_of_lt starts).symm)⟩

/-- **Forks happen where epochs start.** The first slot of a phase is the first slot of an epoch,
which is the one that the schedule names. -/
theorem isEpochStart_of_forkSlot? {phase : Phase} {fork : Slot}
    (scheduled : config.forkSlot? preset phase = some fork) :
    preset.isEpochStart fork = true ∧ preset.epochAt fork = config.forkEpoch phase := by
  obtain ⟨starts, rfl⟩ := eq_startSlot_of_forkSlot? scheduled
  refine ⟨?_, Preset.epochAt_startSlot starts⟩
  rw [Preset.isEpochStart_iff, Preset.toNat_startSlot_of_lt starts, Nat.mul_mod_left]

/-! ## Both readings -/

/-- Phase 0 has started in every epoch, so it makes no difference whether it is listed. -/
theorem phaseAtEpoch_eq (config : Config) (epoch : Epoch) :
    config.phaseAtEpoch epoch =
      (Phase.all.takeWhile (config.forkEpoch · ≤ epoch)).getLast?.getD .phase0 := by
  let started (phase : Phase) : Bool := config.forkEpoch phase ≤ epoch
  have first : started .phase0 = true :=
    decide_eq_true (UInt64.le_iff_toNat_le.mpr (Nat.zero_le _))
  have listed := List.takeWhile_cons_of_pos (l := [.altair, .bellatrix, .capella]) first
  show _ = (Phase.all.takeWhile started).getLast?.getD .phase0
  rw [Phase.all, listed, List.getLast?_cons, Option.getD_some]
  rfl

/-- A phase has started at a slot exactly if it has in the epoch of the slot. -/
theorem start_le_iff {phase : Phase} {slot : Slot} :
    config.start preset phase ≤ slot.toNat ↔ config.forkEpoch phase ≤ preset.epochAt slot := by
  rw [UInt64.le_iff_toNat_le, Preset.toNat_epochAt, Nat.le_div_iff_mul_le preset.slotsPerEpoch_pos,
    start]

/-- **The phase of a slot is that of its epoch.** -/
theorem phaseAtSlot_eq_phaseAtEpoch (config : Config) (preset : Preset) (slot : Slot) :
    config.phaseAtSlot preset slot = config.phaseAtEpoch (preset.epochAt slot) := by
  have started (phase : Phase) : (config.forkSlot? preset phase).any (· ≤ slot) =
      decide (config.forkEpoch phase ≤ preset.epochAt slot) := by
    rw [Bool.eq_iff_iff, decide_eq_true_iff, forkSlot?_any_iff, start_le_iff]
  simp only [phaseAtEpoch_eq, phaseAtSlot, started]

/-- **The phase of an epoch is that of its first slot,** if it has one. -/
theorem phaseAtEpoch_eq_phaseAtSlot (config : Config) {preset : Preset} {epoch : Epoch}
    (starts : epoch.toNat * preset.slotsPerEpoch.toNat < 2 ^ 64) :
    config.phaseAtEpoch epoch = config.phaseAtSlot preset (preset.startSlot epoch) := by
  rw [phaseAtSlot_eq_phaseAtEpoch, Preset.epochAt_startSlot starts]

/-! ## Schedules in order -/

section Valid

variable (valid : config.validate = .ok ())

include valid

theorem le_phaseAtEpoch_iff {phase : Phase} {epoch : Epoch} :
    phase ≤ config.phaseAtEpoch epoch ↔ config.forkEpoch phase ≤ epoch := by
  rw [phaseAtEpoch_eq, ← decide_eq_true_iff (p := config.forkEpoch phase ≤ epoch)]
  refine Phase.le_last_started_iff ?_ ?_ phase
  · exact decide_eq_true (UInt64.le_iff_toNat_le.mpr (Nat.zero_le _))
  · intro a b order started
    rw [decide_eq_true_iff] at started ⊢
    exact UInt64.le_trans (forkEpoch_le_forkEpoch valid order) started

theorem phaseAtEpoch_mono {epoch later : Epoch} (order : epoch ≤ later) :
    config.phaseAtEpoch epoch ≤ config.phaseAtEpoch later := by
  have reached : config.phaseAtEpoch epoch ≤ config.phaseAtEpoch epoch := Nat.le_refl _
  rw [le_phaseAtEpoch_iff valid] at reached ⊢
  exact UInt64.le_trans reached order

theorem le_phaseAtSlot_iff_forkSlot? {phase : Phase} {slot : Slot} :
    phase ≤ config.phaseAtSlot preset slot ↔
      ∃ fork, config.forkSlot? preset phase = some fork ∧ fork ≤ slot := by
  rw [le_phaseAtSlot_iff valid, ← forkSlot?_any_iff, Option.any_eq_true]
  simp only [decide_eq_true_eq]

end Valid

/-- Both readings of a schedule go forward in time, and a phase is reached exactly if it has a first
slot that is not ahead. -/
structure Orderly (config : Config) (preset : Preset) : Prop where
  epoch_mono : ∀ {epoch later : Epoch}, epoch ≤ later →
    config.phaseAtEpoch epoch ≤ config.phaseAtEpoch later
  slot_mono : ∀ {slot later : Slot}, slot ≤ later →
    config.phaseAtSlot preset slot ≤ config.phaseAtSlot preset later
  reached_iff : ∀ {phase : Phase} {slot : Slot}, phase ≤ config.phaseAtSlot preset slot ↔
    ∃ fork, config.forkSlot? preset phase = some fork ∧ fork ≤ slot

/-- **Both readings of a schedule agree.** Of every configuration, the phase of a slot is that of
its epoch, and the phase of an epoch is that of its first slot, if it has one; and the first slot of
a phase is the first slot of the epoch that the schedule names. If the configuration is valid, then
both readings go forward in time, and a phase is reached exactly if it has a first slot that is not
ahead. -/
theorem calendars_agree (config : Config) (preset : Preset) :
    (∀ slot : Slot,
      config.phaseAtSlot preset slot = config.phaseAtEpoch (preset.epochAt slot)) ∧
    (∀ epoch : Epoch, epoch.toNat * preset.slotsPerEpoch.toNat < 2 ^ 64 →
      config.phaseAtEpoch epoch = config.phaseAtSlot preset (preset.startSlot epoch)) ∧
    (∀ (phase : Phase) (fork : Slot), config.forkSlot? preset phase = some fork →
      preset.isEpochStart fork = true ∧ preset.epochAt fork = config.forkEpoch phase) ∧
    (config.validate = .ok () → config.Orderly preset) := by
  refine ⟨config.phaseAtSlot_eq_phaseAtEpoch preset,
    fun epoch => config.phaseAtEpoch_eq_phaseAtSlot,
    fun phase fork => isEpochStart_of_forkSlot?, fun valid => ?_⟩
  exact ⟨phaseAtEpoch_mono valid, phaseAtSlot_mono valid, le_phaseAtSlot_iff_forkSlot? valid⟩

/-- A schedule whose first fork is at the start of the last epoch of all, and whose other forks are
later than any slot. -/
def forksLast : Config :=
  { mainnet with
    altairForkEpoch := 576460752303423487
    bellatrixForkEpoch := 576460752303423488
    capellaForkEpoch := farFutureEpoch }

/-- The last epoch of all starts 32 slots before slots end. -/
theorem calendars_agree_forksLast :
    forksLast.forkSlot? .mainnet .altair = some 18446744073709551584 ∧
      forksLast.forkSlot? .mainnet .bellatrix = none ∧
      forksLast.phaseAtSlot .mainnet farFutureSlot = .altair ∧
      forksLast.phaseAtEpoch (Preset.mainnet.epochAt farFutureSlot) = .altair ∧
      forksLast.phaseAtEpoch 576460752303423487 =
        forksLast.phaseAtSlot .mainnet 18446744073709551584 ∧
      Preset.mainnet.isEpochStart 18446744073709551584 = true ∧
      Preset.mainnet.epochAt 18446744073709551584 = 576460752303423487 ∧
      forksLast.phaseAtEpoch farFutureEpoch = .capella ∧
      forksLast.validate = .ok () ∧ forksLast.Orderly .mainnet := by
  have valid : forksLast.validate = .ok () := by decide +kernel
  have scheduled : forksLast.forkSlot? .mainnet .altair = some 18446744073709551584 := by
    decide +kernel
  have last : forksLast.phaseAtSlot .mainnet farFutureSlot = .altair := by decide +kernel
  obtain ⟨bySlot, byEpoch, first, orderly⟩ := calendars_agree forksLast .mainnet
  obtain ⟨start, epoch⟩ := first .altair 18446744073709551584 scheduled
  exact ⟨scheduled, by decide +kernel, last, (bySlot farFutureSlot).symm.trans last,
    byEpoch 576460752303423487 (by decide), start, epoch, by decide +kernel, valid, orderly valid⟩

end Config

end BeaconEpoch
