import BeaconEpoch.Proofs.Schedule

/-!
# Itineraries

What a walk does under any configuration, whether or not its forks are in order and whether or not
the state is on schedule. Where the agenda of a schedule asks every slot what is due in it, an
itinerary is read off the walk itself: legs within a phase, and the upgrades between them.

## Main definitions

* `Preset.leg`: a walk through some slots in a row within a phase.
* `Config.itinerary`: a walk through the phases that are still ahead.
* `Preset.epochsOf`: the epochs that some actions process.

## Main statements

* `BeaconState.reach_follows`, `BeaconState.travel_follows`: walks do what their itineraries say.
* `Config.itinerary_epochs`: the epochs of an itinerary are processed one after another, each once.

## Design notes

* **Time goes on.** An upgrade enters a phase in the slot that its fork is at, or late in the slot
  that the state is in. Either way no slot is walked through twice, and this is all that the order
  of epochs rests on.
-/

namespace BeaconEpoch

open Step

/-! ## Legs and itineraries -/

/-- To walk through some slots in a row within a phase: the epochs that end on the way are processed
under its rules. -/
def Preset.leg (preset : Preset) (phase : Phase) (start : Slot) : (count : Nat) → List Action
  | 0 => []
  | count + 1 =>
    ((if (start.toNat + 1) % preset.slotsPerEpoch.toNat = 0 then [.epoch phase start] else []) ++
      [.advance start]) ++ preset.leg phase (start + 1) count

/-- To walk to a target through the phases that are still ahead, from a phase and a slot. -/
def Config.itinerary (config : Config) (preset : Preset) (target : Slot) :
    (ahead : List FlagPhase) → Phase → Slot → List Action
  | [], phase, slot => preset.leg phase slot (target.toNat - slot.toNat)
  | next :: ahead, phase, slot =>
    if slot < target ∨ phase < config.phaseAtSlot preset target then
      match (config.forkSlot? preset next.toPhase).filter (· ≤ target) with
      | none => preset.leg phase slot (target.toNat - slot.toNat)
      | some fork =>
        preset.leg phase slot (fork.toNat - slot.toNat) ++
          (.upgrade next (max slot fork) ::
            config.itinerary preset target ahead next.toPhase (max slot fork))
    else []

/-! ## Walks follow itineraries -/

namespace BeaconState

variable {preset : Preset} {config : Config} {target stop : Slot}
  {run final : Run (BeaconState preset)}

theorem reach_split (ahead : run.state.slot < stop) (order : stop ≤ target) :
    reach config target run = (walkTo config stop >>= fun _ => reach config target) run := by
  rcases UInt64.le_iff_lt_or_eq.mp order with short | rfl
  · rw [reach_of_lt (UInt64.lt_trans ahead short), walkTo_split ahead short]
    refine bind_congr fun _ middle ran => (reach_of_lt ?_).symm
    rwa [(walkTo_eq_ok ran).1]
  · rw [reach_of_lt ahead]
    refine (bind_eq_left fun middle ran => reach_of_not_lt ?_).symm
    rw [(walkTo_eq_ok ran).1]
    exact UInt64.lt_irrefl _

theorem reach_follows_count {count : Nat} (distance : target.toNat = run.state.slot.toNat + count) :
    Follows config (preset.leg run.state.phase run.state.slot count) run
      (reach config target run) := by
  induction count generalizing run with
  | zero =>
    obtain rfl : target = run.state.slot := UInt64.toNat_inj.mp distance
    exact reach_of_not_lt (UInt64.lt_irrefl _)
  | succ count ih =>
    have room := target.toNat_lt
    have later : (run.state.slot + 1).toNat = run.state.slot.toNat + 1 :=
      Word.toNat_succ (by omega)
    have ahead : run.state.slot < run.state.slot + 1 := by
      rw [UInt64.lt_iff_toNat_lt]
      omega
    have order : run.state.slot + 1 ≤ target := by
      rw [UInt64.le_iff_toNat_le]
      omega
    rw [reach_split ahead order]
    refine Follows.bind (walkTo_next_follows later) fun middle ran => ?_
    obtain ⟨slot, phase⟩ := walkTo_eq_ok ran
    rw [← slot, ← phase]
    refine ih ?_
    rw [slot]
    omega

/-- A walk within a phase goes through all slots up to its target, or stays if there are none. -/
theorem reach_follows :
    Follows config
      (preset.leg run.state.phase run.state.slot (target.toNat - run.state.slot.toNat)) run
      (reach config target run) := by
  by_cases ahead : run.state.slot < target
  · refine reach_follows_count ?_
    rw [UInt64.lt_iff_toNat_lt] at ahead
    omega
  · have arrived : target.toNat - run.state.slot.toNat = 0 := by
      rw [UInt64.lt_iff_toNat_lt] at ahead
      omega
    rw [arrived]
    exact reach_of_not_lt ahead

/-- A fork that is behind a state is entered where the state is. -/
theorem reach_slot_eq_max {fork : Slot} (ran : reach config fork run = .ok () final) :
    final.state.slot = max run.state.slot fork := by
  rw [← UInt64.toNat_inj, UInt64.toNat_max]
  by_cases ahead : run.state.slot < fork
  · rw [reach_of_lt ahead] at ran
    rw [UInt64.lt_iff_toNat_lt] at ahead
    rw [(walkTo_eq_ok ran).1, Nat.max_eq_right (Nat.le_of_lt ahead)]
  · rw [reach_of_not_lt ahead] at ran
    cases ran
    rw [UInt64.lt_iff_toNat_lt] at ahead
    exact (Nat.max_eq_left (Nat.not_lt.mp ahead)).symm

/-- **A walk does what its itinerary says.** The induction is on the phases ahead. -/
theorem travel_follows {ahead : List FlagPhase} (follows : run.state.phase.later = ahead) :
    Follows config (config.itinerary preset target ahead run.state.phase run.state.slot) run
      (travel config target ahead run) := by
  induction ahead generalizing run with
  | nil => exact reach_follows
  | cons next ahead ih =>
    by_cases onward : run.state.slot < target ∨ run.state.phase < config.phaseAtSlot preset target
    · rw [Config.itinerary, if_pos onward]
      cases opened : (config.forkSlot? preset next.toPhase).filter (· ≤ target) with
      | none =>
        have short := onward.resolve_right (Config.not_lt_phaseAtSlot follows opened)
        rw [travel_within follows short opened, ← reach_of_lt short]
        exact reach_follows
      | some fork =>
        rw [travel_across onward opened]
        refine Follows.bind reach_follows fun reached ran => ?_
        have slot := reach_slot_eq_max ran
        have phase := (reach_eq_ok ran).2
        have entering : Action.Due reached.state (.upgrade next (max run.state.slot fork)) :=
          ⟨slot, by rw [phase, follows, List.head?_cons]⟩
        have enters : Follows config [_] reached _ := follows_single entering
        refine enters.bind fun entered ran => ?_
        rw [← slot, ← (enter_eq_ok ran).2, ← slot_of_enter ran]
        exact ih (later_of_enter follows ran)
    · rw [Config.itinerary, if_neg onward]
      exact travel_done onward

theorem processSlots_follows (ahead : run.state.slot < target) :
    Follows config
      (config.itinerary preset target run.state.phase.later run.state.phase run.state.slot) run
      (processSlots config target run) := by
  rw [processSlots_of_lt ahead]
  exact travel_follows rfl

end BeaconState

/-! ## The epochs of an itinerary -/

/-- The epoch that an action processes, if it is one that does. -/
def Action.epoch? (preset : Preset) : Action → Option Epoch
  | epoch _ slot => some (preset.epochAt slot)
  | advance _ => none
  | upgrade _ _ => none

namespace Preset

variable {preset : Preset}

/-- The epochs that some actions process, in order. -/
def epochsOf (preset : Preset) (actions : List Action) : List Epoch :=
  actions.filterMap (Action.epoch? preset)

theorem epochsOf_append (first second : List Action) :
    preset.epochsOf (first ++ second) = preset.epochsOf first ++ preset.epochsOf second :=
  List.filterMap_append

theorem epochsOf_cons (action : Action) (rest : List Action) :
    preset.epochsOf (action :: rest) = (action.epoch? preset).toList ++ preset.epochsOf rest := by
  rw [epochsOf, List.filterMap_cons]
  cases action.epoch? preset <;> rfl

theorem epochAt_mono {slot later : Slot} (order : slot.toNat ≤ later.toNat) :
    preset.epochAt slot ≤ preset.epochAt later := by
  rw [UInt64.le_iff_toNat_le, toNat_epochAt, toNat_epochAt]
  exact Nat.div_le_div_right order

/-- After its last slot an epoch is over. -/
theorem epochAt_lt {slot next : Slot} (later : next.toNat = slot.toNat + 1)
    (ends : (slot.toNat + 1) % preset.slotsPerEpoch.toNat = 0) :
    preset.epochAt slot < preset.epochAt next := by
  rw [UInt64.lt_iff_toNat_lt, toNat_epochAt, toNat_epochAt, later,
    Nat.succ_div_of_dvd (Nat.dvd_of_mod_eq_zero ends)]
  exact Nat.lt_succ_self _

variable (preset) in
/-- The epochs of a leg are over one after another, and before it ends. -/
theorem leg_epochs (phase : Phase) (start stop : Slot) (count : Nat)
    (distance : stop.toNat = start.toNat + count) :
    (preset.epochsOf (preset.leg phase start count)).Pairwise (· < ·) ∧
      ∀ epoch ∈ preset.epochsOf (preset.leg phase start count),
        preset.epochAt start ≤ epoch ∧ epoch < preset.epochAt stop := by
  induction count generalizing start with
  | zero => exact ⟨.nil, nofun⟩
  | succ count ih =>
    have room := stop.toNat_lt
    have later : (start + 1).toNat = start.toNat + 1 := Word.toNat_succ (by omega)
    have before : preset.epochAt start ≤ preset.epochAt (start + 1) := epochAt_mono (by omega)
    have order : preset.epochAt (start + 1) ≤ preset.epochAt stop := epochAt_mono (by omega)
    obtain ⟨sorted, inside⟩ := ih (start + 1) (by omega)
    rw [leg]
    split
    · rename_i ends
      have passed := epochAt_lt later ends
      refine ⟨List.pairwise_cons.mpr ⟨fun epoch listed => ?_, sorted⟩, ?_⟩
      · exact UInt64.lt_of_lt_of_le passed (inside epoch listed).1
      · rintro epoch (_ | ⟨_, listed⟩)
        · exact ⟨UInt64.le_refl _, UInt64.lt_of_lt_of_le passed order⟩
        · exact ⟨UInt64.le_trans before (inside epoch listed).1, (inside epoch listed).2⟩
    · exact ⟨sorted, fun epoch listed =>
        ⟨UInt64.le_trans before (inside epoch listed).1, (inside epoch listed).2⟩⟩

end Preset

/-- **No epoch is processed twice.** The induction is on the phases ahead: what a leg has been
through is over where the next phase is entered. -/
theorem Config.itinerary_epochs (config : Config) {preset : Preset} {target : Slot}
    (ahead : List FlagPhase) (phase : Phase) (slot : Slot) :
    (preset.epochsOf (config.itinerary preset target ahead phase slot)).Pairwise (· < ·) ∧
      ∀ epoch ∈ preset.epochsOf (config.itinerary preset target ahead phase slot),
        preset.epochAt slot ≤ epoch := by
  have leg (phase : Phase) (start stop : Slot) :=
    preset.leg_epochs phase start (max start stop) (stop.toNat - start.toNat)
      (by rw [UInt64.toNat_max]; omega)
  induction ahead generalizing phase slot with
  | nil =>
    obtain ⟨sorted, inside⟩ := leg phase slot target
    exact ⟨sorted, fun epoch listed => (inside epoch listed).1⟩
  | cons next ahead ih =>
    rw [itinerary]
    split
    · split
      · obtain ⟨sorted, inside⟩ := leg phase slot target
        exact ⟨sorted, fun epoch listed => (inside epoch listed).1⟩
      · rename_i fork _
        obtain ⟨sorted, inside⟩ := leg phase slot fork
        obtain ⟨sorted', inside'⟩ := ih next.toPhase (max slot fork)
        have onward : preset.epochAt slot ≤ preset.epochAt (max slot fork) :=
          Preset.epochAt_mono (UInt64.toNat_max slot fork ▸ Nat.le_max_left ..)
        rw [Preset.epochsOf_append, Preset.epochsOf_cons]
        refine ⟨List.pairwise_append.mpr ⟨sorted, sorted', ?_⟩, fun epoch listed => ?_⟩
        · intro early passed late listed
          exact UInt64.lt_of_lt_of_le (inside early passed).2 (inside' late listed)
        · rcases List.mem_append.mp listed with passed | listed
          · exact (inside epoch passed).1
          · exact UInt64.le_trans onward (inside' epoch listed)
    · exact ⟨.nil, nofun⟩

end BeaconEpoch
