import BeaconEpoch.Proofs.Walk

/-!
# Walks and the schedule

What a walk through all phases does, slot by slot, if the schedule is in order.

## Main definitions

* `Config.start`: the first slot of a phase, as a number without bounds.
* `BeaconState.turn`, `BeaconState.loop`: a walk as a loop that goes on until it has arrived, with
  a check that every turn makes progress.
* `Action`, `Action.Due`, `Action.perform`: what can happen on a walk, when it may, and how.
* `Config.agenda`: what a schedule says about some slots in a row.
* `BeaconState.Follows`: a run that does what a list of actions says, up to a failure.

## Main statements

* `Config.le_phaseAtSlot_iff`: a schedule in order has reached a phase exactly if the phase has
  started.
* `BeaconState.loop_eq_travel`: the loop makes progress in each of its turns, of which it needs at
  most four.
* `BeaconState.travel_arrives`: where a walk ends.
* `BeaconState.resume_follows`: a walk does what the schedule says.

## Design notes

* **A run off the schedule follows nothing.** Every action of a schedule names the slot and the
  phase that it is due in, and a run that is elsewhere does not follow it. So a law about following
  is one about the time of every epoch and every upgrade.
-/

namespace BeaconEpoch

open Step

/-! ## Schedules in order -/

namespace Phase

instance : Max Phase := maxOfLe

theorem max_of_le {phase other : Phase} (le : phase ≤ other) : max phase other = other := if_pos le

theorem max_of_not_lt {phase other : Phase} (last : ¬phase < other) : max phase other = phase := by
  cases phase <;> cases other <;> first | rfl | exact absurd (by decide) last

theorem lt_of_mem_later {phase : Phase} {next : FlagPhase} (ahead : next ∈ phase.later) :
    phase < next.toPhase := by
  revert next
  cases phase <;> decide

/-- If phases start in order, then the last one that has started is not before any that has. -/
theorem le_last_started_iff {started : Phase → Bool} (first : started .phase0 = true)
    (down : ∀ a b, a ≤ b → started b = true → started a = true) (phase : Phase) :
    phase ≤ (Phase.all.takeWhile started).getLast?.getD .phase0 ↔ started phase = true := by
  have second := down .altair .bellatrix (by decide)
  have third := down .bellatrix .capella (by decide)
  -- a table of the phases that may have started, against the phase that is asked for
  cases altair : started .altair <;> cases bellatrix : started .bellatrix <;>
    cases capella : started .capella <;> cases phase <;> simp_all [Phase.all] <;> decide

theorem not_lt_of_later_eq_nil {phase : Phase} (last : phase.later = []) (other : Phase) :
    ¬phase < other := by
  cases phase <;> cases last
  cases other <;> decide

theorem next_le {phase other : Phase} {next : FlagPhase} {ahead : List FlagPhase}
    (follows : phase.later = next :: ahead) (later : phase < other) : next.toPhase ≤ other := by
  cases phase <;> cases follows <;> cases other <;> first | decide | exact absurd later (by decide)

/-- A search through all phases may start after a phase, if none is found up to it. -/
theorem filter_later_phase0 {found : FlagPhase → Bool} {phase : Phase}
    (none : ∀ flag : FlagPhase, flag.toPhase ≤ phase → found flag = false) :
    Phase.phase0.later.filter found = phase.later.filter found := by
  have altair := none .altair
  have bellatrix := none .bellatrix
  have capella := none .capella
  cases phase with
  | phase0 => rfl
  | altair => simp [later, altair (by decide)]
  | bellatrix => simp [later, altair (by decide), bellatrix (by decide)]
  | capella => simp [later, altair (by decide), bellatrix (by decide), capella (by decide)]

theorem length_later_le (phase : Phase) : phase.later.length ≤ 3 := by
  cases phase <;> decide

end Phase

namespace Config

variable {config : Config} {preset : Preset}

/-- The first slot of a phase, as a number that need not be a word. -/
def start (config : Config) (preset : Preset) (phase : Phase) : Nat :=
  (config.forkEpoch phase).toNat * preset.slotsPerEpoch.toNat

theorem forkSlot?_eq_some_iff_start {phase : Phase} {slot : Slot} :
    config.forkSlot? preset phase = some slot ↔ config.start preset phase = slot.toNat := by
  rw [forkSlot?_eq_some_iff, eq_comm, start]

theorem forkSlot?_any_iff {phase : Phase} {slot : Slot} :
    (config.forkSlot? preset phase).any (· ≤ slot) = true ↔
      config.start preset phase ≤ slot.toNat := by
  cases fork : config.forkSlot? preset phase with
  | some fork =>
    rw [forkSlot?_eq_some_iff_start.mp fork, Option.any_some, decide_eq_true_iff,
      UInt64.le_iff_toNat_le]
  | none =>
    -- a fork that is not a word is later than all slots
    have late : 2 ^ 64 ≤ config.start preset phase := by
      simpa [forkSlot?, start] using fork
    have := slot.toNat_lt
    simp
    omega

theorem forkEpoch_le_forkEpoch (valid : config.validate = .ok ()) {phase later : Phase}
    (order : phase ≤ later) : config.forkEpoch phase ≤ config.forkEpoch later := by
  obtain ⟨-, -, second, third⟩ := validate_eq_ok_iff.mp valid
  rw [UInt64.le_iff_toNat_le] at second third ⊢
  cases phase <;> cases later <;> first
    | exact absurd order (by decide)
    | simp only [forkEpoch]; first | omega | exact Nat.zero_le _

theorem start_le_start (valid : config.validate = .ok ()) {phase later : Phase}
    (order : phase ≤ later) : config.start preset phase ≤ config.start preset later :=
  Nat.mul_le_mul_right _ (UInt64.le_iff_toNat_le.mp (forkEpoch_le_forkEpoch valid order))

/-- **A phase is reached exactly if it has started.** -/
theorem le_phaseAtSlot_iff (valid : config.validate = .ok ()) {phase : Phase} {slot : Slot} :
    phase ≤ config.phaseAtSlot preset slot ↔ config.start preset phase ≤ slot.toNat := by
  rw [← forkSlot?_any_iff]
  refine Phase.le_last_started_iff ?_ ?_ phase
  · rw [forkSlot?_any_iff, start, forkEpoch, genesisEpoch]
    simp
  · intro a b order started
    rw [forkSlot?_any_iff] at started ⊢
    exact Nat.le_trans (start_le_start valid order) started

theorem phaseAtSlot_mono (valid : config.validate = .ok ()) {slot later : Slot}
    (order : slot ≤ later) : config.phaseAtSlot preset slot ≤ config.phaseAtSlot preset later := by
  have reached : config.phaseAtSlot preset slot ≤ config.phaseAtSlot preset slot := Nat.le_refl _
  rw [le_phaseAtSlot_iff valid] at reached ⊢
  exact Nat.le_trans reached (UInt64.le_iff_toNat_le.mp order)

end Config

/-! ## The walk as a loop -/

namespace BeaconState

variable {preset : Preset} {config : Config} {target : Slot} {run final : Run (BeaconState preset)}

/-- How a loop ends: it has arrived, it has made a turn without progress, or it would need more
turns. -/
inductive Ending
  | arrived
  | stuck
  | outOfTurns
deriving DecidableEq, Repr

/-- One turn on the way to a target: up to the next fork or to the target, whichever comes first,
and over the fork if that is where it got; and whether anything was done. -/
def turn (config : Config) (target : Slot) : Step (Run (BeaconState preset)) Bool := do
  let state := (← get).state
  match state.phase.later with
  | [] =>
    walkTo config target
    return true
  | next :: _ =>
    let fork := config.forkSlot? preset next.toPhase
    let stop := (fork.map (min · target)).getD target
    if state.slot < stop then
      walkTo config stop
    if fork = some stop then
      enter next
    return state.slot < stop || fork = some stop

/-- Whether a walk is short of its target, or of the phase that the schedule has there. -/
def isOnward (config : Config) (target : Slot) (state : BeaconState preset) : Bool :=
  state.slot < target || state.phase < config.phaseAtSlot preset target

/-- Turns up to the target and into the phase that the schedule has there, as far as they make
progress, and at most a number of them. -/
def loop (config : Config) (target : Slot) : (turns : Nat) → Step (Run (BeaconState preset)) Ending
  | 0 => do
    return if isOnward config target (← get).state then .outOfTurns else .arrived
  | turns + 1 => do
    if isOnward config target (← get).state then
      if ← turn config target then loop config target turns else return .stuck
    else return .arrived

/-- Advances to a later slot by turns, of which there are at most a number. -/
def loopSlots (config : Config) (target : Slot) (turns : Nat) :
    Step (Run (BeaconState preset)) Ending := do
  let state := (← get).state
  if state.slot < target then loop config target turns
  else throw (.slotNotLater state.slot target)

section Loop

variable {next : FlagPhase} {ahead : List FlagPhase} {fork : Slot}

theorem isOnward_iff {state : BeaconState preset} :
    isOnward config target state = true ↔
      state.slot < target ∨ state.phase < config.phaseAtSlot preset target := by
  simp [isOnward]

theorem loop_done (turns : Nat)
    (done : ¬(run.state.slot < target ∨ run.state.phase < config.phaseAtSlot preset target)) :
    loop config target turns run = .ok .arrived run := by
  have done : isOnward config target run.state = false :=
    Bool.eq_false_iff.mpr (mt isOnward_iff.mp done)
  cases turns with
  | zero =>
    rw [loop, get_bind_apply, done]
    rfl
  | succ turns =>
    rw [loop, get_bind_apply, done]
    rfl

theorem turn_last (follows : run.state.phase.later = []) :
    turn config target run = (walkTo config target >>= fun _ => pure true) run := by
  unfold turn
  rw [get_bind_apply]
  simp only [follows]

theorem turn_within (follows : run.state.phase.later = next :: ahead)
    (short : run.state.slot < target)
    (closed : (config.forkSlot? preset next.toPhase).filter (· ≤ target) = none) :
    turn config target run = (walkTo config target >>= fun _ => pure true) run := by
  have stop : ((config.forkSlot? preset next.toPhase).map (min · target)).getD target = target ∧
      config.forkSlot? preset next.toPhase ≠ some target := by
    cases scheduled : config.forkSlot? preset next.toPhase with
    | none => exact ⟨rfl, nofun⟩
    | some fork =>
      have beyond : ¬fork ≤ target := by
        simpa [scheduled, Option.filter] using closed
      refine ⟨if_neg beyond, ?_⟩
      rintro ⟨⟩
      exact beyond (UInt64.le_refl _)
  unfold turn
  rw [get_bind_apply]
  simp only [follows, stop.1, if_pos short, if_neg stop.2, decide_eq_true short, Bool.true_or]

/-- A turn that finds a fork ahead goes up to it and enters the next phase. -/
theorem turn_across (follows : run.state.phase.later = next :: ahead)
    (opened : (config.forkSlot? preset next.toPhase).filter (· ≤ target) = some fork) :
    turn config target run =
      (reach config fork >>= fun _ => enter next >>= fun _ => pure true) run := by
  obtain ⟨scheduled, within⟩ := Option.filter_eq_some_iff.mp opened
  have within : fork ≤ target := by simpa using within
  have stop : ((config.forkSlot? preset next.toPhase).map (min · target)).getD target = fork := by
    rw [scheduled]
    exact if_pos within
  unfold turn
  rw [get_bind_apply]
  simp only [follows, stop, if_pos scheduled, decide_eq_true scheduled, Bool.or_true]
  by_cases short : run.state.slot < fork
  · rw [if_pos short, bind_congr_left (reach_of_lt short)]
  · rw [if_neg short, bind_of_ok (reach_of_not_lt short)]

/-- A turn of the loop that is a stage of the run is followed by what is left of the loop. -/
theorem loop_of_turn {turns : Nat} {stage : Step (Run (BeaconState preset)) Unit}
    (onward : isOnward config target run.state = true)
    (turned : turn config target run = (stage >>= fun _ => pure true) run) :
    loop config target (turns + 1) run =
      (stage >>= fun _ => loop config target turns) run := by
  rw [loop, get_bind_apply, if_pos onward, bind_congr_left turned, bind_assoc]
  rfl

/-- A walk that has reached its target, and has no fork at it or before it, has arrived. -/
theorem loop_arrived {turns : Nat} (there : run.state.slot = target)
    (last : ¬run.state.phase < config.phaseAtSlot preset target) :
    loop config target turns run = .ok .arrived run := by
  rw [loop_done]
  rw [there]
  exact not_or.mpr ⟨UInt64.lt_irrefl _, last⟩

/-- **Every turn of the loop makes progress.** The induction is on the phases ahead: a turn either
enters the next one or ends at the target, and there the schedule has no later phase. -/
theorem loop_eq_travel (follows : run.state.phase.later = ahead) (spare : Nat) :
    loop config target (ahead.length + 1 + spare) run =
      (travel config target ahead >>= fun _ => pure .arrived) run := by
  induction ahead generalizing run with
  | nil =>
    have last := Phase.not_lt_of_later_eq_nil follows (config.phaseAtSlot preset target)
    by_cases short : run.state.slot < target
    · rw [Nat.add_right_comm, loop_of_turn (isOnward_iff.mpr (.inl short)) (turn_last follows)]
      rw [travel, bind_congr_left (reach_of_lt short)]
      refine bind_congr fun _ middle ran => ?_
      obtain ⟨slot, phase⟩ := walkTo_eq_ok ran
      exact loop_arrived slot (phase ▸ last)
    · rw [travel, bind_of_ok (reach_of_not_lt short)]
      exact loop_done _ (not_or.mpr ⟨short, last⟩)
  | cons next ahead ih =>
    by_cases onward : run.state.slot < target ∨ run.state.phase < config.phaseAtSlot preset target
    · rw [Nat.add_right_comm]
      cases opened : (config.forkSlot? preset next.toPhase).filter (· ≤ target) with
      | none =>
        have last := Config.not_lt_phaseAtSlot follows opened
        have short := onward.resolve_right last
        rw [loop_of_turn (isOnward_iff.mpr onward) (turn_within follows short opened),
          bind_congr_left (travel_within follows short opened)]
        refine bind_congr fun _ middle ran => ?_
        obtain ⟨slot, phase⟩ := walkTo_eq_ok ran
        exact loop_arrived slot (phase ▸ last)
      | some fork =>
        have turned := turn_across follows opened
        rw [← bind_assoc] at turned
        rw [loop_of_turn (isOnward_iff.mpr onward) turned,
          bind_congr_left (travel_across onward opened)]
        simp only [bind_assoc]
        refine bind_congr fun _ reached _ => bind_congr fun _ entered ran => ?_
        exact ih (later_of_enter follows ran)
    · rw [bind_of_ok (travel_done onward)]
      exact loop_done _ onward

/-- Four turns are enough, because there are three forks. -/
theorem loopSlots_eq_processSlots (spare : Nat) :
    loopSlots config target (4 + spare) run =
      (processSlots config target >>= fun _ => pure .arrived) run := by
  unfold loopSlots
  rw [get_bind_apply]
  by_cases short : run.state.slot < target
  · have few := run.state.phase.length_later_le
    have turns : 4 + spare =
        run.state.phase.later.length + 1 + (3 - run.state.phase.later.length + spare) := by omega
    have walked : travel config target run.state.phase.later run = processSlots config target run :=
      (processSlots_of_lt short).symm
    rw [if_pos short, turns, loop_eq_travel rfl, bind_congr_left walked]
  · rw [if_neg short, bind_of_error (processSlots_of_not_lt short)]
    rfl

end Loop

/-! ## Where a walk ends -/

section Arrival

variable {ahead : List FlagPhase} {stop : Slot}

theorem reach_arrives (before : run.state.slot ≤ stop)
    (ran : reach config stop run = .ok () final) : final.state.slot = stop := by
  by_cases short : run.state.slot < stop
  · rw [reach_of_lt short] at ran
    exact (walkTo_eq_ok ran).1
  · rw [reach_of_not_lt short] at ran
    cases ran
    exact UInt64.le_antisymm before (UInt64.not_lt.mp short)

/-- **A walk ends at its target, in the phase that the schedule has there,** unless it has started
in a later one. A fork that is passed has started, so the phase that it leads to is not too
late. -/
theorem travel_arrives (valid : config.validate = .ok ()) (follows : run.state.phase.later = ahead)
    (before : run.state.slot ≤ target) (ran : travel config target ahead run = .ok () final) :
    final.state.slot = target ∧
      final.state.phase = max run.state.phase (config.phaseAtSlot preset target) := by
  induction ahead generalizing run with
  | nil =>
    rw [Phase.max_of_not_lt (Phase.not_lt_of_later_eq_nil follows _)]
    exact ⟨reach_arrives before ran, (reach_eq_ok ran).2⟩
  | cons next ahead ih =>
    by_cases onward : run.state.slot < target ∨ run.state.phase < config.phaseAtSlot preset target
    · cases opened : (config.forkSlot? preset next.toPhase).filter (· ≤ target) with
      | none =>
        have last := Config.not_lt_phaseAtSlot follows opened
        rw [travel_within follows (onward.resolve_right last) opened] at ran
        rw [Phase.max_of_not_lt last]
        exact walkTo_eq_ok ran
      | some fork =>
        rw [travel_across onward opened] at ran
        obtain ⟨_, reached, ran₁, ran⟩ := bind_eq_ok_iff.mp ran
        obtain ⟨_, entered, ran₂, ran⟩ := bind_eq_ok_iff.mp ran
        have phase := (enter_eq_ok ran₂).2
        obtain ⟨scheduled, within⟩ := Option.filter_eq_some_iff.mp opened
        have within : fork ≤ target := by simpa using within
        have started : next.toPhase ≤ config.phaseAtSlot preset target := by
          rw [Config.le_phaseAtSlot_iff valid, Config.forkSlot?_eq_some_iff_start.mp scheduled]
          exact UInt64.le_iff_toNat_le.mp within
        have later : run.state.phase < next.toPhase :=
          Phase.lt_of_mem_later (follows ▸ List.mem_cons_self)
        rw [Phase.max_of_le (Nat.le_trans (Nat.le_of_lt later) started)]
        rw [← Phase.max_of_le started, ← phase]
        refine ih (later_of_enter follows ran₂) ?_ ran
        rw [slot_of_enter ran₂]
        exact reach_slot_le before within ran₁
    · obtain ⟨there, last⟩ := not_or.mp onward
      rw [travel_done onward] at ran
      cases ran
      exact ⟨UInt64.le_antisymm before (UInt64.not_lt.mp there), (Phase.max_of_not_lt last).symm⟩

end Arrival

end BeaconState

/-! ## What a walk does -/

section Moves

variable {σ τ α β : Type} {place : τ → σ} {preset : Preset}

/-- Two steps of a part in a row are two steps of the whole in a row. -/
theorem Step.bind_move {first : Step τ α} {next : α → Step τ β} {first' : Step σ α}
    {next' : α → Step σ β} {part : τ}
    (moves : first' (place part) = Result.move place (first part))
    (moves' : ∀ a part, next' a (place part) = Result.move place (next a part)) :
    (first' >>= next') (place part) = Result.move place ((first >>= next) part) := by
  cases ran : first part with
  | ok a middle =>
    rw [ran] at moves
    rw [bind_of_ok ran, bind_of_ok moves, moves']
  | error e final =>
    rw [ran] at moves
    rw [bind_of_error ran, bind_of_error moves]
    rfl

/-- A second step may be left out if it does nothing after the first. -/
theorem Step.bind_eq_left {first next : Step σ Unit} {state : σ}
    (nothing : ∀ middle, first state = .ok () middle → next middle = .ok () middle) :
    (first >>= fun _ => next) state = first state := by
  cases ran : first state with
  | ok _ middle => rw [bind_of_ok ran, nothing middle ran]
  | error e final => rw [bind_of_error ran]

theorem Run.onState_move {step : Step τ α} {step' : Step σ α} (run : Run τ)
    (moves : ∀ part, step' (place part) = Result.move place (step part)) :
    Run.onState step' (run.move place) = Result.move (Run.move place) (Run.onState step run) := by
  rw [Run.onState, Run.onState, zoom_apply, zoom_apply]
  show Result.move _ (step' (place run.state)) = _
  rw [moves]
  cases step run.state <;> rfl

/-- Processes an epoch and writes it down as one of a phase. -/
def Run.processEpoch (chain : σ → Chain preset) (phase : Phase) (process : Step σ Report) :
    Step (Run σ) Unit := do
  let epoch := (chain (← get).state).currentEpoch
  let report ← Run.onState process
  Run.record (report.event phase epoch)

theorem Run.processEpoch_move {chain : τ → Chain preset} {chain' : σ → Chain preset} {phase : Phase}
    {process : Step τ Report} {process' : Step σ Report} (run : Run τ)
    (same : ∀ part, chain' (place part) = chain part)
    (moves : ∀ part, process' (place part) = Result.move place (process part)) :
    Run.processEpoch chain' phase process' (run.move place) =
      Result.move (Run.move place) (Run.processEpoch chain phase process run) := by
  unfold Run.processEpoch
  rw [get_bind_apply, get_bind_apply]
  refine bind_move (Run.onState_move run moves) fun report middle => ?_
  show _ = Result.move _ (Run.record _ middle)
  rw [← same]
  rfl

/-- Advances by one slot. -/
def BeaconState.advanceSlot : Step (Run (BeaconState preset)) Unit :=
  Run.dispatch (Run.onState State.advanceSlot) fun _ => Run.onState State.advanceSlot

theorem BeaconState.advanceSlot_pending (run : Run (PendingState preset)) :
    advanceSlot (run.move .pending) =
      Result.move (Run.move .pending) (Run.onState State.advanceSlot run) :=
  Run.dispatch_pending run

theorem BeaconState.advanceSlot_flagged (phase : FlagPhase) (run : Run (FlagState preset)) :
    advanceSlot (run.move (.flagged phase)) =
      Result.move (Run.move (.flagged phase)) (Run.onState State.advanceSlot run) := by
  rw [advanceSlot, Run.dispatch_flagged]

end Moves

/-- What happens on a walk, with the time that it is due at. -/
inductive Action
  /-- The epoch of a slot is processed under the rules of a phase. -/
  | epoch (phase : Phase) (slot : Slot)
  /-- A slot is left for the next one. -/
  | advance (slot : Slot)
  /-- The next phase is entered. -/
  | upgrade (next : FlagPhase) (slot : Slot)
deriving DecidableEq, Repr

namespace Action

variable {preset : Preset}

/-- Whether a state is where an action is due. -/
def Due (state : BeaconState preset) : Action → Prop
  | epoch phase slot => state.slot = slot ∧ state.phase = phase
  | advance slot => state.slot = slot
  | upgrade next slot => state.slot = slot ∧ state.phase.later.head? = some next

/-- Does what an action says. -/
def perform (config : Config) : Action → Step (Run (BeaconState preset)) Unit
  | epoch phase _ =>
    Run.processEpoch BeaconState.chain phase (BeaconState.processEpoch config false)
  | advance _ => BeaconState.advanceSlot
  | upgrade next _ => BeaconState.enter next

end Action

namespace Config

/-- Whether a phase starts at a slot. -/
def startsAt (config : Config) (preset : Preset) (slot : Slot) (flag : FlagPhase) : Bool :=
  config.forkSlot? preset flag.toPhase = some slot

/-- To enter those of some phases that start at a slot, one after another. -/
def entries (config : Config) (preset : Preset) (slot : Slot) (phases : List FlagPhase) :
    List Action :=
  (phases.filter (config.startsAt preset slot)).map (.upgrade · slot)

/-- What a schedule says about a slot: to process the epoch if the slot is its last, under the rules
of the phase of the slot; to advance; and to enter the phases that start at the next slot. -/
def agendaAt (config : Config) (preset : Preset) (slot : Slot) : List Action :=
  (if (slot.toNat + 1) % preset.slotsPerEpoch.toNat = 0 then
    [.epoch (config.phaseAtSlot preset slot) slot] else []) ++
  [.advance slot] ++ config.entries preset (slot + 1) Phase.phase0.later

/-- What a schedule says about some slots in a row. -/
def agenda (config : Config) (preset : Preset) (start : Slot) : (count : Nat) → List Action
  | 0 => []
  | count + 1 => config.agendaAt preset start ++ config.agenda preset (start + 1) count

section StartsAt

variable {config : Config} {preset : Preset} {slot : Slot} {flag : FlagPhase}

theorem startsAt_iff :
    config.startsAt preset slot flag = true ↔ config.start preset flag.toPhase = slot.toNat := by
  rw [startsAt, decide_eq_true_iff, forkSlot?_eq_some_iff_start]

theorem entries_cons {phases : List FlagPhase} (starts : config.startsAt preset slot flag = true) :
    config.entries preset slot (flag :: phases) =
      .upgrade flag slot :: config.entries preset slot phases := by
  rw [entries, List.filter_cons_of_pos starts]
  rfl

theorem entries_eq_nil {phases : List FlagPhase}
    (others : ∀ flag ∈ phases, config.startsAt preset slot flag = false) :
    config.entries preset slot phases = [] := by
  rw [entries, List.filter_eq_nil_iff.mpr]
  · rfl
  · intro flag listed
    rw [others flag listed]
    decide

end StartsAt

end Config

namespace BeaconState

variable {preset : Preset} {config : Config} {target : Slot} {run final : Run (BeaconState preset)}

/-- A run that does what a list of actions says, each when it is due, and ends with a result: after
the last action, or in the first failure. -/
def Follows (config : Config) :
    List Action → Run (BeaconState preset) → Result (Run (BeaconState preset)) Unit → Prop
  | [], run, result => result = .ok () run
  | action :: rest, run, result =>
    action.Due run.state ∧
      match action.perform config run with
      | .ok _ middle => Follows config rest middle result
      | .error e final => result = .error e final

theorem follows_single {action : Action} (due : action.Due run.state) :
    Follows config [action] run (action.perform config run) := by
  refine ⟨due, ?_⟩
  cases action.perform config run with
  | ok _ middle => rfl
  | error e final => rfl

/-- What a run does after it has followed a list of actions. -/
theorem Follows.append {first second : List Action}
    {result later : Result (Run (BeaconState preset)) Unit} (done : Follows config first run result)
    (rest : ∀ middle, result = .ok () middle → Follows config second middle later)
    (failed : ∀ e final, result = .error e final → later = .error e final) :
    Follows config (first ++ second) run later := by
  induction first generalizing run with
  | nil => exact rest run done
  | cons action first ih =>
    obtain ⟨due, done⟩ := done
    refine ⟨due, ?_⟩
    cases ran : action.perform config run with
    | ok _ middle =>
      simp only [ran] at done
      exact ih done
    | error e final =>
      simp only [ran] at done
      exact failed e final done

/-- Two runs that follow their actions, one after the other, follow all of them. -/
theorem Follows.bind {first second : List Action} {step next : Step (Run (BeaconState preset)) Unit}
    (done : Follows config first run (step run))
    (rest : ∀ middle, step run = .ok () middle → Follows config second middle (next middle)) :
    Follows config (first ++ second) run ((step >>= fun _ => next) run) := by
  refine done.append ?_ fun e final failed => bind_of_error failed
  intro middle ran
  rw [bind_of_ok ran]
  exact rest middle ran

end BeaconState

/-! ### One slot within a phase -/

theorem Word.toNat_succ {word : UInt64} (room : word.toNat + 1 < 2 ^ 64) :
    (word + 1).toNat = word.toNat + 1 := by
  rw [UInt64.toNat_add]
  exact Nat.mod_eq_of_lt room

section Slot

variable {preset : Preset} {σ : Type} {next : Slot}

/-- Processes the epoch of a slot if the slot is its last. -/
def Run.endEpoch (chain : σ → Chain preset) (slot : Slot) (phase : Phase)
    (process : Step σ Report) : Step (Run σ) Unit :=
  if (slot.toNat + 1) % preset.slotsPerEpoch.toNat = 0 then
    Run.processEpoch chain phase process
  else pure ()

theorem Run.endEpoch_move {τ : Type} {place : τ → σ} {chain : τ → Chain preset}
    {chain' : σ → Chain preset} {slot : Slot} {phase : Phase} {process : Step τ Report}
    {process' : Step σ Report} (run : Run τ) (same : ∀ part, chain' (place part) = chain part)
    (moves : ∀ part, process' (place part) = Result.move place (process part)) :
    Run.endEpoch chain' slot phase process' (run.move place) =
      Result.move (Run.move place) (Run.endEpoch chain slot phase process run) := by
  unfold Run.endEpoch
  split
  · exact Run.processEpoch_move run same moves
  · rfl

theorem Preset.isEpochEnd_eq_ok {slot : Slot} (later : next.toNat = slot.toNat + 1) :
    preset.isEpochEnd slot =
      .ok (decide ((slot.toNat + 1) % preset.slotsPerEpoch.toNat = 0)) := by
  have start : preset.isEpochStart next =
      decide ((slot.toNat + 1) % preset.slotsPerEpoch.toNat = 0) := by
    rw [Bool.eq_iff_iff, isEpochStart_iff, later, decide_eq_true_iff]
  rw [isEpochEnd_of_later later, start]

/-- Whether an epoch ends is a question of the slot alone, as long as there is a next one. -/
theorem State.closeEpoch_eq_endEpoch {Votes : Type} {phase : Phase}
    {processEpoch : Step (State preset Votes) Report} {run : Run (State preset Votes)}
    (later : next.toNat = run.state.chain.slot.toNat + 1) :
    State.closeEpoch phase processEpoch run =
      Run.endEpoch State.chain run.state.chain.slot phase processEpoch run := by
  unfold State.closeEpoch Run.endEpoch
  rw [get_bind_apply, Preset.isEpochEnd_eq_ok later, bind_of_ok (lift_ok_apply ..)]
  simp only [decide_eq_true_eq]
  split
  · rfl
  · rfl

theorem State.walkTo_next {Votes : Type} {phase : Phase}
    {processEpoch : Step (State preset Votes) Report} {run : Run (State preset Votes)}
    (later : next.toNat = run.state.chain.slot.toNat + 1) :
    State.walkTo phase processEpoch next run =
      (Run.endEpoch State.chain run.state.chain.slot phase processEpoch >>= fun _ =>
        Run.onState State.advanceSlot) run := by
  have ahead : run.state.chain.slot < next := by
    rw [UInt64.lt_iff_toNat_lt]
    omega
  have count : next.toNat - run.state.chain.slot.toNat = 1 := by omega
  unfold State.walkTo
  rw [get_bind_apply, if_pos ahead, count]
  simp only [State.walkSlots]
  rw [bind_pure_unit]
  exact bind_congr_left (closeEpoch_eq_endEpoch later)

end Slot

namespace BeaconState

variable {preset : Preset} {config : Config} {run final : Run (BeaconState preset)} {next : Slot}

theorem walkTo_next (later : next.toNat = run.state.slot.toNat + 1) :
    walkTo config next run =
      (Run.endEpoch BeaconState.chain run.state.slot run.state.phase (processEpoch config false)
        >>= fun _ => advanceSlot) run := by
  obtain ⟨start, rfl⟩ | ⟨phase, start, rfl⟩ := run.move_cases
  · rw [walkTo, Run.dispatch_pending, PendingState.walkTo, State.walkTo_next later]
    refine (bind_move ?_ fun _ part => advanceSlot_pending part).symm
    exact Run.endEpoch_move start (fun _ => rfl) fun part => dispatch_pending part
  · rw [walkTo, Run.dispatch_flagged, FlagState.walkTo, State.walkTo_next later]
    refine (bind_move ?_ fun _ part => advanceSlot_flagged phase part).symm
    exact Run.endEpoch_move start (fun _ => rfl) fun part => dispatch_flagged phase part

theorem processEpoch_keepsSlot {cancelled : Bool} {state after : BeaconState preset}
    {report : Report} (ran : processEpoch config cancelled state = .ok report after) :
    after.slot = state.slot := by
  obtain ⟨start, final, rfl, inner, rfl⟩ | ⟨phase, start, final, rfl, inner, rfl⟩ :=
    dispatch_eq_ok ran
  · exact pending_keepsSlot inner
  · exact flags_keepsSlot inner

theorem endEpoch_keepsSlot {slot : Slot} {phase : Phase}
    (ran : Run.endEpoch BeaconState.chain slot phase (processEpoch config false) run =
      .ok () final) : final.state.slot = run.state.slot := by
  unfold Run.endEpoch at ran
  split at ran
  · unfold Run.processEpoch at ran
    rw [get_bind_apply] at ran
    obtain ⟨report, _, processed, ran⟩ := bind_eq_ok_iff.mp ran
    obtain ⟨after, inner, rfl⟩ := zoom_eq_ok_iff.mp processed
    cases ran
    exact processEpoch_keepsSlot inner
  · cases ran
    rfl

/-- A walk to the next slot processes the epoch if it ends, and advances. -/
theorem walkTo_next_follows (later : next.toNat = run.state.slot.toNat + 1) :
    Follows config
      ((if (run.state.slot.toNat + 1) % preset.slotsPerEpoch.toNat = 0 then
        [.epoch run.state.phase run.state.slot] else []) ++ [.advance run.state.slot])
      run (walkTo config next run) := by
  rw [walkTo_next later]
  refine Follows.bind ?_ fun middle ran => follows_single (endEpoch_keepsSlot ran)
  unfold Run.endEpoch
  split
  · exact follows_single ⟨rfl, rfl⟩
  · rfl

/-! ### The phases that start at a slot -/

/-- At a slot that no phase ahead has started before, a walk enters those that start there. -/
theorem entries_follow (valid : config.validate = .ok ()) {slot : Slot} {ahead : List FlagPhase}
    (follows : run.state.phase.later = ahead) (there : run.state.slot = slot)
    (due : ∀ flag ∈ ahead, slot.toNat ≤ config.start preset flag.toPhase) :
    Follows config (config.entries preset slot ahead) run (travel config slot ahead run) := by
  induction ahead generalizing run with
  | nil => exact reach_of_not_lt (there ▸ UInt64.lt_irrefl _)
  | cons next ahead ih =>
    have arrived : ¬run.state.slot < slot := there ▸ UInt64.lt_irrefl _
    by_cases starts : config.startsAt preset slot next = true
    · have started : next.toPhase ≤ config.phaseAtSlot preset slot :=
        (Config.le_phaseAtSlot_iff valid).mpr (Nat.le_of_eq (Config.startsAt_iff.mp starts))
      have onward : run.state.phase < config.phaseAtSlot preset slot :=
        Nat.lt_of_lt_of_le (Phase.lt_of_mem_later (follows ▸ List.mem_cons_self)) started
      have opened : (config.forkSlot? preset next.toPhase).filter (· ≤ slot) = some slot :=
        Option.filter_eq_some_iff.mpr ⟨of_decide_eq_true starts, by simp⟩
      have entering : Action.Due run.state (.upgrade next slot) :=
        ⟨there, by rw [follows, List.head?_cons]⟩
      rw [Config.entries_cons starts, travel_across (.inr onward) opened,
        bind_of_ok (reach_of_not_lt arrived)]
      refine Follows.bind (follows_single entering) fun middle ran => ?_
      refine ih (later_of_enter follows ran) ((slot_of_enter ran).trans there) ?_
      exact fun flag listed => due flag (List.mem_cons_of_mem _ listed)
    · have beyond : slot.toNat < config.start preset next.toPhase :=
        Nat.lt_of_le_of_ne (due next List.mem_cons_self) fun equal =>
          starts (Config.startsAt_iff.mpr equal.symm)
      have last : ¬run.state.phase < config.phaseAtSlot preset slot := fun onward =>
        Nat.not_le.mpr beyond ((Config.le_phaseAtSlot_iff valid).mp (Phase.next_le follows onward))
      rw [travel_done (not_or.mpr ⟨arrived, last⟩), Config.entries_eq_nil]
      · rfl
      · -- the phases after one that starts later start later, too
        intro flag listed
        have order : next.toPhase ≤ flag.toPhase := by
          rcases List.mem_cons.mp listed with rfl | listed
          · exact Nat.le_refl _
          · rw [← Phase.later_toPhase follows] at listed
            exact Nat.le_of_lt (Phase.lt_of_mem_later listed)
        rw [Bool.eq_false_iff, Ne, Config.startsAt_iff]
        exact Nat.ne_of_gt (Nat.lt_of_lt_of_le beyond (Config.start_le_start valid order))

/-! ### Slot by slot -/

theorem resume_done (there : run.state.slot = target)
    (last : ¬run.state.phase < config.phaseAtSlot preset target) :
    resume config target run = .ok () run := by
  have arrived : ¬run.state.slot < target := there ▸ UInt64.lt_irrefl _
  unfold resume
  cases run.state.phase.later with
  | nil => exact reach_of_not_lt arrived
  | cons next ahead => exact travel_done (not_or.mpr ⟨arrived, last⟩)

section Next

variable (valid : config.validate = .ok ())
  (scheduled : run.state.phase = config.phaseAtSlot preset run.state.slot)
  (later : next.toNat = run.state.slot.toNat + 1)

include valid scheduled later

/-- A phase that is ahead of the schedule has not started. -/
theorem le_start_of_mem_later {flag : FlagPhase} (ahead : flag ∈ run.state.phase.later) :
    next.toNat ≤ config.start preset flag.toPhase := by
  have further := Phase.lt_of_mem_later ahead
  rw [later]
  refine Nat.lt_of_not_le fun started => ?_
  rw [← Config.le_phaseAtSlot_iff valid, ← scheduled] at started
  exact Nat.not_le.mpr further started

/-- A walk to the next slot of a state that is on schedule reaches the slot before it passes any
fork. -/
theorem resume_next :
    resume config next run = (walkTo config next >>= fun _ => resume config next) run := by
  have ahead : run.state.slot < next := by
    rw [UInt64.lt_iff_toNat_lt]
    omega
  -- without a fork on the way nothing is left to do at the next slot
  have within (closed : ¬run.state.phase < config.phaseAtSlot preset next)
      (walks : resume config next run = walkTo config next run) :
      resume config next run = (walkTo config next >>= fun _ => resume config next) run := by
    rw [walks]
    refine (bind_eq_left fun middle ran => ?_).symm
    obtain ⟨slot, phase⟩ := walkTo_eq_ok ran
    exact resume_done slot (phase ▸ closed)
  cases follows : run.state.phase.later with
  | nil =>
    refine within (Phase.not_lt_of_later_eq_nil follows _) ?_
    rw [resume, follows]
    exact reach_of_lt ahead
  | cons flag rest =>
    cases opened : (config.forkSlot? preset flag.toPhase).filter (· ≤ next) with
    | none =>
      refine within (Config.not_lt_phaseAtSlot follows opened) ?_
      rw [resume, follows]
      exact travel_within follows ahead opened
    | some fork =>
      obtain ⟨forked, reached⟩ := Option.filter_eq_some_iff.mp opened
      have start := Config.forkSlot?_eq_some_iff_start.mp forked
      obtain rfl : fork = next := by
        refine UInt64.le_antisymm (by simpa using reached) (UInt64.le_iff_toNat_le.mpr ?_)
        rw [← start]
        exact le_start_of_mem_later valid scheduled later (follows ▸ List.mem_cons_self)
      have passed : run.state.phase < config.phaseAtSlot preset fork := by
        refine Nat.lt_of_lt_of_le (Phase.lt_of_mem_later (follows ▸ List.mem_cons_self)) ?_
        exact (Config.le_phaseAtSlot_iff valid).mpr (Nat.le_of_eq start)
      rw [resume, follows, travel_across (.inl ahead) opened, bind_congr_left (reach_of_lt ahead)]
      refine bind_congr fun _ middle ran => ?_
      obtain ⟨slot, phase⟩ := walkTo_eq_ok ran
      rw [resume, phase, follows, travel_across (.inr (phase ▸ passed)) opened,
        bind_of_ok (reach_of_not_lt (slot ▸ UInt64.lt_irrefl _))]

/-- A state on schedule that walks to the next slot does what is on the agenda. -/
theorem resume_next_follows :
    Follows config (config.agendaAt preset run.state.slot) run (resume config next run) := by
  have following : run.state.slot + 1 = next := by
    rw [← UInt64.toNat_inj, later]
    exact Word.toNat_succ (later ▸ next.toNat_lt)
  have none : ∀ flag : FlagPhase, flag.toPhase ≤ run.state.phase →
      config.startsAt preset next flag = false := by
    intro flag early
    rw [scheduled, Config.le_phaseAtSlot_iff valid] at early
    rw [Bool.eq_false_iff, Ne, Config.startsAt_iff]
    omega
  rw [resume_next valid scheduled later, Config.agendaAt, following, Config.entries,
    Phase.filter_later_phase0 none, ← Config.entries, ← scheduled]
  refine Follows.bind (walkTo_next_follows later) fun middle ran => ?_
  obtain ⟨slot, phase⟩ := walkTo_eq_ok ran
  rw [← phase]
  refine entries_follow valid rfl slot fun flag listed => ?_
  exact le_start_of_mem_later valid scheduled later (phase ▸ listed)

end Next

/-- A run that resumes arrives at its target, in the phase of the target unless it was in a later
one. -/
theorem resume_eq_ok (valid : config.validate = .ok ()) (before : run.state.slot ≤ target)
    (ran : resume config target run = .ok () final) :
    final.state.slot = target ∧
      final.state.phase = max run.state.phase (config.phaseAtSlot preset target) :=
  travel_arrives valid rfl before ran

/-- A state that is on schedule is on schedule again where a walk has ended. -/
theorem resume_scheduled (valid : config.validate = .ok ())
    (scheduled : run.state.phase = config.phaseAtSlot preset run.state.slot)
    (before : run.state.slot ≤ target) (ran : resume config target run = .ok () final) :
    final.state.phase = config.phaseAtSlot preset target := by
  rw [(resume_eq_ok valid before ran).2, scheduled]
  exact Phase.max_of_le (Config.phaseAtSlot_mono valid before)

/-- **A walk does what the schedule says.** The induction is on the slots ahead: a walk may stop at
the next slot, and a state that is on schedule then is on schedule again. -/
theorem resume_follows (valid : config.validate = .ok ())
    (scheduled : run.state.phase = config.phaseAtSlot preset run.state.slot) {count : Nat}
    (distance : target.toNat = run.state.slot.toNat + count) :
    Follows config (config.agenda preset run.state.slot count) run
      (resume config target run) := by
  induction count generalizing run with
  | zero =>
    obtain rfl : target = run.state.slot := UInt64.toNat_inj.mp distance
    exact resume_done rfl (scheduled ▸ Nat.lt_irrefl _)
  | succ count ih =>
    have room := target.toNat_lt
    have later : (run.state.slot + 1).toNat = run.state.slot.toNat + 1 :=
      Word.toNat_succ (by omega)
    have before : run.state.slot ≤ run.state.slot + 1 := by
      rw [UInt64.le_iff_toNat_le]
      omega
    have ahead : run.state.slot + 1 ≤ target := by
      rw [UInt64.le_iff_toNat_le]
      omega
    have stages : resume config target run =
        (resume config (run.state.slot + 1) >>= fun _ => resume config target) run := by
      rcases UInt64.le_iff_lt_or_eq.mp ahead with short | rfl
      · exact travel_split rfl before short
      · refine (bind_eq_left fun middle ran => ?_).symm
        refine resume_done (resume_eq_ok valid before ran).1 ?_
        rw [resume_scheduled valid scheduled before ran]
        exact Nat.lt_irrefl _
    rw [stages]
    refine Follows.bind (resume_next_follows valid scheduled later) fun middle ran => ?_
    have slot := (resume_eq_ok valid before ran).1
    rw [← slot]
    refine ih ?_ ?_
    · rw [slot]
      exact resume_scheduled valid scheduled before ran
    · rw [slot]
      omega

/-! ## Fork walks -/

/-- **A walk ends where the schedule says.** Under any configuration the walk is a loop that makes
progress in each turn and is over after at most four; a target that is not later is refused, and
nothing changes. If forks are in order, then a walk that succeeds ends at its target, in the phase
of the target unless it has started in a later one. If moreover it starts on schedule, then it does
what is on the agenda of the slots up to the target, each action in its slot and phase, and nothing
else. -/
theorem processSlots_on_schedule (config : Config) (target : Slot)
    (run : Run (BeaconState preset)) :
    (∀ spare, loopSlots config target (4 + spare) run =
      (processSlots config target >>= fun _ => pure .arrived) run) ∧
    (target ≤ run.state.slot →
      processSlots config target run = .error (.slotNotLater run.state.slot target) run) ∧
    (config.validate = .ok () → run.state.slot < target →
      (∀ final, processSlots config target run = .ok () final →
        final.state.slot = target ∧
          final.state.phase = max run.state.phase (config.phaseAtSlot preset target)) ∧
      (run.state.phase = config.phaseAtSlot preset run.state.slot →
        Follows config
          (config.agenda preset run.state.slot (target.toNat - run.state.slot.toNat)) run
          (processSlots config target run))) := by
  refine ⟨fun spare => loopSlots_eq_processSlots spare, ?refused, ?valid⟩
  case refused =>
    intro behind
    exact processSlots_of_not_lt (UInt64.not_lt.mpr behind)
  case valid =>
    intro valid ahead
    rw [processSlots_of_lt ahead]
    refine ⟨fun final ran => resume_eq_ok valid (UInt64.le_of_lt ahead) ran, fun scheduled => ?_⟩
    refine resume_follows valid scheduled ?_
    rw [UInt64.lt_iff_toNat_lt] at ahead
    omega

/-- A schedule with two forks at the end of the first epoch. -/
def twoForks : Config :=
  { Config.minimal with altairForkEpoch := 1, bellatrixForkEpoch := 1 }

/-- A state in the last slot of the first epoch. -/
def lastSlot : BeaconState .minimal :=
  (empty .minimal).withChain { Chain.empty .minimal with slot := 7 }

/-- Over two forks at the end of the first epoch the epoch is processed under the rules of Phase 0,
and then both phases are entered. -/
theorem processSlots_on_schedule_twoForks :
    ∃ final, processSlots twoForks 8 ⟨lastSlot, #[]⟩ = .ok () final ∧
      final.state.slot = 8 ∧ final.state.phase = .bellatrix ∧
      Follows twoForks
        [.epoch .phase0 7, .advance 7, .upgrade .altair 8, .upgrade .bellatrix 8]
        ⟨lastSlot, #[]⟩ (.ok () final) ∧
      processSlots twoForks 7 ⟨lastSlot, #[]⟩ =
        .error (.slotNotLater 7 7) ⟨lastSlot, #[]⟩ := by
  have fine : (match processSlots twoForks 8 ⟨lastSlot, #[]⟩ with
    | .ok .. => true
    | .error .. => false) = true := by decide +kernel
  obtain ⟨-, -, onward⟩ := processSlots_on_schedule twoForks 8 ⟨lastSlot, #[]⟩
  obtain ⟨-, refused, -⟩ := processSlots_on_schedule twoForks 7 ⟨lastSlot, #[]⟩
  obtain ⟨arrives, follows⟩ := onward rfl (by decide)
  cases ran : processSlots twoForks 8 ⟨lastSlot, #[]⟩ with
  | error e final =>
    rw [ran] at fine
    cases fine
  | ok _ final =>
    obtain ⟨slot, phase⟩ := arrives final ran
    refine ⟨final, rfl, slot, phase.trans (by decide), ?_, refused (by decide)⟩
    rw [← ran]
    exact follows (by decide)

end BeaconState

end BeaconEpoch
