import BeaconEpoch.Proofs.Accounting.Votes
import BeaconEpoch.Proofs.Walk
import Mathlib.Data.List.Forall2

/-!
# Transparent caches

Nobody can tell two states apart that differ in their caches only, as long as both caches are
coherent: not by what a call returns, and not by what it leaves behind for later calls.

## Main definitions

* `State.Twins`, `BeaconState.Twins`: states that agree in all but their caches, which are coherent.
* `BeaconState.SweptByActive`: an epoch has swept with the active stake of its chain.
* `Call`, `trace`: what may be asked of a state, and what a sequence of calls ends with one by one.

## Main statements

* `BeaconState.processEpoch_agree`, `BeaconState.processSlots_agree`: epochs and walks of twins end
  alike.
* `trace_transparent`: so does every sequence of calls, and the divisor of every sweep is the active
  stake that rewards were computed with.

## Design notes

* **One law per step.** Each step maps twins to twins, whether it succeeds or fails; sequences and
  loops of steps then do so as well, by `Step.Agree.bind` and induction.
-/

namespace BeaconEpoch

open Step

/-! ## Twins -/

/-- Two states that agree in all but their caches, which are coherent. -/
structure State.Twins {preset : Preset} {Votes : Type} (state other : State preset Votes) : Prop
    where
  chain : other.chain = state.chain
  votes : other.votes = state.votes
  cache : state.cache.CoherentWith state.chain
  otherCache : other.cache.CoherentWith state.chain

namespace State

variable {preset : Preset} {Votes α : Type} {state other : State preset Votes}

namespace Twins

/-- Given one of two twins and the cache of the other, there is nothing left to choose. -/
theorem eq (twins : state.Twins other) : { state with cache := other.cache } = other := by
  obtain ⟨chain, votes, cache⟩ := other
  obtain ⟨rfl, rfl, _, _⟩ := twins
  rfl

/-- The other cache is coherent with its own chain, which is the same. -/
theorem otherCoherent (twins : state.Twins other) : other.cache.CoherentWith other.chain :=
  twins.chain ▸ twins.otherCache

/-- Votes that are changed in the same way stay the same, and no cache knows of them. -/
theorem withVotes (twins : state.Twins other) (change : Votes → Votes) :
    Twins { state with votes := change state.votes } { other with votes := change other.votes }
    where
  chain := twins.chain
  votes := congrArg change twins.votes
  cache := twins.cache
  otherCache := twins.otherCache

end Twins

/-! ### Pieces of an epoch -/

/-- A question that has an answer of its own is answered alike whatever the caches know, and they
stay coherent. Every other step agrees because it looks things up through this one. -/
theorem ask_agree {question : Chain preset → Lookup α}
    (answer : state.chain.HasAnswer (question state.chain)) (twins : state.Twins other) :
    Agree Twins (ask question state) (ask question other) := by
  obtain ⟨answer, answers⟩ := answer
  obtain ⟨cache, coherent, ran⟩ := answers _ twins.cache
  obtain ⟨cache', coherent', ran'⟩ := answers _ twins.otherCache
  simp only [ask, zoom, twins.chain, ran, ran']
  cases answer with
  | ok a => exact .ok a ⟨rfl, twins.votes, coherent, coherent'⟩
  | error e => exact .error e ⟨rfl, twins.votes, coherent, coherent'⟩

/-- Settling never looks into the cache, and a cache that fitted the chain still fits it afterwards:
balances are not among the duties. -/
theorem settle_agree (records : Array Record) (deltas : Array Delta) (twins : state.Twins other) :
    Agree Twins (settle records deltas state) (settle records deltas other) := by
  simp only [settle, twins.chain]
  cases settled : Books.settle deltas ⟨state.chain, records⟩ with
  | ok _ books =>
    refine .ok _ ?_
    have same := (Books.settle_eq_ok settled).1.sameDuties
    exact ⟨rfl, twins.votes, twins.cache.congr same, twins.otherCache.congr same⟩
  | error e books =>
    refine .error e ?_
    rw [Books.settle_eq_error settled]
    exact ⟨rfl, twins.votes, twins.cache, twins.otherCache⟩

/-- The sweep changes balances only, so it is blind to caches and breaks none. -/
theorem slash_agree (active : GweiSum) (multiplier : Nat) (twins : state.Twins other) :
    Agree Twins (slash active multiplier state) (slash active multiplier other) := by
  unfold slash
  rw [get_bind_apply, get_bind_apply, twins.chain]
  cases swept : state.chain.slash PenaltyLog.keep active multiplier with
  | ok result =>
    obtain ⟨balances, _, equal⟩ := Chain.slash_eq_ok swept
    refine .ok _ ⟨rfl, twins.votes, ?_, ?_⟩
    · rw [equal]
      exact twins.cache.congr ⟨rfl, rfl, rfl⟩
    · rw [equal]
      exact twins.otherCache.congr ⟨rfl, rfl, rfl⟩
  | error e => exact .error e twins

/-- What follows the plan of an epoch agrees as well. The divisor of the sweep is the one thing that
is looked up here. -/
theorem conclude_agree (phase : Phase) (amend : Votes → Votes) (rotate : Votes → Nat → Votes)
    (plan : Plan) (twins : state.Twins other) :
    Agree Twins (conclude phase amend rotate plan state)
      (conclude phase amend rotate plan other) := by
  refine (settle_agree _ _ twins).bind ?_
  intro records state other twins
  refine Agree.bind (.ok _ (twins.withVotes amend)) fun _ state other twins => ?_
  refine (ask_agree ⟨_, Chain.lookupTotalActive_answers⟩ twins).bind ?_
  intro active state other twins
  refine (slash_agree _ _ twins).bind ?_
  intro penalties state other twins
  refine .ok _ ⟨twins.chain, ?_, twins.cache, twins.otherCache⟩
  show rotate other.votes other.chain.validators.size = rotate state.votes _
  rw [twins.chain, twins.votes]

/-- A plan and its conclusion agree, whatever the votes are. -/
theorem ask_conclude_agree {question : Chain preset → Lookup Plan}
    (answer : state.chain.HasAnswer (question state.chain)) (phase : Phase)
    (amend : Plan → Votes → Votes) (rotate : Votes → Nat → Votes) (twins : state.Twins other) :
    Agree Twins ((ask question >>= fun plan => conclude phase (amend plan) rotate plan) state)
      ((ask question >>= fun plan => conclude phase (amend plan) rotate plan) other) := by
  refine (ask_agree answer twins).bind ?_
  intro plan state other twins
  exact conclude_agree phase (amend plan) rotate plan twins

/-! ### Epochs -/

/-- A Phase 0 epoch ends alike on twins: the plan is a question, and the rest concludes it. -/
theorem processPending_agree (config : Config) (cancelled : Bool)
    {state other : PendingState preset} (twins : state.Twins other) :
    Agree Twins (processPending config cancelled state)
      (processPending config cancelled other) := by
  unfold processPending
  rw [get_bind_apply, get_bind_apply, twins.votes]
  refine ask_conclude_agree ?_ .phase0 (fun _ => id) _ twins
  exact Chain.planPending_hasAnswer ..

/-- An epoch with flags does so by the same argument. -/
theorem processFlags_agree (config : Config) (phase : Phase) (cancelled : Bool)
    {state other : FlagState preset} (twins : state.Twins other) :
    Agree Twins (processFlags config phase cancelled state)
      (processFlags config phase cancelled other) := by
  unfold processFlags
  rw [get_bind_apply, get_bind_apply, twins.votes]
  refine ask_conclude_agree ?_ phase (fun plan votes => votes.withScores plan.scores) _ twins
  exact Chain.planFlags_hasAnswer ..

end State

/-! ## Runs -/

namespace Run

variable {σ α : Type} {preset : Preset}

/-- Two runs with the same journal and related states. -/
structure Pairs (related : σ → σ → Prop) (run other : Run σ) : Prop where
  state : related run.state other.state
  journal : other.journal = run.journal

variable {related : σ → σ → Prop} {run other : Run σ}

/-- A step on the state keeps two runs paired, because it cannot write to the journal. -/
theorem onState_agree {step : Step σ α}
    (agree : Agree related (step run.state) (step other.state))
    (journal : other.journal = run.journal) :
    Agree (Pairs related) (onState step run) (onState step other) := by
  rw [onState, zoom_apply, zoom_apply]
  exact agree.move fun _ _ states => ⟨states, journal⟩

/-- Neither run hears more than the other. -/
theorem record_agree (event : Event) (pairs : Pairs related run other) :
    Agree (Pairs related) (record event run) (record event other) :=
  .ok _ ⟨pairs.state, congrArg (·.push event) pairs.journal⟩

end Run

/-! ## Walks within a phase -/

namespace State

variable {preset : Preset} {Votes : Type}

/-- The slot advances alike. A cache stays coherent across the boundary of an epoch because it moves
along with the epoch. -/
theorem advanceSlot_agree {state other : State preset Votes} (twins : state.Twins other) :
    Agree Twins (advanceSlot state) (advanceSlot other) := by
  unfold advanceSlot
  rw [get_bind_apply, get_bind_apply, twins.chain]
  cases next : Word.checked (state.chain.slot.toNat + 1) with
  | ok slot =>
    have later := (Word.checked_eq_ok_iff.mp next).symm
    exact .ok _ ⟨rfl, twins.votes, twins.cache.advanceTo later, twins.otherCache.advanceTo later⟩
  | error e => exact .error e twins

section Walk

variable {phase : Phase} {processEpoch : Step (State preset Votes) Report}
  (epochs : ∀ {state other : State preset Votes}, state.Twins other →
    Agree Twins (processEpoch state) (processEpoch other))
  {run other : Run (State preset Votes)}

include epochs

/-- Both runs process an epoch or neither does, since this is up to the slot alone. -/
theorem closeEpoch_agree (pairs : Run.Pairs Twins run other) :
    Agree (Run.Pairs Twins) (closeEpoch phase processEpoch run)
      (closeEpoch phase processEpoch other) := by
  unfold closeEpoch
  rw [get_bind_apply, get_bind_apply, pairs.state.chain]
  refine (Agree.lift _ pairs).bind ?_
  intro ends run other pairs
  split
  · refine (Run.onState_agree (epochs pairs.state) pairs.journal).bind
      fun report run other pairs => ?_
    exact Run.record_agree _ pairs
  · exact .ok _ pairs

/-- One turn of the walk: the epoch is closed if it ends here, then the slot advances. -/
theorem walkSlot_agree (pairs : Run.Pairs Twins run other) :
    Agree (Run.Pairs Twins) (walkSlot phase processEpoch run)
      (walkSlot phase processEpoch other) := by
  refine (closeEpoch_agree epochs pairs).bind ?_
  intro _ run other pairs
  exact Run.onState_agree (advanceSlot_agree pairs.state) pairs.journal

/-- Any number of turns, by induction on how many are left. -/
theorem walkSlots_agree (count : Nat) (pairs : Run.Pairs Twins run other) :
    Agree (Run.Pairs Twins) (walkSlots phase processEpoch count run)
      (walkSlots phase processEpoch count other) := by
  induction count generalizing run other with
  | zero => exact .ok _ pairs
  | succ count ih => exact (walkSlot_agree epochs pairs).bind fun _ _ _ pairs => ih pairs

/-- A walk within a phase takes as many turns on either run. -/
theorem walkTo_agree (target : Slot) (pairs : Run.Pairs Twins run other) :
    Agree (Run.Pairs Twins) (walkTo phase processEpoch target run)
      (walkTo phase processEpoch target other) := by
  unfold walkTo
  rw [get_bind_apply, get_bind_apply, pairs.state.chain]
  split
  · exact walkSlots_agree epochs _ pairs
  · exact .error _ pairs

end Walk

end State

/-! ## All phases -/

namespace BeaconState

variable {preset : Preset} {α : Type}

/-- Two states of the same phase that agree in all but their caches, which are coherent. -/
inductive Twins : BeaconState preset → BeaconState preset → Prop
  | pending {state other : PendingState preset} (twins : state.Twins other) :
    Twins (.pending state) (.pending other)
  | flagged (phase : FlagPhase) {state other : FlagState preset} (twins : state.Twins other) :
    Twins (.flagged phase state) (.flagged phase other)

/-- Twins as a caller knows them: with the cache of the other a state is the other, and each cache
is coherent with the chain that it comes with. -/
theorem twins_iff {state other : BeaconState preset} :
    state.Twins other ↔
      state.withCache other.cache = other ∧ state.cache.CoherentWith state.chain ∧
        other.cache.CoherentWith other.chain := by
  constructor
  · intro twins
    cases twins with
    | pending twins => exact ⟨congrArg pending twins.eq, twins.cache, twins.otherCoherent⟩
    | flagged phase twins =>
      exact ⟨congrArg (flagged phase) twins.eq, twins.cache, twins.otherCoherent⟩
  · rintro ⟨same, cache, otherCache⟩
    cases state with
    | pending state =>
      rw [← same]
      rw [← same] at otherCache
      exact .pending ⟨rfl, rfl, cache, otherCache⟩
    | flagged phase state =>
      rw [← same]
      rw [← same] at otherCache
      exact .flagged phase ⟨rfl, rfl, cache, otherCache⟩

namespace Twins

variable {state other : BeaconState preset}

theorem slot (twins : state.Twins other) : other.slot = state.slot := by
  cases twins with
  | pending twins => exact congrArg Chain.slot twins.chain
  | flagged phase twins => exact congrArg Chain.slot twins.chain

theorem phase (twins : state.Twins other) : other.phase = state.phase := by
  cases twins <;> rfl

end Twins

/-- A choice by phase is the same choice for twins, so it is enough that each phase agrees. -/
theorem dispatch_agree {pending : Step (PendingState preset) α}
    {flagged : FlagPhase → Step (FlagState preset) α}
    (pendingAgree : ∀ {state other}, State.Twins state other →
      Agree State.Twins (pending state) (pending other))
    (flaggedAgree : ∀ phase {state other}, State.Twins state other →
      Agree State.Twins (flagged phase state) (flagged phase other))
    {state other : BeaconState preset} (twins : state.Twins other) :
    Agree Twins (dispatch pending flagged state) (dispatch pending flagged other) := by
  cases twins with
  | pending twins =>
    rw [dispatch_pending, dispatch_pending]
    exact (pendingAgree twins).move fun _ _ twins => .pending twins
  | flagged phase twins =>
    rw [dispatch_flagged, dispatch_flagged]
    exact (flaggedAgree phase twins).move fun _ _ twins => .flagged phase twins

/-- An epoch of twins ends alike in every phase. -/
theorem processEpoch_agree (config : Config) (cancelled : Bool) {state other : BeaconState preset}
    (twins : state.Twins other) :
    Agree Twins (processEpoch config cancelled state) (processEpoch config cancelled other) :=
  dispatch_agree (State.processPending_agree config cancelled)
    (fun phase => State.processFlags_agree config phase.toPhase cancelled) twins

/-! ### The divisor of the sweep -/

/-- The divisor that an epoch gives to its sweep, which is what the lookup after settling finds, is
the total that rewards were computed with, and this is the active stake of the chain. -/
def SweptByActive (config : Config) (cancelled : Bool) (state after : BeaconState preset)
    (report : Report) : Prop :=
  report.totals.activeCurrent = state.chain.totalActive state.chain.currentEpoch ∧
    ∃ (plan : Plan) (cache : Cache) (books : Books preset),
      state.plan config cancelled = .ok plan cache ∧
      plan.tally.totals = report.totals ∧
      Books.settle plan.deltas ⟨state.chain, plan.tally.records⟩ = .ok () books ∧
      books.chain.lookupTotalActive cache = .ok report.totals.activeCurrent after.cache ∧
      books.chain.slash PenaltyLog.keep report.totals.activeCurrent
        (preset.slashingMultiplier state.phase) = .ok (after.chain, report.slashingPenalties)

end BeaconState

/-- The sweep divides by the total of the plan. It looks the total up again after settling, in the
cache that the plan has left; this is coherent with the settled chain, which has the same active
stake. -/
theorem State.ask_conclude_sweeps {preset : Preset} {Votes : Type}
    {state final : State preset Votes} {question : Chain preset → Lookup Plan} {phase : Phase}
    {amend : Plan → Votes → Votes} {rotate : Votes → Nat → Votes} {report : Report}
    (coherent : state.cache.CoherentWith state.chain)
    (answer : state.chain.HasAnswer (question state.chain))
    (counts : Step.Sound (fun _ => True) (fun _ => True)
      (fun plan => state.chain.CountsActive plan.tally.totals) (question state.chain))
    (ran : (ask question >>= fun plan => conclude phase (amend plan) rotate plan) state =
      .ok report final) :
    report.totals.activeCurrent = state.chain.totalActive state.chain.currentEpoch ∧
      ∃ plan cache books,
        question state.chain state.cache = .ok plan cache ∧
        plan.tally.totals = report.totals ∧
        Books.settle plan.deltas ⟨state.chain, plan.tally.records⟩ = .ok () books ∧
        books.chain.lookupTotalActive cache = .ok report.totals.activeCurrent final.cache ∧
        books.chain.slash PenaltyLog.keep report.totals.activeCurrent
          (preset.slashingMultiplier phase) = .ok (final.chain, report.slashingPenalties) := by
  obtain ⟨plan, planned, asked, concluded⟩ := bind_eq_ok_iff.mp ran
  obtain ⟨cache, planning, rfl⟩ := ask_eq_ok_iff.mp asked
  obtain ⟨books, active, settled, looked, swept, totals, -⟩ := conclude_eq_ok concluded
  have counted :
      report.totals.activeCurrent = state.chain.totalActive state.chain.currentEpoch := by
    rw [totals]
    exact ((counts _ trivial).of_ok planning).2
  have divisor : active = report.totals.activeCurrent := by
    -- the cache that was planned with still fits the chain with settled balances
    have same := (Books.settle_eq_ok settled).1.sameDuties
    have still := (answer.coherent_of_ok coherent planning).congr same
    obtain ⟨after, _, ended⟩ := Chain.lookupTotalActive_answers cache still
    have found := (lift_eq_ok_iff.mp (ended.symm.trans looked)).1
    rw [counted, ← (GweiSum.checked_eq_ok_iff.mp found).2, same.currentEpoch,
      Chain.totalActive_congr same.validators]
  rw [divisor] at looked swept
  exact ⟨counted, plan, cache, books, planning, totals.symm, settled, looked, swept⟩

namespace BeaconState

/-- Every epoch that succeeds on a coherent cache is swept by the active stake of its chain. -/
theorem processEpoch_sweptByActive {config : Config} {cancelled : Bool}
    {state after : BeaconState preset} {report : Report}
    (coherent : state.cache.CoherentWith state.chain)
    (ran : processEpoch config cancelled state = .ok report after) :
    SweptByActive config cancelled state after report := by
  obtain ⟨start, final, rfl, inner, rfl⟩ | ⟨phase, start, final, rfl, inner, rfl⟩ :=
    dispatch_eq_ok ran
  · refine State.ask_conclude_sweeps coherent ?_ ?_ inner
    · exact Chain.planPending_hasAnswer ..
    · exact Chain.planPending_countsActive config cancelled start.votes
  · refine State.ask_conclude_sweeps coherent ?_ ?_ inner
    · exact Chain.planFlags_hasAnswer ..
    · exact Chain.planFlags_countsActive config phase.toPhase cancelled start.votes

/-! ### Walks -/

section Walk

variable {run other : Run (BeaconState preset)} (config : Config)

theorem runDispatch_agree {pending : Step (Run (PendingState preset)) α}
    {flagged : FlagPhase → Step (Run (FlagState preset)) α}
    (pendingAgree : ∀ {run other}, Run.Pairs State.Twins run other →
      Agree (Run.Pairs State.Twins) (pending run) (pending other))
    (flaggedAgree : ∀ phase {run other}, Run.Pairs State.Twins run other →
      Agree (Run.Pairs State.Twins) (flagged phase run) (flagged phase other))
    (pairs : Run.Pairs Twins run other) :
    Agree (Run.Pairs Twins) (Run.dispatch pending flagged run)
      (Run.dispatch pending flagged other) := by
  obtain ⟨state, journal⟩ := run
  obtain ⟨state', journal'⟩ := other
  obtain ⟨twins, journals⟩ := pairs
  cases twins with
  | @pending state other twins =>
    change Agree _ (Run.dispatch _ _ (Run.move .pending ⟨state, journal⟩))
      (Run.dispatch _ _ (Run.move .pending ⟨other, journal'⟩))
    rw [Run.dispatch_pending, Run.dispatch_pending]
    exact (pendingAgree ⟨twins, journals⟩).move fun _ _ runs =>
      ⟨.pending runs.state, runs.journal⟩
  | @flagged phase state other twins =>
    change Agree _ (Run.dispatch _ _ (Run.move (.flagged phase) ⟨state, journal⟩))
      (Run.dispatch _ _ (Run.move (.flagged phase) ⟨other, journal'⟩))
    rw [Run.dispatch_flagged, Run.dispatch_flagged]
    exact (flaggedAgree phase ⟨twins, journals⟩).move fun _ _ runs =>
      ⟨.flagged phase runs.state, runs.journal⟩

/-- A walk to a slot within the phase that the state is in. -/
theorem walkTo_agree (target : Slot) (pairs : Run.Pairs Twins run other) :
    Agree (Run.Pairs Twins) (walkTo config target run) (walkTo config target other) :=
  runDispatch_agree (State.walkTo_agree (State.processPending_agree config false) target)
    (fun phase => State.walkTo_agree (State.processFlags_agree config phase.toPhase false) target)
    pairs

/-- The translation of votes asks the chain for committees, and twins get the same ones; it succeeds
on both or fails with one error. -/
theorem toFlags_agree {state other : PendingState preset} (twins : state.Twins other) :
    (∃ next next', state.toFlags = .ok next ∧ other.toFlags = .ok next' ∧ next.Twins next') ∨
      ∃ e, state.toFlags = .error e ∧ other.toFlags = .error e := by
  obtain ⟨answer, answers⟩ : state.chain.HasAnswer _ :=
    Chain.creditAttestations_hasAnswer state.votes.previous
  obtain ⟨cache, coherent, ran⟩ := answers _ twins.cache
  obtain ⟨cache', coherent', ran'⟩ := answers _ twins.otherCache
  simp only [PendingState.toFlags, twins.chain, twins.votes, ran, ran']
  cases answer with
  | ok flags => exact .inl ⟨_, _, rfl, rfl, rfl, rfl, coherent, coherent'⟩
  | error e => exact .inr ⟨e, rfl, rfl⟩

/-- An upgrade succeeds on both twins or fails on both with one error. Only the one out of Phase 0
can fail. -/
theorem upgrade_agree (next : FlagPhase) {state other : BeaconState preset}
    (twins : state.Twins other) :
    (∃ entered entered', state.upgrade next = .ok entered ∧ other.upgrade next = .ok entered' ∧
        entered.Twins entered') ∨
      ∃ e, state.upgrade next = .error e ∧ other.upgrade next = .error e := by
  cases twins with
  | pending twins =>
    obtain ⟨entered, entered', ran, ran', twins⟩ | ⟨e, failed, failed'⟩ := toFlags_agree twins
    · refine .inl ⟨_, _, ?_, ?_, .flagged next twins⟩
      · simp only [upgrade, ran]
        rfl
      · simp only [upgrade, ran']
        rfl
    · refine .inr ⟨e, ?_, ?_⟩
      · simp only [upgrade, failed]
        rfl
      · simp only [upgrade, failed']
        rfl
  | flagged phase twins => exact .inl ⟨_, _, rfl, rfl, .flagged next twins⟩

/-- A fork is entered by both runs and journalled with the same slot, or by neither. -/
theorem enter_agree (next : FlagPhase) (pairs : Run.Pairs Twins run other) :
    Agree (Run.Pairs Twins) (enter next run) (enter next other) := by
  unfold enter
  rw [get_bind_apply, get_bind_apply]
  obtain ⟨entered, entered', ran, ran', twins⟩ | ⟨e, failed, failed'⟩ :=
    upgrade_agree next pairs.state
  · rw [ran, ran']
    refine .ok _ ⟨twins, ?_⟩
    show other.journal.push _ = run.journal.push _
    rw [twins.slot, pairs.journal]
  · rw [failed, failed']
    exact .error e pairs

/-- A state that is already there is left alone, on either run. -/
theorem reach_agree (target : Slot) (pairs : Run.Pairs Twins run other) :
    Agree (Run.Pairs Twins) (reach config target run) (reach config target other) := by
  unfold reach
  rw [get_bind_apply, get_bind_apply, pairs.state.slot]
  split
  · exact walkTo_agree config target pairs
  · exact .ok _ pairs

/-- The phases that lie ahead are gone through alike, by induction on them. -/
theorem travel_agree (target : Slot) (ahead : List FlagPhase)
    (pairs : Run.Pairs Twins run other) :
    Agree (Run.Pairs Twins) (travel config target ahead run)
      (travel config target ahead other) := by
  induction ahead generalizing run other with
  | nil => exact reach_agree config target pairs
  | cons next ahead ih =>
    unfold travel
    rw [get_bind_apply, get_bind_apply, pairs.state.slot, pairs.state.phase]
    -- twins have the same slot and phase, and the schedule knows nothing else of a state
    cases (config.forkSlot? preset next.toPhase).filter (· ≤ target) with
    | none =>
      split
      · refine (reach_agree config target pairs).bind fun _ run other pairs => ?_
        split
        · exact .error _ pairs
        · exact .ok _ pairs
      · exact .ok _ pairs
    | some fork =>
      split
      · refine (reach_agree config fork pairs).bind fun _ run other pairs => ?_
        exact (enter_agree next pairs).bind fun _ _ _ pairs => ih pairs
      · exact .ok _ pairs

/-- Advancing to a slot ends alike on twins, whatever forks are crossed on the way. -/
theorem processSlots_agree (target : Slot) (pairs : Run.Pairs Twins run other) :
    Agree (Run.Pairs Twins) (processSlots config target run)
      (processSlots config target other) := by
  unfold processSlots
  rw [get_bind_apply, get_bind_apply, pairs.state.slot, pairs.state.phase]
  split
  · exact travel_agree config target _ pairs
  · exact .error _ pairs

end Walk

end BeaconState

/-! ## Calls -/

/-- What may be asked of a state. -/
inductive Call
  /-- To advance to a slot. -/
  | slots (config : Config) (target : Slot)
  /-- To process an epoch, with the flag that tells it to stop. -/
  | epoch (config : Config) (cancelled : Bool)

variable {preset : Preset}

/-- A call as a step on a state; epochs return their report. -/
def Call.run : Call → Step (BeaconState preset) (Option Report)
  | slots config target => fun state =>
    match BeaconState.processSlots config target ⟨state, #[]⟩ with
    | .ok _ run => .ok none run.state
    | .error e run => .error e run.state
  | epoch config cancelled => some <$> BeaconState.processEpoch config cancelled

/-- What a result leaves, be it a success or a failure. -/
def Step.Result.state {σ α : Type} : Result σ α → σ
  | .ok _ state => state
  | .error _ state => state

/-- What a sequence of calls ends with one by one. Each call works on what the one before it has
left, also if that one has failed. -/
def trace : List Call → BeaconState preset → List (Result (BeaconState preset) (Option Report))
  | [], _ => []
  | call :: calls, state =>
    let result : Result (BeaconState preset) (Option Report) := call.run state
    result :: trace calls (Result.state result)

namespace Call

variable {state other : BeaconState preset}

/-- No call can tell twins apart, and it leaves twins behind. -/
theorem run_agree (call : Call) (twins : state.Twins other) :
    Agree BeaconState.Twins (call.run state) (call.run other) := by
  cases call with
  | slots config target =>
    have agree : Agree (Run.Pairs BeaconState.Twins)
        (BeaconState.processSlots config target ⟨state, #[]⟩)
        (BeaconState.processSlots config target ⟨other, #[]⟩) :=
      BeaconState.processSlots_agree config target ⟨twins, rfl⟩
    simp only [run]
    generalize BeaconState.processSlots config target ⟨state, #[]⟩ = result,
      BeaconState.processSlots config target ⟨other, #[]⟩ = result' at agree
    cases agree with
    | ok a runs => exact .ok none runs.state
    | error e runs => exact .error e runs.state
  | epoch config cancelled =>
    exact (BeaconState.processEpoch_agree config cancelled twins).bind
      fun report _ _ twins => .ok (some report) twins

end Call

/-- Nor can a sequence of calls, because each one starts from the twins that the call before it has
left, also if that one has failed. -/
theorem trace_agree (calls : List Call) {state other : BeaconState preset}
    (twins : state.Twins other) :
    List.Forall₂ (Agree BeaconState.Twins) (trace calls state) (trace calls other) := by
  induction calls generalizing state other with
  | nil => exact .nil
  | cons call calls ih =>
    have agree := call.run_agree twins
    refine .cons agree (ih ?_)
    -- a failed call leaves a state too, and the next call starts from it
    generalize call.run state = result, call.run other = result' at agree
    cases agree with
    | ok a states => exact states
    | error e states => exact states

/-- **Caches are transparent.** Let two states agree in everything but their caches, and let both
caches be coherent. Then every sequence of calls returns the same values and the same errors on
both, and after every call, failed ones included, the states again agree in everything but their
caches, and these are coherent. So the sweep of every epoch that succeeds divides by the active
stake of its chain, the total that rewards were computed with. -/
theorem trace_transparent (calls : List Call) {state other : BeaconState preset}
    (same : state.withCache other.cache = other)
    (coherent : state.cache.CoherentWith state.chain)
    (otherCoherent : other.cache.CoherentWith other.chain) :
    List.Forall₂ (Agree BeaconState.Twins) (trace calls state) (trace calls other) ∧
      ∀ {config cancelled report after},
        BeaconState.processEpoch config cancelled state = .ok report after →
          BeaconState.SweptByActive config cancelled state after report :=
  ⟨trace_agree calls (BeaconState.twins_iff.mpr ⟨same, coherent, otherCoherent⟩),
    fun ran => BeaconState.processEpoch_sweptByActive coherent ran⟩

/-- Calls that count votes, cross a fork, ask for a slot that has gone by, and end an epoch. -/
def mixedCalls : List Call :=
  [.slots BeaconState.threeForks 17, .slots BeaconState.threeForks 3,
    .epoch BeaconState.threeForks false]

/-- Eight validators whose shuffle is known to one of two states; and a single one, with a vote that
is counted, whose epoch succeeds with the shuffle that is known. -/
theorem trace_transparent_warmCache :
    (∃ indices,
      let cold : BeaconState .minimal := .pending BeaconState.twoVotes
      let warm := cold.withCache { Cache.empty with shuffled := ⟨some indices, none, none⟩ }
      cold.chain.shuffledIndices genesisEpoch = .ok indices ∧
        List.Forall₂ (Agree BeaconState.Twins) (trace mixedCalls cold) (trace mixedCalls warm)) ∧
      let warm : BeaconState .minimal := .pending soleVoter
      List.Forall₂ (Agree BeaconState.Twins) (trace mixedCalls warm)
          (trace mixedCalls (warm.withCache Cache.empty)) ∧
        ∃ report after,
          BeaconState.processEpoch Config.minimal false warm = .ok report after ∧
            BeaconState.SweptByActive Config.minimal false warm after report := by
  constructor
  · let cold : BeaconState .minimal := .pending BeaconState.twoVotes
    have few : cold.chain.validators.size < 2 ^ 40 := by decide
    obtain ⟨seed, seeded⟩ :
        ∃ seed, cold.chain.seed genesisEpoch beaconAttesterDomain = .ok seed := ⟨_, rfl⟩
    obtain ⟨indices, shuffled⟩ := Chain.shuffledIndices_of_seed few seeded
    have known : cold.chain.shuffledIndices (cold.chain.epochOf .previous) = .ok indices := by
      have previous : cold.chain.epochOf .previous = genesisEpoch := by decide
      rwa [previous]
    let warm := cold.withCache { Cache.empty with shuffled := ⟨some indices, none, none⟩ }
    have same : cold.withCache warm.cache = warm := rfl
    have coherent : cold.cache.CoherentWith cold.chain := .empty _
    have warmCoherent : warm.cache.CoherentWith warm.chain :=
      (Cache.CoherentWith.empty cold.chain).setShuffled known
    exact ⟨indices, shuffled, (trace_transparent mixedCalls same coherent warmCoherent).1⟩
  · let warm : BeaconState .minimal := .pending soleVoter
    let cold := warm.withCache Cache.empty
    have same : warm.withCache cold.cache = cold := rfl
    have coherent : warm.cache.CoherentWith warm.chain := soleVoter_coherent
    have coldCoherent : cold.cache.CoherentWith cold.chain := .empty _
    obtain ⟨agree, swept⟩ := trace_transparent mixedCalls same coherent coldCoherent
    have succeeds :
        Result.succeeds (BeaconState.processEpoch Config.minimal false warm) = true := by
      decide +kernel
    obtain ⟨report, after, ran⟩ := Result.eq_ok_of_succeeds succeeds
    exact ⟨agree, report, after, ran, swept ran⟩

end BeaconEpoch
