import BeaconEpoch.Epoch
import BeaconEpoch.Proofs.Coherence
import BeaconEpoch.Proofs.Sound

/-!
# How an epoch ends

An epoch first reads and then writes. The part that reads is a lookup, so its failures leave
everything but the cache alone. The part that writes can fail in its first piece only, before that
piece has written anything; the checks made there are the ones that the later pieces rely on.

## Main definitions

* `Chain.OnlyBalances`: two chains that differ in their balances at most.
* `BeaconState.FailsEarly`: an epoch fails before it writes.

## Main statements

* `State.settle_eq_ok`, `State.settle_eq_error`: settling writes one balance per validator, or
  nothing.
* `Chain.slash_eq_ok`, `Chain.slash_error`: the sweep writes balances, and fails on a registry of
  the right length only where its own sums do not fit.
* `Chain.planPending_eq_ok`, `Chain.planFlags_eq_ok`: what a plan has been made from.
* `State.conclude_eq_ok`, `State.conclude_eq_error`: the part that writes.
* `State.ask_conclude_eq_ok`, `State.ask_conclude_eq_error`: a plan and its conclusion.
* `BeaconState.processEpoch_atomic`: an epoch that returns an error has changed nothing but the
  cache.

## Design notes

* **Returned errors.** `arithmeticOverflow` stands for accounting that breaks off where it stands,
  so an error is a returned one if it is another.
-/

namespace BeaconEpoch

/-! ## Settling -/

/-- The second chain is the first one with other balances, of which there are as many. -/
def Chain.OnlyBalances {preset : Preset} (chain other : Chain preset) : Prop :=
  ∃ balances : Array Gwei,
    balances.size = chain.balances.size ∧ other = { chain with balances }

namespace Chain.OnlyBalances

variable {preset : Preset} {chain other : Chain preset}

theorem refl (chain : Chain preset) : chain.OnlyBalances chain := ⟨chain.balances, rfl, rfl⟩

theorem trans {last : Chain preset} (first : chain.OnlyBalances other)
    (second : other.OnlyBalances last) : chain.OnlyBalances last := by
  obtain ⟨balances, size, rfl⟩ := first
  obtain ⟨balances', size', rfl⟩ := second
  exact ⟨balances', size'.trans size, rfl⟩

/-- Balances are nobody's duty. -/
theorem sameDuties (only : chain.OnlyBalances other) : chain.SameDuties other := by
  obtain ⟨balances, _, rfl⟩ := only
  exact ⟨rfl, rfl, rfl⟩

end Chain.OnlyBalances

/-- Deltas are settled on a registry with one balance per validator, and change nothing but
balances. -/
theorem Books.settle_eq_ok {preset : Preset} {deltas : Array Delta} {books final : Books preset}
    (settled : Books.settle deltas books = .ok () final) :
    books.chain.OnlyBalances final.chain ∧
      final.chain.validators.size = final.chain.balances.size := by
  simp only [Books.settle] at settled
  split at settled
  · rename_i counts
    have sizes := counts.1.symm.trans counts.2.1
    split at settled
    · split at settled
      · split at settled
        · rename_i size
          cases settled
          exact ⟨⟨_, size, rfl⟩, sizes.trans size.symm⟩
        · cases settled
      · cases settled
    · cases settled
      exact ⟨.refl _, sizes⟩
  · cases settled

/-- Where deltas cannot be settled the chain stays as it is. -/
theorem Books.settle_eq_error {preset : Preset} {deltas : Array Delta} {books final : Books preset}
    {e : Error} (failed : Books.settle deltas books = .error e final) :
    final.chain = books.chain := by
  simp only [Books.settle] at failed
  split at failed
  · split at failed
    · split at failed
      · split at failed
        · cases failed
        · cases failed
          rfl
      · cases failed
        rfl
    · cases failed
  · cases failed
    rfl

/-! ## The sweep -/

namespace Chain

variable {preset : Preset} {chain other : Chain preset} {Log : Type} {log : PenaltyLog Log}

theorem slashingPenalties_size (active : GweiSum) (multiplier : Nat) :
    Sound (fun _ => True) (·.size = chain.validators.size)
      (chain.slashingPenalties active multiplier) := by
  unfold slashingPenalties
  split
  · refine (Sound.any _).bind fun slashedStake _ => ?_
    refine (Sound.mapM (fun _ => True) _ fun validator _ => Sound.any _).mono ?_
    exact fun penalties found => found.1
  · exact Array.size_map

/-- The sweep writes nothing but balances, of which there stay as many. -/
theorem slash_eq_ok {active : GweiSum} {multiplier : Nat} {collected : Log}
    (swept : chain.slash log active multiplier = .ok (other, collected)) :
    chain.OnlyBalances other := by
  unfold slash at swept
  split at swept
  · rename_i sizes
    have size := chain.slashingPenalties_size active multiplier
    cases found : chain.slashingPenalties active multiplier with
    | ok penalties =>
      have size : penalties.size = chain.validators.size := size.met_of_eq_ok found
      rw [found] at swept
      cases swept
      refine ⟨_, ?_, rfl⟩
      rw [Array.size_zipWith, size, sizes, Nat.min_self]
    | error e =>
      rw [found] at swept
      cases swept
  · cases swept

end Chain

/-! ### Errors of the sweep -/

theorem GweiSum.checked_error (n : Nat) :
    Sound (· = .arithmeticOverflow) (fun _ => True) (GweiSum.checked n) := by
  unfold checked
  split
  · trivial
  · rfl

theorem Preset.slashingPenalty_error (preset : Preset) (active slashedStake : GweiSum)
    (validator : Validator) :
    Sound (· = .arithmeticOverflow) (fun _ => True)
      (preset.slashingPenalty active slashedStake validator) := by
  refine (GweiSum.checked_error _).bind ?_
  intro numerator _
  exact (GweiSum.checked_error _).bind fun penalty _ => .pure trivial

namespace Chain

variable {preset : Preset} {chain : Chain preset}

/-- Nothing but an overflow goes wrong in the amounts of a sweep. -/
theorem slashingPenalties_error (active : GweiSum) (multiplier : Nat) :
    Sound (· = .arithmeticOverflow) (fun _ => True)
      (chain.slashingPenalties active multiplier) := by
  unfold slashingPenalties
  split
  · have stake : Sound (· = .arithmeticOverflow) (fun _ => True)
        (chain.slashedStake active multiplier) :=
      (GweiSum.checked_error _).bind fun slashed _ => .pure trivial
    refine stake.bind ?_
    intro slashedStake _
    refine (Sound.mapM (fun _ => True) _ fun validator _ => ?_).forget
    split
    · exact (preset.slashingPenalty_error active slashedStake validator).map
    · trivial
  · trivial

/-- On a registry with one balance per validator the sweep fails only where one of its own sums
does not fit. -/
theorem slash_error {Log : Type} (log : PenaltyLog Log) (active : GweiSum) (multiplier : Nat)
    (sizes : chain.validators.size = chain.balances.size) :
    Sound (· = .arithmeticOverflow) (fun _ => True) (chain.slash log active multiplier) := by
  unfold slash
  rw [if_pos sizes]
  exact (slashingPenalties_error active multiplier).bind fun penalties _ => .pure trivial

end Chain

/-! ## The part that reads -/

theorem Totals.checked_same (totals : Totals) :
    Sound (fun _ => True) (· = totals) totals.checked := by
  unfold checked
  split <;> trivial

namespace Chain

variable {preset : Preset} {chain : Chain preset}

/-- A plan is a question like any other: what is known beforehand does not change it. -/
theorem planPending_hasAnswer (config : Config) (cancelled : Bool) (votes : PendingVotes) :
    chain.HasAnswer (chain.planPending config cancelled votes) := by
  refine (HasAnswer.lift _).bind fun _ => ?_
  refine openPending_hasAnswer.bind ?_
  intro tally
  refine (HasAnswer.lift _).bind fun _ => ?_
  refine (countAttestations_hasAnswer votes tally).bind ?_
  intro tally
  refine (HasAnswer.lift _).bind fun _ => ?_
  refine (HasAnswer.lift _).bind ?_
  intro deltas
  exact (HasAnswer.lift _).bind fun _ => .pure _

theorem planFlags_hasAnswer (config : Config) (phase : Phase) (cancelled : Bool)
    (votes : FlagVotes) : chain.HasAnswer (chain.planFlags config phase cancelled votes) := by
  refine (HasAnswer.lift _).bind fun _ => ?_
  refine (openFlags_hasAnswer votes.inactivityScores).bind ?_
  intro tally
  iterate 5 refine (HasAnswer.lift _).bind fun _ => ?_
  exact .pure _

/-- What a plan has been made from. -/
theorem planPending_eq_ok {config : Config} {cancelled : Bool} {votes : PendingVotes}
    {cache after : Cache} {plan : Plan}
    (ran : chain.planPending config cancelled votes cache = .ok plan after) :
    ∃ tally middle, chain.openPending cache = .ok tally middle ∧
      chain.countAttestations votes tally middle = .ok plan.tally after ∧
      chain.dueDeltas plan.tally.records (chain.epochDeltas config plan.tally) =
        .ok plan.deltas := by
  unfold planPending at ran
  obtain ⟨_, -, ran⟩ := Step.lift_bind_eq_ok_iff.mp ran
  obtain ⟨tally, middle, opened, ran⟩ := Step.bind_eq_ok_iff.mp ran
  obtain ⟨_, -, ran⟩ := Step.lift_bind_eq_ok_iff.mp ran
  obtain ⟨counted, final, entered, ran⟩ := Step.bind_eq_ok_iff.mp ran
  obtain ⟨_, -, ran⟩ := Step.lift_bind_eq_ok_iff.mp ran
  obtain ⟨deltas, due, ran⟩ := Step.lift_bind_eq_ok_iff.mp ran
  obtain ⟨_, -, ran⟩ := Step.lift_bind_eq_ok_iff.mp ran
  cases ran
  exact ⟨tally, middle, opened, entered, due⟩

@[inherit_doc planPending_eq_ok]
theorem planFlags_eq_ok {config : Config} {phase : Phase} {cancelled : Bool} {votes : FlagVotes}
    {cache after : Cache} {plan : Plan}
    (ran : chain.planFlags config phase cancelled votes cache = .ok plan after) :
    ∃ tally counted, chain.openFlags votes.inactivityScores cache = .ok tally after ∧
      countFlags preset phase votes tally = .ok counted ∧
      chain.nextScores config votes.inactivityScores counted.records = .ok plan.scores ∧
      plan.tally = ⟨withScores counted.records plan.scores, counted.totals⟩ ∧
      chain.dueDeltas plan.tally.records (chain.flagDeltas config phase plan.tally) =
        .ok plan.deltas := by
  unfold planFlags at ran
  obtain ⟨_, -, ran⟩ := Step.lift_bind_eq_ok_iff.mp ran
  obtain ⟨tally, middle, opened, ran⟩ := Step.bind_eq_ok_iff.mp ran
  obtain ⟨_, -, ran⟩ := Step.lift_bind_eq_ok_iff.mp ran
  obtain ⟨counted, entered, ran⟩ := Step.lift_bind_eq_ok_iff.mp ran
  obtain ⟨_, -, ran⟩ := Step.lift_bind_eq_ok_iff.mp ran
  obtain ⟨scores, scored, ran⟩ := Step.lift_bind_eq_ok_iff.mp ran
  obtain ⟨deltas, due, ran⟩ := Step.lift_bind_eq_ok_iff.mp ran
  cases ran
  exact ⟨tally, counted, opened, entered, scored, rfl, due⟩

/-- The active stake in the totals of a result is the one that the chain answers. -/
abbrev CountsActive (chain : Chain preset) (totals : Totals) : Prop :=
  totals.activeCurrent = chain.totalActive chain.currentEpoch

theorem countVotes_countsActive (phase : Phase) (records : Array Record) :
    Sound (fun _ => True) chain.CountsActive
      (chain.activeTotals.countVotes preset phase records) := by
  refine (Totals.checked_same _).bind fun counted equal => .pure ?_
  show max preset.effectiveBalanceIncrement counted.activeCurrent = _
  rw [equal, (Totals.active_addVotes phase records _).1, totalActive_currentEpoch]

/-- **Rewards are computed with the active stake of the chain,** whatever the cache knows. -/
theorem planPending_countsActive (config : Config) (cancelled : Bool) (votes : PendingVotes) :
    Step.Sound (fun _ => True) (fun _ => True) (fun plan => chain.CountsActive plan.tally.totals)
      (chain.planPending config cancelled votes) := by
  have opened : Step.Sound (fun _ => True) (fun _ => True)
      (fun tally => tally.totals = chain.activeTotals) chain.openPending := by
    refine (Step.Sound.any _).bind ?_
    intro following _
    refine (Step.Sound.lift (Totals.checked_same _)).bind ?_
    intro totals equal
    exact (Step.Sound.any _).bind fun _ _ => .pure equal
  refine (Step.Sound.any _).bind fun _ _ => opened.bind fun tally equal => ?_
  refine (Step.Sound.any _).bind fun _ _ => ?_
  have counts : Step.Sound (fun _ => True) (fun _ => True)
      (fun tally => chain.CountsActive tally.totals) (chain.countAttestations votes tally) := by
    refine (Step.Sound.any _).bind ?_
    intro records _
    rw [equal]
    exact (Step.Sound.lift (countVotes_countsActive _ _)).bind fun totals counted => .pure counted
  refine counts.bind ?_
  intro tally counted
  refine (Step.Sound.any _).bind fun _ _ => (Step.Sound.any _).bind fun deltas _ => ?_
  exact (Step.Sound.any _).bind fun _ _ => .pure counted

theorem planFlags_countsActive (config : Config) (phase : Phase) (cancelled : Bool)
    (votes : FlagVotes) :
    Step.Sound (fun _ => True) (fun _ => True) (fun plan => chain.CountsActive plan.tally.totals)
      (chain.planFlags config phase cancelled votes) := by
  have opened : Step.Sound (fun _ => True) (fun _ => True)
      (fun tally => tally.totals = chain.activeTotals)
      (chain.openFlags votes.inactivityScores) := by
    unfold openFlags
    split
    · refine (Step.Sound.lift (Totals.checked_same _)).bind fun totals equal => ?_
      exact (Step.Sound.any _).bind fun _ _ => .pure equal
    · exact .throw trivial
  refine (Step.Sound.any _).bind fun _ _ => opened.bind fun tally equal => ?_
  refine (Step.Sound.any _).bind fun _ _ => ?_
  have counts : Sound (fun _ => True) (fun tally => chain.CountsActive tally.totals)
      (countFlags preset phase votes tally) := by
    simp only [countFlags]
    split
    · rw [equal]
      exact (countVotes_countsActive _ _).bind fun totals counted => .pure counted
    · trivial
  refine (Step.Sound.lift counts).bind ?_
  intro tally counted
  refine (Step.Sound.any _).bind fun _ _ => (Step.Sound.any _).bind fun scores _ => ?_
  exact (Step.Sound.any _).bind fun deltas _ => .pure counted

end Chain

/-! ## The part that writes -/

namespace State

variable {preset : Preset} {Votes : Type} {state final : State preset Votes} {e : Error}

theorem ask_eq_ok_iff {α : Type} {question : Chain preset → Lookup α} {a : α} :
    ask question state = .ok a final ↔
      ∃ cache, question state.chain state.cache = .ok a cache ∧ { state with cache } = final :=
  Step.zoom_eq_ok_iff

theorem ask_eq_error_iff {α : Type} {question : Chain preset → Lookup α} :
    ask question state = .error e final ↔
      ∃ cache, question state.chain state.cache = .error e cache ∧ { state with cache } = final :=
  Step.zoom_eq_error_iff

/-- Settling that succeeds has settled the books of the chain and of the records. -/
theorem settle_eq_ok {records settled : Array Record} {deltas : Array Delta}
    (ran : settle records deltas state = .ok settled final) :
    ∃ books, Books.settle deltas ⟨state.chain, records⟩ = .ok () books ∧
      settled = books.records ∧ final = { state with chain := books.chain } := by
  unfold settle at ran
  cases books : Books.settle deltas ⟨state.chain, records⟩ with
  | ok _ closed =>
    rw [books] at ran
    cases ran
    exact ⟨closed, rfl, rfl, rfl⟩
  | error e closed =>
    rw [books] at ran
    cases ran

/-- Settling that fails leaves the state as it was. -/
theorem settle_eq_error {records : Array Record} {deltas : Array Delta}
    (failed : settle records deltas state = .error e final) :
    (∃ books, Books.settle deltas ⟨state.chain, records⟩ = .error e books) ∧ final = state := by
  unfold settle at failed
  cases books : Books.settle deltas ⟨state.chain, records⟩ with
  | ok _ closed =>
    rw [books] at failed
    cases failed
  | error e closed =>
    rw [books] at failed
    cases failed
    rw [Books.settle_eq_error books]
    exact ⟨⟨closed, rfl⟩, rfl⟩

/-- A sweep that succeeds changes the chain only. -/
theorem slash_eq_ok {active : GweiSum} {multiplier : Nat}
    {penalties : Array (ValidatorIndex × Gwei)}
    (ran : slash active multiplier state = .ok penalties final) :
    state.chain.slash PenaltyLog.keep active multiplier = .ok (final.chain, penalties) ∧
      final = { state with chain := final.chain } := by
  unfold slash at ran
  rw [Step.get_bind_apply] at ran
  obtain ⟨⟨chain, collected⟩, middle, swept, rest⟩ := Step.bind_eq_ok_iff.mp ran
  obtain ⟨swept, rfl⟩ := Step.lift_eq_ok_iff.mp swept
  cases rest
  exact ⟨swept, rfl⟩

/-- What a successful conclusion has done: it settled, took the active stake of the chain with
settled balances, and swept with it. -/
theorem conclude_eq_ok {phase : Phase} {amend : Votes → Votes} {rotate : Votes → Nat → Votes}
    {plan : Plan} {report : Report}
    (ran : conclude phase amend rotate plan state = .ok report final) :
    ∃ books active,
      Books.settle plan.deltas ⟨state.chain, plan.tally.records⟩ = .ok () books ∧
      books.chain.lookupTotalActive state.cache = .ok active final.cache ∧
      books.chain.slash PenaltyLog.keep active (preset.slashingMultiplier phase) =
        .ok (final.chain, report.slashingPenalties) ∧
      report.totals = plan.tally.totals ∧ report.records = books.records ∧
      report.deltas = plan.deltas ∧
      final.votes = rotate (amend state.votes) final.chain.validators.size := by
  unfold conclude at ran
  obtain ⟨records, s₁, first, ran⟩ := Step.bind_eq_ok_iff.mp ran
  obtain ⟨books, settled, rfl, rfl⟩ := settle_eq_ok first
  obtain ⟨_, s₂, amended, ran⟩ := Step.bind_eq_ok_iff.mp ran
  cases amended
  obtain ⟨active, s₃, asked, ran⟩ := Step.bind_eq_ok_iff.mp ran
  obtain ⟨cache, looked, rfl⟩ := ask_eq_ok_iff.mp asked
  obtain ⟨penalties, s₄, swept, ran⟩ := Step.bind_eq_ok_iff.mp ran
  obtain ⟨swept, kept⟩ := slash_eq_ok swept
  cases ran
  rw [kept] at swept ⊢
  exact ⟨books, active, settled, looked, swept, rfl, rfl, rfl, rfl⟩

theorem lookupTotalActive_error (chain : Chain preset) :
    Step.Sound (· = .arithmeticOverflow) (fun _ => True) (fun _ => True)
      chain.lookupTotalActive := by
  refine Step.Sound.get_bind fun cache _ => ?_
  split
  · exact .pure trivial
  · refine (Step.Sound.lift (GweiSum.checked_error _)).bind fun total _ => ?_
    exact (Step.Sound.modify fun _ _ => trivial).bind fun _ _ => .pure trivial

/-- **The part that writes fails before it has written, or breaks off.** Settling is its only piece
that returns errors: it has made sure that there is one balance per validator, and that is all that
the sweep asks of a registry. -/
theorem conclude_eq_error {phase : Phase} {amend : Votes → Votes} {rotate : Votes → Nat → Votes}
    {plan : Plan} (failed : conclude phase amend rotate plan state = .error e final) :
    ((∃ books, Books.settle plan.deltas ⟨state.chain, plan.tally.records⟩ = .error e books) ∧
        final = state) ∨
      e = .arithmeticOverflow := by
  unfold conclude at failed
  obtain failed | ⟨records, s₁, first, failed⟩ := Step.bind_eq_error_iff.mp failed
  · exact .inl (settle_eq_error failed)
  right
  obtain ⟨books, settled, _, rfl⟩ := settle_eq_ok first
  have sizes := (Books.settle_eq_ok settled).2
  obtain failed | ⟨_, s₂, amended, failed⟩ := Step.bind_eq_error_iff.mp failed
  · cases failed
  cases amended
  obtain failed | ⟨active, s₃, asked, failed⟩ := Step.bind_eq_error_iff.mp failed
  · obtain ⟨cache, looked, rfl⟩ := ask_eq_error_iff.mp failed
    exact (lookupTotalActive_error books.chain _ trivial).of_error looked
  obtain ⟨cache, looked, rfl⟩ := ask_eq_ok_iff.mp asked
  obtain failed | ⟨penalties, s₄, swept, failed⟩ := Step.bind_eq_error_iff.mp failed
  · -- settling has found one balance per validator, and has kept it so
    unfold slash at failed
    rw [Step.get_bind_apply] at failed
    obtain failed | ⟨_, s₄, _, rest⟩ := Step.bind_eq_error_iff.mp failed
    · have swept := (Step.lift_eq_error_iff.mp failed).1
      exact (Chain.slash_error _ _ _ sizes).allowed_of_eq_error swept
    · cases rest
  · cases failed

/-! ## Whole epochs -/

section Whole

variable {question : Chain preset → Lookup Plan} {phase : Phase} (amend : Plan → Votes → Votes)
  {rotate : Votes → Nat → Votes}

/-- A plan and its conclusion fail while planning or while settling, and then leave a trace in the
cache at most, or break off. -/
theorem ask_conclude_eq_error
    (failed : (ask question >>= fun plan => conclude phase (amend plan) rotate plan) state =
      .error e final) :
    (∃ cache, question state.chain state.cache = .error e cache ∧ final = { state with cache }) ∨
      (∃ plan cache books, question state.chain state.cache = .ok plan cache ∧
        Books.settle plan.deltas ⟨state.chain, plan.tally.records⟩ = .error e books ∧
        final = { state with cache }) ∨
      e = .arithmeticOverflow := by
  obtain failed | ⟨plan, planned, asked, failed⟩ := Step.bind_eq_error_iff.mp failed
  · obtain ⟨cache, planning, rfl⟩ := ask_eq_error_iff.mp failed
    exact .inl ⟨cache, planning, rfl⟩
  · obtain ⟨cache, planning, rfl⟩ := ask_eq_ok_iff.mp asked
    obtain ⟨⟨books, settling⟩, rfl⟩ | broken := conclude_eq_error failed
    · exact .inr (.inl ⟨plan, cache, books, planning, settling, rfl⟩)
    · exact .inr (.inr broken)

/-- A plan and its conclusion change nothing of a chain but its balances, and move its votes on. -/
theorem ask_conclude_eq_ok {report : Report}
    (ran : (ask question >>= fun plan => conclude phase (amend plan) rotate plan) state =
      .ok report final) :
    ∃ plan cache, question state.chain state.cache = .ok plan cache ∧
      state.chain.OnlyBalances final.chain ∧
      final.votes = rotate (amend plan state.votes) final.chain.validators.size := by
  obtain ⟨plan, planned, asked, concluded⟩ := Step.bind_eq_ok_iff.mp ran
  obtain ⟨cache, planning, rfl⟩ := ask_eq_ok_iff.mp asked
  obtain ⟨books, active, settled, _, swept, _, _, _, votes⟩ := conclude_eq_ok concluded
  exact ⟨plan, cache, planning, (Books.settle_eq_ok settled).1.trans (Chain.slash_eq_ok swept),
    votes⟩

end Whole

/-- What a Phase 0 epoch changes: balances, and votes that are rotated. -/
theorem processPending_eq_ok {config : Config} {cancelled : Bool}
    {state final : PendingState preset} {report : Report}
    (ran : processPending config cancelled state = .ok report final) :
    state.chain.OnlyBalances final.chain ∧ final.votes = state.votes.rotate := by
  obtain ⟨plan, cache, _, only, votes⟩ := ask_conclude_eq_ok (fun _ => id) ran
  exact ⟨only, votes⟩

/-- What an epoch with flags changes: balances, scores, and flags that are rotated. -/
theorem processFlags_eq_ok {config : Config} {phase : Phase} {cancelled : Bool}
    {state final : FlagState preset} {report : Report}
    (ran : processFlags config phase cancelled state = .ok report final) :
    ∃ plan cache,
      state.chain.planFlags config phase cancelled state.votes state.cache = .ok plan cache ∧
      state.chain.OnlyBalances final.chain ∧
      final.votes =
        (state.votes.withScores plan.scores).rotate final.chain.validators.size := by
  unfold processFlags at ran
  rw [Step.get_bind_apply] at ran
  exact ask_conclude_eq_ok (fun plan votes => FlagVotes.withScores votes plan.scores) ran

/-- The flags move one epoch on. -/
theorem processFlags_rotates {config : Config} {phase : Phase} {cancelled : Bool}
    {state final : FlagState preset} {report : Report}
    (ran : processFlags config phase cancelled state = .ok report final) :
    final.votes.previous = state.votes.current ∧
      final.votes.current = Array.replicate state.chain.validators.size 0 := by
  obtain ⟨plan, cache, -, only, votes⟩ := processFlags_eq_ok ran
  rw [votes, only.sameDuties.validators]
  constructor
  · cases plan.scores <;> rfl
  · rfl

end State

namespace BeaconState

variable {preset : Preset}

/-- The plan of an epoch, by way of keeping votes. -/
def plan (config : Config) (cancelled : Bool) : BeaconState preset → Step.Result Cache Plan
  | .pending state => state.chain.planPending config cancelled state.votes state.cache
  | .flagged phase state =>
    state.chain.planFlags config phase.toPhase cancelled state.votes state.cache

/-- An epoch fails with an error before it writes: there is no plan, or its deltas cannot be
settled. -/
inductive FailsEarly (config : Config) (cancelled : Bool) (state : BeaconState preset) (e : Error) :
    Prop
  | planning {cache : Cache} (failed : state.plan config cancelled = .error e cache) :
    FailsEarly config cancelled state e
  | settling {plan : Plan} {cache : Cache} {books : Books preset}
    (planned : state.plan config cancelled = .ok plan cache)
    (failed : Books.settle plan.deltas ⟨state.chain, plan.tally.records⟩ = .error e books) :
    FailsEarly config cancelled state e

section Dispatch

variable {α : Type} {pending : Step (PendingState preset) α}
  {flagged : FlagPhase → Step (FlagState preset) α} {state after : BeaconState preset}

theorem dispatch_pending (state : PendingState preset) :
    dispatch pending flagged (.pending state) = Step.Result.move .pending (pending state) := by
  simp only [dispatch]
  cases pending state <;> rfl

theorem dispatch_flagged (phase : FlagPhase) (state : FlagState preset) :
    dispatch pending flagged (.flagged phase state) =
      Step.Result.move (.flagged phase) (flagged phase state) := by
  simp only [dispatch]
  cases flagged phase state <;> rfl

/-- A step that is chosen by phase succeeds in one of two ways. -/
theorem dispatch_eq_ok {a : α} (ran : dispatch pending flagged state = .ok a after) :
    (∃ s t, state = .pending s ∧ pending s = .ok a t ∧ after = .pending t) ∨
      ∃ phase s t, state = .flagged phase s ∧ flagged phase s = .ok a t ∧
        after = .flagged phase t := by
  cases state with
  | pending start =>
    rw [dispatch_pending] at ran
    obtain ⟨final, inner, rfl⟩ := Step.move_eq_ok_iff.mp ran
    exact .inl ⟨start, final, rfl, inner, rfl⟩
  | flagged phase start =>
    rw [dispatch_flagged] at ran
    obtain ⟨final, inner, rfl⟩ := Step.move_eq_ok_iff.mp ran
    exact .inr ⟨phase, start, final, rfl, inner, rfl⟩

theorem dispatch_eq_error {e : Error} (failed : dispatch pending flagged state = .error e after) :
    (∃ s t, state = .pending s ∧ pending s = .error e t ∧ after = .pending t) ∨
      ∃ phase s t, state = .flagged phase s ∧ flagged phase s = .error e t ∧
        after = .flagged phase t := by
  cases state with
  | pending start =>
    rw [dispatch_pending] at failed
    obtain ⟨final, inner, rfl⟩ := Step.move_eq_error_iff.mp failed
    exact .inl ⟨start, final, rfl, inner, rfl⟩
  | flagged phase start =>
    rw [dispatch_flagged] at failed
    obtain ⟨final, inner, rfl⟩ := Step.move_eq_error_iff.mp failed
    exact .inr ⟨phase, start, final, rfl, inner, rfl⟩

end Dispatch

variable {config : Config} {cancelled : Bool} {state after : BeaconState preset} {e : Error}

/-- **An epoch is all or nothing.** If an epoch returns an error, of whatever kind, then everything
but the cache is what it was before. The error is one of the plan or of the first piece that writes:
the sweep over the registry, which comes after rewards are written, is never the one that fails.
Accounting that fails a check on itself returns nothing, and is not spoken of. -/
theorem processEpoch_atomic (failed : processEpoch config cancelled state = .error e after)
    (returned : e ≠ .arithmeticOverflow) :
    after.withCache state.cache = state ∧ FailsEarly config cancelled state e := by
  obtain ⟨start, final, rfl, ran, rfl⟩ | ⟨phase, start, final, rfl, ran, rfl⟩ :=
    dispatch_eq_error failed
  -- the two ways of keeping votes differ in their plans only, and are concluded alike
  all_goals
    obtain ⟨cache, planning, rfl⟩ | ⟨plan, cache, books, planned, settling, rfl⟩ | broken :=
      State.ask_conclude_eq_error _ ran
    · exact ⟨rfl, .planning planning⟩
    · exact ⟨rfl, .settling planned settling⟩
    · exact absurd broken returned

/-- A state at genesis with a balance that belongs to nobody. -/
def extraBalance : BeaconState .minimal :=
  (empty .minimal).withChain { Chain.empty .minimal with balances := #[1] }

theorem processEpoch_atomic_extraBalance :
    ∃ after,
      processEpoch Config.minimal false extraBalance =
        .error (.registryLengthMismatch 0 0 1 0) after ∧
      after.withCache Cache.empty = extraBalance ∧
      FailsEarly Config.minimal false extraBalance (.registryLengthMismatch 0 0 1 0) := by
  have failed : processEpoch Config.minimal false extraBalance =
      .error (.registryLengthMismatch 0 0 1 0)
        (extraBalance.withCache ⟨⟨none, none, none⟩, ⟨none, some 1000000000, none⟩⟩) := by
    with_unfolding_all rfl
  exact ⟨_, failed, processEpoch_atomic failed (by decide)⟩

end BeaconState

end BeaconEpoch
