import BeaconEpoch.Proofs.Comparison.Idle

/-!
# The order of the registry

A validator is known by its position, but its position has no weight: an epoch of Altair or later on
a registry in another order does the same, in that order.

## Main definitions

* `reorder`: the entries of an array in another order.
* `State.reorder`: a state with another order of its validators.
* `Report.ReorderedBy`: two reports on the same validators in different orders.

## Main statements

* `State.Holds.reorder`: what a state holds follows the validators.
* `State.processFlags_reorder`: epochs.

## Design notes

* **Caches stay.** The shuffles that a cache knows are about positions and do not follow the
  validators. They are not looked at here, so that the cache may be kept, or replaced by one that is
  coherent.
* **Failures may differ.** An error names the first validator that it was met at.
-/

namespace BeaconEpoch

/-! ## Reordered arrays -/

section Reorder

variable {α : Type} [Inhabited α] {count : Nat}

/-- The entries of an array in another order. -/
def reorder (order : Equiv.Perm (Fin count)) (xs : Array α) : Array α :=
  Array.ofFn fun index => xs.getD (order index) default

variable {order : Equiv.Perm (Fin count)} {xs ys : Array α}

/-- Reordering a table is reordering its arguments. All that is said of reordered arrays below comes
down to this. -/
theorem reorder_ofFn (order : Equiv.Perm (Fin count)) (x : Fin count → α) :
    reorder order (Array.ofFn x) = Array.ofFn fun index => x (order index) := by
  refine congrArg Array.ofFn (funext fun index => ?_)
  simp

/-- An array that is matched by equality along an order is the other array in that order. -/
theorem Matched.eq_reorder (matched : Matched order Eq xs ys) : ys = reorder order xs := by
  obtain ⟨x, y, rfl, rfl, each⟩ := matched
  rw [reorder_ofFn]
  exact congrArg Array.ofFn (funext fun index => (each index).symm)

theorem matched_reorder (order : Equiv.Perm (Fin count)) (size : xs.size = count) :
    Matched order Eq xs (reorder order xs) := by
  rw [eq_ofFn_getD size default, reorder_ofFn]
  exact .ofFn fun index => rfl

/-- Where all entries are the same, their order is lost. Flags that were rotated in are such
entries. -/
theorem reorder_replicate (order : Equiv.Perm (Fin count)) (a : α) :
    reorder order (Array.replicate count a) = Array.replicate count a := by
  refine Array.ext (by simp [reorder]) fun index inside inside' => ?_
  simp [reorder]

end Reorder

theorem FlagVotes.eq_of {votes other : FlagVotes} (previous : votes.previous = other.previous)
    (current : votes.current = other.current)
    (inactivityScores : votes.inactivityScores = other.inactivityScores) : votes = other := by
  obtain ⟨_, _, _⟩ := votes
  obtain ⟨_, _, _⟩ := other
  simp_all

/-! ## Reordered states -/

section State

variable {preset : Preset} {count : Nat}

/-- A state with another order of its validators and of everything that it holds about them. -/
def State.reorder (order : Equiv.Perm (Fin count)) (state : FlagState preset) :
    FlagState preset where
  chain := { state.chain with
    validators := BeaconEpoch.reorder order state.chain.validators
    balances := BeaconEpoch.reorder order state.chain.balances }
  votes := {
    previous := BeaconEpoch.reorder order state.votes.previous
    current := BeaconEpoch.reorder order state.votes.current
    inactivityScores := BeaconEpoch.reorder order state.votes.inactivityScores }
  cache := state.cache

/-- What each validator holds moves along with it. -/
theorem State.Holds.reorder {state : FlagState preset} {holding : Fin count → Holding}
    (holds : state.Holds holding) (order : Equiv.Perm (Fin count)) :
    (state.reorder order).Holds fun index => holding (order index) := by
  constructor
  · exact (congrArg _ holds.validators).trans (reorder_ofFn ..)
  · exact (congrArg _ holds.balances).trans (reorder_ofFn ..)
  · exact (congrArg _ holds.scores).trans (reorder_ofFn ..)
  · exact (congrArg _ holds.previous).trans (reorder_ofFn ..)
  · exact (congrArg _ holds.current).trans (reorder_ofFn ..)

/-- Two reports on the same validators in different orders. -/
structure Report.ReorderedBy (order : Equiv.Perm (Fin count)) (report other : Report) : Prop where
  totals : other.totals = report.totals
  records : other.records = reorder order report.records
  deltas : other.deltas = reorder order report.deltas
  penalty? : ∀ index : Fin count, other.penalty? index = report.penalty? (order index)
  nobodyElse : ∀ {index}, count ≤ index →
    report.penalty? index = none ∧ other.penalty? index = none

/-- Two logs of penalties that are alike along an order show the same penalty for a validator in its
two positions, and none for anybody else. -/
theorem PenaltyLog.Alike.penalty?_eq {order : Equiv.Perm (Fin count)} {report other : Report}
    (alike : PenaltyLog.Alike order report.slashingPenalties other.slashingPenalties) :
    (∀ index : Fin count, other.penalty? index = report.penalty? (order index)) ∧
      ∀ {index}, count ≤ index → report.penalty? index = none ∧ other.penalty? index = none := by
  obtain ⟨penalty, penalty', shown, shown', each⟩ := alike
  constructor
  · intro index
    rw [Report.penalty?_of_entries shown', Report.penalty?_of_entries shown, each]
  · intro index beyond
    exact ⟨Report.penalty?_eq_none shown beyond, Report.penalty?_eq_none shown' beyond⟩

end State

/-! ## Epochs -/

namespace Comparison

variable {count : Nat} {preset : Preset} {config : Config} {phase : Phase}

/-- Two epochs with the same values, in different orders. -/
def reordered (order : Equiv.Perm (Fin count)) : Comparison count := faithful .joint order Eq

/-- Values that are equal before a step are equal after it, whichever positions they are at, so this
comparison obeys the laws of a faithful one. -/
theorem reordered_lawful (order : Equiv.Perm (Fin count)) :
    (reordered order).Lawful preset config phase := by
  refine faithful_lawful nofun ?_ ?_ ?_
  · rintro record _ rfl
    rfl
  · rintro record _ score rfl
    rfl
  · rintro record _ balance delta rfl
    rfl

end Comparison

namespace State

variable {preset : Preset}

/-- A state starts an epoch like the same state in another order, with a cache that tells the
truth. -/
theorem reorder_starts {state : FlagState preset} (complete : FlagState.Complete state)
    (coherent : state.cache.CoherentWith state.chain) (order : Equiv.Perm state.chain.Member)
    {cache : Cache}
    (known : cache = state.cache ∨ cache.CoherentWith (state.reorder order).chain) :
    (Comparison.reordered order).Starts state
      { chain := (state.reorder order).chain, votes := (state.reorder order).votes, cache } := by
  have alike : state.chain.Alike order (state.reorder order).chain :=
    ⟨rfl, rfl, rfl, matched_reorder order rfl⟩
  have holds := complete.holds rfl
  obtain ⟨validators, balances, scores, previous, current⟩ := holds.reorder order
  exact {
    chain := alike
    balances := matched_reorder order complete.balances
    scores := matched_reorder order complete.votes.inactivityScores
    tells := coherent.tellsActive
    tells' := by
      rcases known with rfl | coherent'
      · exact coherent.tellsActive.congr alike.totalActive_eq
      · exact coherent'.tellsActive
    holds := ⟨_, _, holds, ⟨validators, balances, scores, previous, current⟩,
      .ofFn fun index => rfl⟩ }

section Ends

variable {config : Config} {phase : Phase} {cancelled : Bool} {state other : FlagState preset}
  {order : Equiv.Perm state.chain.Member} {report report' : Report}
  {final final' : FlagState preset}
  (ran : processFlags config phase cancelled state = .ok report final)
  (ran' : processFlags config phase cancelled other = .ok report' final')
  (ends : (Comparison.reordered order).Ends report final report' final')

include ran ran' ends

/-- Of a chain an epoch writes balances only, and these are left in the other order. -/
theorem chain_of_reordered (start : other.chain = (state.reorder order).chain) :
    final'.chain = (final.reorder order).chain := by
  obtain ⟨-, -, -, ⟨owned, -, chain⟩, -⟩ := processFlags_eq_ok ran
  obtain ⟨-, -, -, ⟨owned', -, chain'⟩, -⟩ := processFlags_eq_ok ran'
  have balances : owned' = BeaconEpoch.reorder order owned := by
    have follows := ends.balances.eq_reorder
    rwa [chain, chain'] at follows
  rw [chain', start, balances]
  simp only [State.reorder, chain]

/-- Flags are rotated in whichever order they are, and new flags are all the same. -/
theorem votes_of_reordered (start : other.chain = (state.reorder order).chain)
    (votes : other.votes = (state.reorder order).votes) :
    final'.votes = (final.reorder order).votes := by
  obtain ⟨previous, current⟩ := processFlags_rotates ran
  obtain ⟨previous', current'⟩ := processFlags_rotates ran'
  refine FlagVotes.eq_of ?_ ?_ ends.scores.eq_reorder
  · rw [previous', votes]
    show BeaconEpoch.reorder order state.votes.current =
      BeaconEpoch.reorder order final.votes.previous
    rw [previous]
  · rw [current', start]
    show _ = BeaconEpoch.reorder order final.votes.current
    rw [current, reorder_replicate]
    exact congrArg (Array.replicate · 0) Array.size_ofFn

end Ends

/-- **A validator's position carries no weight.** Let the validators of a state, with everything
that it holds about them, be brought into another order, and let the cache stay or become one that
is coherent again. Then an epoch succeeds on the one state if and only if it does on the other, and
its report and the state that it leaves are the same in the other order. -/
theorem processFlags_reorder (config : Config) (phase : Phase) (cancelled : Bool)
    {state : FlagState preset} (complete : FlagState.Complete state)
    (coherent : state.cache.CoherentWith state.chain) (order : Equiv.Perm state.chain.Member)
    {cache : Cache}
    (known : cache = state.cache ∨ cache.CoherentWith (state.reorder order).chain) :
    Step.Tied .joint
      (fun report final report' final' => report.ReorderedBy order report' ∧
        final'.chain = (final.reorder order).chain ∧ final'.votes = (final.reorder order).votes)
      (processFlags config phase cancelled state)
      (processFlags config phase cancelled
        { chain := (state.reorder order).chain, votes := (state.reorder order).votes, cache }) := by
  have starts := reorder_starts complete coherent order known
  refine (Comparison.processFlags_tied (Comparison.reordered_lawful order) cancelled
    starts).known.mono ?_
  rintro report final report' final' ⟨ends, ran, ran'⟩
  obtain ⟨penalty?, nobodyElse⟩ := ends.slashingPenalties.penalty?_eq
  exact ⟨⟨ends.totals.symm, ends.records.eq_reorder, ends.deltas.eq_reorder, penalty?, nobodyElse⟩,
    chain_of_reordered ran ran' ends rfl, votes_of_reordered ran ran' ends rfl rfl⟩

/-- The registry of the state with three fates, read backwards. -/
def backwards : Equiv.Perm threeFates.chain.Member := Fin.revPerm

/-- Three validators with different fates, read backwards: both epochs succeed, and the one report
is the other in reverse. -/
theorem processFlags_reorder_backwards :
    ∃ report final report' final',
      processFlags Config.minimal .altair false threeFates = .ok report final ∧
      processFlags Config.minimal .altair false (threeFates.reorder backwards) =
        .ok report' final' ∧
      report.ReorderedBy backwards report' ∧ final'.chain = (final.reorder backwards).chain ∧
      final'.votes = (final.reorder backwards).votes := by
  have complete : FlagState.Complete threeFates := ⟨rfl, rfl, rfl, rfl⟩
  have tied := processFlags_reorder Config.minimal .altair false complete (.empty _) backwards
    (.inl rfl)
  have succeeds :
      Step.Result.succeeds (processFlags Config.minimal .altair false threeFates) = true := by
    decide +kernel
  obtain ⟨report, final, ran⟩ := Step.Result.eq_ok_of_succeeds succeeds
  -- where the one succeeds the other does
  rw [ran] at tied
  obtain ⟨report', final', ran'⟩ := tied.exists_right nofun
  rw [ran'] at tied
  exact ⟨report, final, report', final', ran, ran', tied⟩

end State

end BeaconEpoch
