import BeaconEpoch.Proofs.Comparison.Chain
import BeaconEpoch.Proofs.Progress.Tally
import Mathlib.Data.Option.Basic

/-!
# Comparing epochs

An epoch of Altair or later treats all validators alike. So what is known of the records of two
epochs, validator by validator, carries over to everything that is computed from them: totals,
scores, deltas and balances.

## Main definitions

* `Holding`: what a state of Altair or later holds about one validator.
* `State.Holds`, `State.holdingAt`: a state that holds one of these for every validator.
* `FlagState.Complete`: one entry per validator in every list.
* `Comparison`: in which ways two epochs are compared.
* `Comparison.Lawful`: the pieces of an epoch respect these ways.
* `Comparison.Starts`, `Comparison.Ends`: two epochs before and after.

## Main statements

* `Comparison.planFlags_tied`: the parts that read.
* `Comparison.settle_tied`, `Comparison.conclude_tied`: the parts that write.
* `Comparison.processFlags_tied`: whole epochs.

## Design notes

* **One walk for all comparisons.** What a law about two epochs is about (votes that do not count,
  the order of the registry, more votes) shows in the relations only. They have to be respected by
  what is computed for a single validator and by the sums, and nothing else.
-/

namespace BeaconEpoch

/-! ## Holdings -/

/-- What a state of Altair or later holds about one validator. -/
structure Holding where
  validator : Validator
  balance : Gwei
  score : InactivityScore
  /-- The flags for the previous epoch. -/
  previous : ParticipationFlags
  /-- The flags for the current epoch. -/
  current : ParticipationFlags

namespace Holding

variable (previous current : Epoch) (holding : Holding)

/-- The record of a validator before its flags are read. -/
def blank : Record :=
  Record.ofValidator previous current (holding.validator.withdrawableEpoch ≤ current)
    holding.score holding.validator

/-- The record of a validator. -/
def record : Record := (holding.blank previous current).readFlags holding.previous holding.current

end Holding

section Holds

variable {preset : Preset} {count : Nat}

/-- A state that holds these entries, one for each validator. -/
structure State.Holds (state : FlagState preset) (holding : Fin count → Holding) : Prop where
  validators : state.chain.validators = Array.ofFn fun index => (holding index).validator
  balances : state.chain.balances = Array.ofFn fun index => (holding index).balance
  scores : state.votes.inactivityScores = Array.ofFn fun index => (holding index).score
  previous : state.votes.previous = Array.ofFn fun index => (holding index).previous
  current : state.votes.current = Array.ofFn fun index => (holding index).current

namespace State.Holds

variable {state : FlagState preset} {holding : Fin count → Holding}

/-- The records of a state before and after flags are read. -/
abbrev blanks (state : FlagState preset) (holding : Fin count → Holding) : Array Record :=
  Array.ofFn fun index =>
    (holding index).blank state.chain.previousEpoch state.chain.currentEpoch

@[inherit_doc blanks]
abbrev records (state : FlagState preset) (holding : Fin count → Holding) : Array Record :=
  Array.ofFn fun index =>
    (holding index).record state.chain.previousEpoch state.chain.currentEpoch

theorem openFlags (holds : state.Holds holding) :
    state.chain.openFlags state.votes.inactivityScores = do
      let totals ← (liftM state.chain.activeTotals.checked : Lookup Totals)
      state.chain.cacheTotalActive totals.activeCurrent
      return { records := blanks state holding, totals } := by
  have sizes : state.chain.validators.size = state.votes.inactivityScores.size := by
    rw [holds.validators, holds.scores, Array.size_ofFn, Array.size_ofFn]
  simp only [Chain.openFlags]
  rw [if_pos sizes, holds.scores]
  have opened : state.chain.validators.zipWith (fun validator score =>
      Record.ofValidator state.chain.previousEpoch state.chain.currentEpoch
        (validator.withdrawableEpoch ≤ state.chain.currentEpoch) score validator)
      (Array.ofFn fun index => (holding index).score) = blanks state holding := by
    rw [holds.validators, zipWith_ofFn]
    rfl
  rw [opened]

theorem countFlags (holds : state.Holds holding) (phase : Phase) (totals : Totals) :
    countFlags preset phase state.votes { records := blanks state holding, totals } = do
      let totals ← totals.countVotes preset phase (records state holding)
      return { records := records state holding, totals } := by
  simp only [BeaconEpoch.countFlags]
  rw [holds.previous, holds.current, if_pos (by simp), zip_ofFn, zipWith_ofFn]
  rfl

end State.Holds

/-- What a state holds at a position. -/
def State.holdingAt (state : FlagState preset) (index : Nat) : Holding where
  validator := state.chain.validators.getD index default
  balance := state.chain.balances.getD index 0
  score := state.votes.inactivityScores.getD index 0
  previous := state.votes.previous.getD index 0
  current := state.votes.current.getD index 0

/-- Blank records depend on the chain and the scores only. -/
theorem State.blank_holdingAt {state other : FlagState preset} (chain : other.chain = state.chain)
    (scores : other.votes.inactivityScores = state.votes.inactivityScores) (index : Nat)
    (previous current : Epoch) :
    (other.holdingAt index).blank previous current =
      (state.holdingAt index).blank previous current := by
  simp only [Holding.blank, State.holdingAt, chain, scores]
  rfl

/-- There is one entry per validator in every list. -/
structure FlagState.Complete (state : FlagState preset) : Prop where
  balances : state.chain.balances.size = state.chain.validators.size
  votes : state.votes.Fit state.chain.validators.size

theorem FlagState.Complete.holds {state : FlagState preset} (complete : Complete state)
    (size : state.chain.validators.size = count) :
    state.Holds fun index : Fin count => state.holdingAt index := by
  obtain rfl := size
  exact ⟨eq_ofFn_getD rfl _, eq_ofFn_getD complete.balances _,
    eq_ofFn_getD complete.votes.inactivityScores _, eq_ofFn_getD complete.votes.previous _,
    eq_ofFn_getD complete.votes.current _⟩

end Holds

/-! ## Comparisons -/

/-- In which ways two epochs are compared: how alike their failures are, in which order the first
one has the validators of the second one, and how their values are related. -/
structure Comparison (count : Nat) where
  likeness : Likeness
  order : Equiv.Perm (Fin count)
  record : Record → Record → Prop
  totals : Totals → Totals → Prop
  score : InactivityScore → InactivityScore → Prop
  delta : Delta → Delta → Prop
  balance : Gwei → Gwei → Prop

namespace Comparison

variable {count : Nat} (pair : Comparison count)

/-- The pieces of an epoch respect a comparison. -/
structure Lawful (preset : Preset) (config : Config) (phase : Phase) : Prop where
  /-- Errors name positions. -/
  inOrder : pair.likeness = .exact → pair.order = .refl _
  countVotes : ∀ {record record' : Fin count → Record} (totals : Totals),
    (∀ index, pair.record (record (pair.order index)) (record' index)) →
      Tied pair.likeness pair.totals (totals.countVotes preset phase (Array.ofFn record))
        (totals.countVotes preset phase (Array.ofFn record'))
  activeCurrent : ∀ {totals totals'}, pair.totals totals totals' →
    totals'.activeCurrent = totals.activeCurrent
  eligible : ∀ {record record'}, pair.record record record' → record'.eligible = record.eligible
  scoreOverflows : pair.likeness ≠ .loose → ∀ {record record'}, pair.record record record' →
    config.scoreOverflows record' = config.scoreOverflows record
  keepScore : ∀ score, pair.score score score
  nextScore : ∀ (leaking : Bool) {record record'}, pair.record record record' →
    record.eligible = true → ¬config.scoreOverflows record = true →
      ¬config.scoreOverflows record' = true →
        pair.score (config.nextScore leaking record) (config.nextScore leaking record')
  withScore : ∀ {record record' score score'}, pair.record record record' →
    pair.score score score' →
      pair.record { record with inactivityScore := score }
        { record' with inactivityScore := score' }
  noDelta : pair.delta {} {}
  flagDelta : ∀ (rates : FlagRates) {totals record record'}, pair.totals rates.totals totals →
    pair.record record record' →
      Tied pair.likeness pair.delta (rates.delta record)
        (FlagRates.delta { rates with totals } record')
  fits : pair.likeness ≠ .loose → ∀ {delta delta' balance balance'}, pair.delta delta delta' →
    pair.balance balance balance' → delta'.fits balance' = delta.fits balance
  apply : ∀ {delta delta' balance balance'}, pair.delta delta delta' →
    pair.balance balance balance' → delta.fits balance = true → delta'.fits balance' = true →
      pair.balance (delta.apply balance) (delta'.apply balance')
  noted : ∀ {record record' delta delta' balance balance'}, pair.record record record' →
    pair.delta delta delta' → pair.balance balance balance' →
      pair.record (Books.noted record balance delta) (Books.noted record' balance' delta')
  decrease : ∀ {balance balance'} (amount : Gwei), pair.balance balance balance' →
    pair.balance (Gwei.decrease balance amount) (Gwei.decrease balance' amount)

variable {pair} {preset : Preset} {config : Config} {phase : Phase} {chain other : Chain preset}
  {records records' : Array Record}

/-! ### Scores -/

theorem nextScores_tied (lawful : pair.Lawful preset config phase)
    (alike : chain.Alike pair.order other) {scores scores' : Array InactivityScore}
    (matched : Matched pair.order Eq scores scores')
    (recorded : Matched pair.order pair.record records records') :
    Tied pair.likeness (Option.Rel (Matched pair.order pair.score))
      (chain.nextScores config scores records) (other.nextScores config scores' records') := by
  have sizes := recorded.sizes
  have sizes' := matched.sizes
  simp only [Chain.nextScores, alike.isPastGenesis, alike.isLeaking]
  split
  · exact Option.Rel.none
  rw [if_pos (sizes.1.trans sizes'.1.symm), if_pos (sizes.2.trans sizes'.2.symm)]
  have agree (strict : pair.likeness ≠ .loose) (record record' : Record)
      (related : pair.record record record') :
      config.scoreOverflows record = config.scoreOverflows record' :=
    (lawful.scoreOverflows strict related).symm
  cases found : records.findIdx? config.scoreOverflows with
  | none =>
    cases found' : records'.findIdx? config.scoreOverflows with
    | none =>
      have fits := Array.findIdx?_eq_none_iff.mp found
      have fits' := Array.findIdx?_eq_none_iff.mp found'
      refine Option.Rel.some ((recorded.known fits fits').zipWith matched ?_)
      rintro record record' score _ ⟨related, fits, fits'⟩ rfl
      rw [lawful.eligible related]
      split
      · rename_i eligible
        exact lawful.nextScore _ related eligible (Bool.not_eq_true _ ▸ fits)
          (Bool.not_eq_true _ ▸ fits')
      · exact lawful.keepScore score
    | some index =>
      by_contra strict
      rw [(recorded.findIdx?_eq_none_iff (agree strict)).mp found] at found'
      cases found'
  | some index =>
    cases found' : records'.findIdx? config.scoreOverflows with
    | none =>
      by_contra strict
      rw [(recorded.findIdx?_eq_none_iff (agree strict)).mpr found'] at found
      cases found
    | some index' =>
      intro exact
      have strict : pair.likeness ≠ .loose := by simp [exact]
      rw [lawful.inOrder exact] at recorded
      rw [recorded.findIdx?_eq (agree strict), found'] at found
      cases found
      rfl

theorem withScores_matched (lawful : pair.Lawful preset config phase)
    {scores scores' : Option (Array InactivityScore)}
    (matched : Option.Rel (Matched pair.order pair.score) scores scores')
    (recorded : Matched pair.order pair.record records records') :
    Matched pair.order pair.record (withScores records scores) (withScores records' scores') := by
  cases matched with
  | none => exact recorded
  | some matched => exact recorded.zipWith matched fun _ _ _ _ => lawful.withScore

/-! ### Deltas -/

/-- Rates depend on totals by way of the active stake only. -/
theorem flagRates_tied (likeness : Likeness) (alike : chain.Alike pair.order other)
    {totals totals' : Totals} (active : totals'.activeCurrent = totals.activeCurrent) :
    Tied likeness
      (fun rates rates' => rates.totals = totals ∧ rates' = { rates with totals := totals' })
      (chain.flagRates config phase totals) (other.flagRates config phase totals') := by
  simp only [Chain.flagRates, active, alike.isLeaking]
  refine (Tied.refl likeness _).bind ?_
  rintro rewardDivisor _ rfl
  refine (Tied.refl likeness _).bind ?_
  rintro inactivityDivisor _ rfl
  exact ⟨rfl, rfl⟩

theorem flagDeltas_tied (lawful : pair.Lawful preset config phase)
    (alike : chain.Alike pair.order other) {totals totals' : Totals}
    (related : pair.totals totals totals')
    (recorded : Matched pair.order pair.record records records') :
    Tied pair.likeness (Matched pair.order pair.delta)
      (chain.flagDeltas config phase { records, totals })
      (other.flagDeltas config phase { records := records', totals := totals' }) := by
  have active := lawful.activeCurrent related
  simp only [Chain.flagDeltas, active]
  split
  · exact recorded.map fun _ _ _ => lawful.noDelta
  · refine (flagRates_tied _ alike active).bind ?_
    rintro rates _ ⟨equal, rfl⟩
    rw [← equal] at related
    exact recorded.mapM lawful.inOrder fun _ _ => lawful.flagDelta rates related

theorem dueDeltas_tied (lawful : pair.Lawful preset config phase)
    (alike : chain.Alike pair.order other) {deltas deltas' : Except Error (Array Delta)}
    (tied : Tied pair.likeness (Matched pair.order pair.delta) deltas deltas')
    (recorded : Matched pair.order pair.record records records') :
    Tied pair.likeness (Matched pair.order pair.delta) (chain.dueDeltas records deltas)
      (other.dueDeltas records' deltas') := by
  simp only [Chain.dueDeltas, alike.isPastGenesis]
  split
  · exact tied
  · exact recorded.map fun _ _ _ => lawful.noDelta

/-! ### The part that reads -/

variable (pair) in
/-- Two epochs that are about to start. The records of their validators are related. -/
structure Starts (state other : FlagState preset) : Prop where
  chain : state.chain.Alike pair.order other.chain
  balances : Matched pair.order pair.balance state.chain.balances other.chain.balances
  scores : Matched pair.order Eq state.votes.inactivityScores other.votes.inactivityScores
  tells : state.cache.TellsActive state.chain
  tells' : other.cache.TellsActive other.chain
  /-- The states hold one entry per validator, from which related records are made. -/
  holds : ∃ holding holding' : Fin count → Holding, state.Holds holding ∧ other.Holds holding' ∧
    Matched pair.order pair.record (State.Holds.records state holding)
      (State.Holds.records other holding')

/-- Two states of the same chain start alike if the records of each validator are related. -/
theorem Starts.of_chain {state other : FlagState preset}
    {pair : Comparison state.chain.validators.size} (order : pair.order = .refl _)
    (keeps : ∀ balance, pair.balance balance balance) (chain : other.chain = state.chain)
    (scores : other.votes.inactivityScores = state.votes.inactivityScores)
    (complete : FlagState.Complete state) (complete' : FlagState.Complete other)
    (coherent : state.cache.CoherentWith state.chain)
    (coherent' : other.cache.CoherentWith other.chain)
    (recorded : ∀ validator : state.chain.Member,
      pair.record
        ((state.holdingAt validator).record state.chain.previousEpoch state.chain.currentEpoch)
        ((other.holdingAt validator).record state.chain.previousEpoch state.chain.currentEpoch)) :
    pair.Starts state other := by
  refine {
    chain := ?_
    balances := ?_
    scores := ?_
    tells := coherent.tellsActive
    tells' := coherent'.tellsActive
    holds := ⟨_, _, complete.holds rfl, complete'.holds (chain ▸ rfl), ?_⟩ }
  · rw [chain, order]
    exact ⟨rfl, rfl, rfl, .refl rfl Eq fun _ => rfl⟩
  · rw [chain, order]
    exact .refl complete.balances _ keeps
  · rw [scores, order]
    exact .refl complete.votes.inactivityScores Eq fun _ => rfl
  · refine Matched.ofFn fun validator => ?_
    rw [order, chain]
    exact recorded validator

variable (pair) in
/-- Two plans with related values, and what is known of the caches by then. -/
structure Planned (chain other : Chain preset) (plan : Plan) (cache : Cache) (plan' : Plan)
    (cache' : Cache) : Prop where
  totals : pair.totals plan.tally.totals plan'.tally.totals
  records : Matched pair.order pair.record plan.tally.records plan'.tally.records
  deltas : Matched pair.order pair.delta plan.deltas plan'.deltas
  scores : Option.Rel (Matched pair.order pair.score) plan.scores plan'.scores
  tells : cache.TellsActive chain
  tells' : cache'.TellsActive other

/-- Votes are counted alike. -/
theorem countFlags_tied (lawful : pair.Lawful preset config phase) {state other : FlagState preset}
    {holding holding' : Fin count → Holding} (holds : state.Holds holding)
    (holds' : other.Holds holding')
    (recorded : Matched pair.order pair.record (State.Holds.records state holding)
      (State.Holds.records other holding')) (totals : Totals) :
    Tied pair.likeness
      (fun tally tally' => pair.totals tally.totals tally'.totals ∧
        Matched pair.order pair.record tally.records tally'.records)
      (countFlags preset phase state.votes ⟨State.Holds.blanks state holding, totals⟩)
      (countFlags preset phase other.votes ⟨State.Holds.blanks other holding', totals⟩) := by
  rw [holds.countFlags, holds'.countFlags]
  obtain ⟨record, record', shown, shown', each⟩ := recorded
  rw [shown, shown']
  refine (lawful.countVotes totals each).bind ?_
  intro counted counted' related
  exact ⟨related, Matched.ofFn each⟩

/-- **Plans are tied.** -/
theorem planFlags_tied (lawful : pair.Lawful preset config phase) (cancelled : Bool)
    {state other : FlagState preset} (starts : pair.Starts state other) :
    Step.Tied pair.likeness (pair.Planned state.chain other.chain)
      (state.chain.planFlags config phase cancelled state.votes state.cache)
      (other.chain.planFlags config phase cancelled other.votes other.cache) := by
  obtain ⟨holding, holding', holds, holds', recorded⟩ := starts.holds
  have goOn := Tied.refl pair.likeness (checkCancelled cancelled)
  simp only [Chain.planFlags, holds.openFlags, holds'.openFlags, bind_assoc, pure_bind]
  refine Step.Tied.lift_bind goOn fun _ _ _ => ?_
  rw [starts.chain.activeTotals_eq]
  refine Step.Tied.lift_bind (Tied.refl _ _).known ?_
  rintro counted _ ⟨rfl, found, -⟩
  have learned : Step.Tied pair.likeness
      (fun _ cache _ cache' => cache.TellsActive state.chain ∧ cache'.TellsActive other.chain)
      (state.chain.cacheTotalActive counted.activeCurrent state.cache)
      (other.chain.cacheTotalActive counted.activeCurrent other.cache) :=
    ⟨Chain.cacheTotalActive_tells found starts.tells rfl,
      Chain.cacheTotalActive_tells (starts.chain.activeTotals_eq.symm ▸ found) starts.tells' rfl⟩
  refine learned.bind ?_
  rintro _ cache _ cache' ⟨tells, tells'⟩
  refine Step.Tied.lift_bind goOn fun _ _ _ => ?_
  refine Step.Tied.lift_bind (countFlags_tied lawful holds holds' recorded counted) ?_
  rintro ⟨records, totals⟩ ⟨records', totals'⟩ ⟨related, recorded⟩
  refine Step.Tied.lift_bind goOn fun _ _ _ => ?_
  refine Step.Tied.lift_bind (nextScores_tied lawful starts.chain starts.scores recorded) ?_
  intro scores scores' scored
  have recorded := withScores_matched lawful scored recorded
  have deltas := flagDeltas_tied lawful starts.chain related recorded
  refine Step.Tied.lift_bind (dueDeltas_tied lawful starts.chain deltas recorded) ?_
  intro deltas deltas' due
  exact ⟨related, recorded, due, scored, tells, tells'⟩

/-! ### The part that writes -/

/-- **Deltas are settled alike.** -/
theorem settle_tied (lawful : pair.Lawful preset config phase)
    (alike : chain.Alike pair.order other)
    (balances : Matched pair.order pair.balance chain.balances other.balances)
    (recorded : Matched pair.order pair.record records records') {deltas deltas' : Array Delta}
    (due : Matched pair.order pair.delta deltas deltas') :
    Step.Tied pair.likeness
      (fun _ books _ books' =>
        Matched pair.order pair.record books.records books'.records ∧
          Matched pair.order pair.balance books.chain.balances books'.chain.balances ∧
          books.chain = { chain with balances := books.chain.balances } ∧
          books'.chain = { other with balances := books'.chain.balances })
      (Books.settle deltas ⟨chain, records⟩) (Books.settle deltas' ⟨other, records'⟩) := by
  obtain ⟨validators, validators'⟩ := alike.validators.sizes
  obtain ⟨balance, balance', shown, shown', owned⟩ := balances
  obtain ⟨record, record', rfl, rfl, entered⟩ := recorded
  obtain ⟨delta, delta', rfl, rfl, given⟩ := due
  have agree (strict : pair.likeness ≠ .loose) :
      Books.HasRoom chain balance delta ↔ Books.HasRoom other balance' delta' := by
    rw [Books.HasRoom, Books.HasRoom, alike.isPastGenesis]
    refine imp_congr_right fun _ => (pair.order.forall_congr fun index => ?_).symm
    rw [lawful.fits strict (given index) (owned index)]
  refine Step.Tied.of_checks agree
    (Books.settle_of_hasRoom Array.size_ofFn validators shown)
    (Books.settle_of_hasRoom Array.size_ofFn validators' shown')
    (Books.settle_of_not_hasRoom Array.size_ofFn validators shown)
    (Books.settle_of_not_hasRoom Array.size_ofFn validators' shown') ?_
  intro _ books _ books' settled settled'
  have chains := Books.settle_chain settled shown
  have chains' := Books.settle_chain settled' shown'
  rw [Books.settle_records settled rfl shown, Books.settle_records settled' rfl shown', chains,
    chains']
  refine ⟨Matched.ofFn fun index => ?_, Matched.ofFn fun index => ?_, rfl, rfl⟩
  · rw [alike.isPastGenesis]
    split
    · exact lawful.noted (entered index) (given index) (owned index)
    · exact entered index
  · rw [alike.isPastGenesis]
    split
    · rename_i past
      have room := (Books.settle_ofFn settled shown past).1
      have room' := (Books.settle_ofFn settled' shown' (alike.isPastGenesis.trans past)).1
      exact lawful.apply (given index) (owned index) (room _) (room' _)
    · exact owned index

variable (pair) in
/-- Two epochs that have ended: everything that they report and that they leave is related. -/
structure Ends (report : Report) (final : FlagState preset) (report' : Report)
    (final' : FlagState preset) : Prop where
  totals : pair.totals report.totals report'.totals
  records : Matched pair.order pair.record report.records report'.records
  deltas : Matched pair.order pair.delta report.deltas report'.deltas
  slashingPenalties :
    PenaltyLog.Alike pair.order report.slashingPenalties report'.slashingPenalties
  balances : Matched pair.order pair.balance final.chain.balances final'.chain.balances
  scores : Matched pair.order pair.score final.votes.inactivityScores final'.votes.inactivityScores

theorem settle_state_tied (lawful : pair.Lawful preset config phase)
    {state other : FlagState preset} (alike : state.chain.Alike pair.order other.chain)
    (balances : Matched pair.order pair.balance state.chain.balances other.chain.balances)
    (recorded : Matched pair.order pair.record records records') {deltas deltas' : Array Delta}
    (due : Matched pair.order pair.delta deltas deltas') :
    Step.Tied pair.likeness
      (fun records middle records' middle' => Matched pair.order pair.record records records' ∧
        ∃ balances balances', Matched pair.order pair.balance balances balances' ∧
          middle = { state with chain := { state.chain with balances } } ∧
          middle' = { other with chain := { other.chain with balances := balances' } })
      (State.settle records deltas state) (State.settle records' deltas' other) := by
  have settled := settle_tied lawful alike balances recorded due
  unfold State.settle
  cases ran : Books.settle deltas ⟨state.chain, records⟩ <;>
    cases ran' : Books.settle deltas' ⟨other.chain, records'⟩ <;>
    rw [ran, ran'] at settled
  case ok.ok books _ books' =>
    obtain ⟨entered, owned, chain, chain'⟩ := settled
    refine ⟨entered, _, _, owned, ?_, ?_⟩
    · rw [chain]
    · rw [chain']
  all_goals exact settled

/-- The sweep writes nothing but balances. -/
theorem slash_state_tied (lawful : pair.Lawful preset config phase) {state other : FlagState preset}
    (alike : state.chain.Alike pair.order other.chain)
    (balances : Matched pair.order pair.balance state.chain.balances other.chain.balances)
    (active : GweiSum) :
    Step.Tied pair.likeness
      (fun penalties middle penalties' middle' => PenaltyLog.Alike pair.order penalties penalties' ∧
        Matched pair.order pair.balance middle.chain.balances middle'.chain.balances ∧
        middle.votes = state.votes ∧ middle'.votes = other.votes)
      (State.slash active (preset.slashingMultiplier phase) state)
      (State.slash active (preset.slashingMultiplier phase) other) := by
  unfold State.slash
  rw [Step.get_bind_apply, Step.get_bind_apply]
  refine Step.Tied.lift_bind (alike.slash_tied balances (fun _ _ => lawful.decrease) lawful.inOrder
    active (preset.slashingMultiplier phase)) ?_
  rintro ⟨chain, penalties⟩ ⟨chain', penalties'⟩ ⟨owned, collected⟩
  exact ⟨collected, owned, rfl, rfl⟩

/-- **Plans are concluded alike.** -/
theorem conclude_tied (lawful : pair.Lawful preset config phase) {state other : FlagState preset}
    (alike : state.chain.Alike pair.order other.chain)
    (balances : Matched pair.order pair.balance state.chain.balances other.chain.balances)
    (scores : Matched pair.order Eq state.votes.inactivityScores other.votes.inactivityScores)
    {plan plan' : Plan}
    (planned : pair.Planned state.chain other.chain plan state.cache plan' other.cache) :
    Step.Tied pair.likeness pair.Ends
      (State.conclude phase (·.withScores plan.scores) FlagVotes.rotate plan state)
      (State.conclude phase (·.withScores plan'.scores) FlagVotes.rotate plan' other) := by
  unfold State.conclude
  refine (settle_state_tied lawful alike balances planned.records planned.deltas).bind ?_
  rintro records _ records' _ ⟨recorded, balances, balances', owned, rfl, rfl⟩
  rw [Step.modify_bind_apply, Step.modify_bind_apply]
  have still := alike.withBalances balances balances'
  refine Step.Tied.bind
    (Chain.Alike.ask_lookupTotalActive_tied still planned.tells planned.tells') ?_
  rintro _ _ _ _ ⟨rfl, cache, cache', rfl, rfl⟩
  refine Step.Tied.bind (slash_state_tied lawful still owned _) ?_
  rintro penalties final penalties' final' ⟨collected, owned, votes, votes'⟩
  refine ⟨planned.totals, recorded, planned.deltas, collected, owned, ?_⟩
  show Matched _ _ final.votes.inactivityScores final'.votes.inactivityScores
  rw [votes, votes']
  have scored := planned.scores
  generalize plan.scores = found, plan'.scores = found' at scored
  cases scored with
  | none => exact scores.mono fun score _ equal => equal ▸ lawful.keepScore score
  | some matched => exact matched

/-- **Epochs end alike.** -/
theorem processFlags_tied (lawful : pair.Lawful preset config phase) (cancelled : Bool)
    {state other : FlagState preset} (starts : pair.Starts state other) :
    Step.Tied pair.likeness pair.Ends (State.processFlags config phase cancelled state)
      (State.processFlags config phase cancelled other) := by
  unfold State.processFlags
  rw [Step.get_bind_apply, Step.get_bind_apply]
  have planned := planFlags_tied lawful cancelled starts
  have asked : Step.Tied pair.likeness
      (fun plan middle plan' middle' => ∃ cache cache',
        pair.Planned state.chain other.chain plan cache plan' cache' ∧
          middle = { state with cache } ∧ middle' = { other with cache := cache' })
      (State.ask (·.planFlags config phase cancelled state.votes) state)
      (State.ask (·.planFlags config phase cancelled other.votes) other) := by
    simp only [State.ask, Step.zoom_apply]
    exact planned.move fun plan cache plan' cache' planned => ⟨cache, cache', planned, rfl, rfl⟩
  refine asked.bind ?_
  rintro plan _ plan' _ ⟨cache, cache', planned, rfl, rfl⟩
  refine conclude_tied lawful ?_ ?_ ?_ planned
  · exact starts.chain
  · exact starts.balances
  · exact starts.scores

end Comparison

end BeaconEpoch
