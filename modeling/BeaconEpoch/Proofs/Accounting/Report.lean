import BeaconEpoch.Proofs.Accounting.Flags
import Mathlib.Data.List.FinRange

/-!
# Reports account for epochs

What an epoch reports is what it did. A reader of the report alone can tell how each balance came
about, to the last unit.

## Main definitions

* `PenaltyLog.entries`: a log of penalties, from the penalties by position.
* `Report.recordOf`, `Report.deltaOf`, `Report.penalty?`: what a report shows of a validator.
* `Books.noted`: a record with the balances around a delta.
* `Books.HasRoom`: there is room for every reward.
* `State.Wrote`: what the part that writes has done to a chain.
* `Report.Accounts`: a report accounts for an epoch of a chain.
* `BeaconState.VotesMoved`: the votes of a state have moved one epoch on.

## Main statements

* `PenaltyLog.mem_entries`, `PenaltyLog.nodup_entries`: a log shows each penalty, and each one once.
* `Books.settle_records`, `Books.settle_chain`: settling, in the first epoch and past it.
* `Chain.slash_keep`: the penalties that are collected.
* `State.conclude_wrote`: the part that writes.
* `FlagEpoch.planFlags_scores`: records show the new scores.
* `BeaconState.processEpoch_accounted`: whole epochs.

## Design notes

* **A log is a list, read as a map.** Its entries are in the order of the registry, but only the
  penalty that it shows for a validator is spoken of; that there is one at most is a law.
* **The first epoch is no exception.** Its deltas are nothing, so that the formula for balances
  needs no case for it; only the balances in records are not noted there.
-/

namespace BeaconEpoch

/-! ## Logs of penalties -/

namespace PenaltyLog

variable {count : Nat}

/-- The log of penalties by position. -/
def entries (penalty : Fin count → Option Gwei) : List (ValidatorIndex × Gwei) :=
  (List.finRange count).filterMap fun index => (penalty index).map (index.val, ·)

variable {penalty : Fin count → Option Gwei} {index : ValidatorIndex} {amount : Gwei}

theorem mem_entries :
    (index, amount) ∈ entries penalty ↔
      ∃ position : Fin count, penalty position = some amount ∧ position.val = index := by
  simp only [entries, List.mem_filterMap, List.mem_finRange, true_and, Option.map_eq_some_iff,
    Prod.mk.injEq]
  grind

/-- No validator is listed twice. -/
theorem nodup_entries : ((entries penalty).map (·.1)).Nodup := by
  rw [entries, List.map_filterMap]
  refine (List.nodup_finRange count).filterMap fun position position' index shown shown' => ?_
  simp only [Option.map_map, Option.mem_def, Option.map_eq_some_iff, Function.comp_apply] at shown
  simp only [Option.map_map, Option.mem_def, Option.map_eq_some_iff, Function.comp_apply] at shown'
  obtain ⟨_, -, first⟩ := shown
  obtain ⟨_, -, second⟩ := shown'
  exact Fin.ext (first.trans second.symm)

/-- What is found in a log for a validator is its penalty. -/
theorem find?_entries (position : Fin count) :
    (entries penalty).find? (·.1 == position.val) = (penalty position).map (position.val, ·) := by
  cases found : (entries penalty).find? (·.1 == position.val) with
  | some entry =>
    obtain ⟨index, amount⟩ := entry
    have equal := List.find?_some found
    obtain ⟨other, shown, same⟩ := mem_entries.mp (List.mem_of_find?_eq_some found)
    obtain rfl : other = position := Fin.ext (same.trans (beq_iff_eq.mp equal))
    rw [shown, ← same]
    rfl
  | none =>
    cases shown : penalty position with
    | none => rfl
    | some amount =>
      have listed : (position.val, amount) ∈ entries penalty := mem_entries.mpr ⟨_, shown, rfl⟩
      exact absurd (beq_self_eq_true position.val) (List.find?_eq_none.mp found _ listed)

/-- Penalties are kept in the order of their positions. -/
theorem keep_ofFn :
    ((Array.ofFn penalty).zipIdx.foldl (fun collected (penalty, index) =>
      match penalty with
      | some penalty => keep.add collected index penalty
      | none => collected) keep.empty).toList = entries penalty := by
  have numbered : (Array.ofFn penalty).zipIdx =
      Array.ofFn fun position => (penalty position, position.val) :=
    Array.ext (by simp) fun index inside inside' => by simp
  rw [numbered, ← Array.foldl_toList, Array.toList_ofFn, List.ofFn_eq_map, List.foldl_map, entries]
  suffices pushed : ∀ (positions : List (Fin count)) (collected : Array (ValidatorIndex × Gwei)),
      (positions.foldl (fun collected position =>
        match penalty position with
        | some penalty => keep.add collected position penalty
        | none => collected) collected).toList =
      collected.toList ++ positions.filterMap fun position =>
        (penalty position).map (position.val, ·) from
    pushed _ _
  intro positions
  induction positions with
  | nil => simp
  | cons position positions ih =>
    intro collected
    rw [List.foldl_cons, ih]
    cases shown : penalty position with
    | none => simp [shown]
    | some amount => simp [shown, keep]

end PenaltyLog

/-! ## What a report shows -/

namespace Report

variable (report : Report)

/-- The record of a validator. -/
def recordOf (index : ValidatorIndex) : Record := report.records.getD index {}

/-- The delta of a validator. -/
def deltaOf (index : ValidatorIndex) : Delta := report.deltas.getD index {}

/-- The slashing penalty of a validator, if it was penalized. -/
def penalty? (index : ValidatorIndex) : Option Gwei :=
  (report.slashingPenalties.find? (·.1 == index)).map (·.2)

variable {report} {count : Nat} {penalty : Fin count → Option Gwei}

theorem penalty?_of_entries (shown : report.slashingPenalties.toList = PenaltyLog.entries penalty)
    (position : Fin count) : report.penalty? position = penalty position := by
  rw [penalty?, ← Array.find?_toList, shown, PenaltyLog.find?_entries, Option.map_map]
  exact Option.map_id'

theorem penalty?_eq_none (shown : report.slashingPenalties.toList = PenaltyLog.entries penalty)
    {index : ValidatorIndex} (beyond : count ≤ index) : report.penalty? index = none := by
  rw [penalty?, ← Array.find?_toList, shown, Option.map_eq_none_iff, List.find?_eq_none]
  rintro ⟨other, amount⟩ listed same
  obtain ⟨position, -, equal⟩ := PenaltyLog.mem_entries.mp listed
  rw [← beq_iff_eq.mp same, ← equal] at beyond
  exact Nat.not_le.mpr position.isLt beyond

end Report

/-! ## Settling -/

namespace Books

variable {preset : Preset} {books final : Books preset}

theorem settle_counts {deltas : Array Delta} (settled : settle deltas books = .ok () final) :
    books.records.size = books.chain.validators.size ∧
      books.chain.balances.size = books.chain.validators.size ∧
      deltas.size = books.chain.validators.size := by
  simp only [settle] at settled
  split at settled
  · rename_i counts
    obtain ⟨validators, balances, deltas⟩ := counts
    exact ⟨validators, balances.symm.trans validators, deltas.symm.trans validators⟩
  · cases settled

/-- In the first epoch nothing is settled. -/
theorem settle_first {deltas : Array Delta} (settled : settle deltas books = .ok () final)
    (first : ¬books.chain.isPastGenesis = true) : final = books := by
  simp only [settle, if_neg first] at settled
  split at settled
  · cases settled
    rfl
  · cases settled

/-- A record with the balances around a delta. -/
def noted (record : Record) (balance : Gwei) (delta : Delta) : Record :=
  { record with balanceBefore := balance, balanceAfter := delta.apply balance }

section Positions

variable {count : Nat} {record : Fin count → Record} {balance : Fin count → Gwei}
  {delta : Fin count → Delta}

/-- Past the first epoch every record shows the balance before and after its delta. -/
theorem settle_records (settled : settle (Array.ofFn delta) books = .ok () final)
    (records : books.records = Array.ofFn record)
    (balances : books.chain.balances = Array.ofFn balance) :
    final.records = Array.ofFn fun index =>
      if books.chain.isPastGenesis then noted (record index) (balance index) (delta index)
      else record index := by
  by_cases past : books.chain.isPastGenesis = true
  · simp only [settle, records, balances, zip_ofFn, past, if_true] at settled ⊢
    split at settled
    · split at settled
      · split at settled
        · cases settled
          rw [noteBalances, zip_ofFn]
          refine Array.ext (by simp) fun index inside inside' => ?_
          have reached : index < count := by simpa using inside'
          simp [reached, noted]
        · cases settled
      · cases settled
    · cases settled
  · simp only [settle_first settled past, records, past, if_false, Bool.false_eq_true]

/-- Past the first epoch there is room for every reward. -/
def HasRoom (chain : Chain preset) (balance : Fin count → Gwei) (delta : Fin count → Delta) :
    Prop :=
  chain.isPastGenesis = true → ∀ index, (delta index).fits (balance index) = true

section Outcome

variable {chain : Chain preset} {records : Array Record}

theorem settle_of_hasRoom (size : records.size = count) (validators : chain.validators.size = count)
    (balances : chain.balances = Array.ofFn balance) (room : HasRoom chain balance delta) :
    ∃ a final, settle (Array.ofFn delta) ⟨chain, records⟩ = .ok a final := by
  simp only [settle, size, validators, balances, Array.size_ofFn, zip_ofFn, and_self, if_true]
  split
  · rename_i past
    have none_fails : (Array.ofFn fun index => (balance index, delta index)).findIdx?
        (fun change => !change.2.fits change.1) = none := by
      simpa [Array.findIdx?_eq_none_iff, Array.mem_ofFn] using room past
    simp only [none_fails, Array.size_map, Array.size_ofFn, if_true]
    exact ⟨_, _, rfl⟩
  · exact ⟨_, _, rfl⟩

theorem settle_of_not_hasRoom (size : records.size = count)
    (validators : chain.validators.size = count) (balances : chain.balances = Array.ofFn balance)
    (full : ¬HasRoom chain balance delta) :
    ∃ final, settle (Array.ofFn delta) ⟨chain, records⟩ = .error .balanceOverflow final := by
  obtain ⟨past, full⟩ := Classical.not_imp.mp full
  simp only [settle, size, validators, balances, Array.size_ofFn, zip_ofFn, and_self, if_true,
    past]
  cases found : (Array.ofFn fun index => (balance index, delta index)).findIdx?
      (fun change => !change.2.fits change.1) with
  | none =>
    refine absurd (fun index => ?_) full
    have fits := Array.findIdx?_eq_none_iff.mp found _ (Array.mem_ofFn.mpr ⟨index, rfl⟩)
    simpa using fits
  | some index => exact ⟨_, rfl⟩

end Outcome

theorem settle_chain (settled : settle (Array.ofFn delta) books = .ok () final)
    (balances : books.chain.balances = Array.ofFn balance) :
    final.chain = { books.chain with
      balances := Array.ofFn fun index =>
        if books.chain.isPastGenesis then (delta index).apply (balance index)
        else balance index } := by
  by_cases past : books.chain.isPastGenesis = true
  · simpa only [past, if_true] using (settle_ofFn settled balances past).2
  · simp only [settle_first settled past, past, if_false, Bool.false_eq_true, ← balances]

end Positions

end Books

/-! ## The sweep -/

namespace Chain

variable {preset : Preset} {chain other : Chain preset}

/-- The sweep collects the penalties that it takes. -/
theorem slash_keep_ofFn {active : GweiSum} {multiplier : Nat}
    {penalty : chain.Member → Option Gwei} {collected : Array (ValidatorIndex × Gwei)}
    (gives : Gives (Array.ofFn penalty) (chain.slashingPenalties active multiplier))
    (swept : chain.slash PenaltyLog.keep active multiplier = .ok (other, collected)) :
    collected.toList = PenaltyLog.entries penalty := by
  unfold slash at swept
  split at swept
  · cases found : chain.slashingPenalties active multiplier with
    | ok penalties =>
      rw [found] at swept
      cases swept
      rw [gives.met_of_eq_ok found]
      exact PenaltyLog.keep_ofFn
    | error e =>
      rw [found] at swept
      cases swept
  · cases swept

/-- The sweep collects the penalties that are due. -/
theorem slash_keep {phase : Phase} {collected : Array (ValidatorIndex × Gwei)}
    (fits : chain.totalActive chain.currentEpoch < GweiSum.bound)
    (swept : chain.slash PenaltyLog.keep (chain.totalActive chain.currentEpoch)
      (preset.slashingMultiplier phase) = .ok (other, collected)) :
    collected.toList = PenaltyLog.entries (chain.duePenalty phase) := by
  refine slash_keep_ofFn ?_ swept
  have gives : Gives _ (chain.slashingPenalties (chain.totalActive chain.currentEpoch)
    (preset.slashingMultiplier phase)) := slashingPenalties_gives fits
  rwa [map_eq_ofFn] at gives

/-- Whether a penalty is due, said without the end of a word. -/
theorem slashingIsDue_iff {validator : Validator} :
    chain.slashingIsDue validator = true ↔
      validator.slashed = true ∧ validator.withdrawableEpoch.toNat =
        chain.currentEpoch.toNat + preset.epochsPerSlashingsVector.toNat / 2 := by
  have early := chain.toNat_currentEpoch_lt
  have short : preset.epochsPerSlashingsVector.toNat ≤ 8192 := by cases preset <;> decide
  rw [slashingIsDue, Bool.and_eq_true, beq_iff_eq, ← UInt64.toNat_inj, Word.toNat_addSat,
    UInt64.toNat_div]
  have two : (2 : UInt64).toNat = 2 := rfl
  rw [two, Nat.min_eq_left (by omega)]

end Chain

/-! ## The part that writes -/

namespace State

variable {preset : Preset} {Votes : Type}

/-- The part that writes has settled deltas with the balances of a chain and has taken the slashing
penalties that are due, as its report says. -/
structure Wrote (phase : Phase) (chain : Chain preset) (record : chain.Member → Record)
    (delta : chain.Member → Delta) (report : Report) (final : Chain preset) : Prop where
  deltas : report.deltas = Array.ofFn delta
  /-- Past the first epoch there is room for every reward. -/
  room : chain.isPastGenesis = true → ∀ validator,
    (delta validator).fits (chain.balanceOf validator) = true
  records : report.records = Array.ofFn fun validator =>
    if chain.isPastGenesis then
      Books.noted (record validator) (chain.balanceOf validator) (delta validator)
    else record validator
  penalties : report.slashingPenalties.toList = PenaltyLog.entries (chain.duePenalty phase)
  final : final.balances = Array.ofFn fun validator =>
    Gwei.decrease
      (if chain.isPastGenesis then (delta validator).apply (chain.balanceOf validator)
        else chain.balanceOf validator)
      ((chain.duePenalty phase validator).getD 0)

variable {state final : State preset Votes} {phase : Phase} {plan : Plan} {report : Report}

/-- **What the part that writes has done,** validator by validator, in any epoch. -/
theorem conclude_wrote {amend : Votes → Votes} {rotate : Votes → Nat → Votes}
    (ran : conclude phase amend rotate plan state = .ok report final)
    (coherent : state.cache.CoherentWith state.chain) :
    ∃ record delta, plan.tally.records = Array.ofFn record ∧ plan.deltas = Array.ofFn delta ∧
      Wrote phase state.chain record delta report final.chain := by
  obtain ⟨books, active, settled, looked, swept, -, recorded, reported, -⟩ := conclude_eq_ok ran
  obtain ⟨counts, balances, deltas⟩ := Books.settle_counts settled
  have only := (Books.settle_eq_ok settled).1
  -- the sweep divides by the active stake of the chain, which settling has not changed
  have still := coherent.congr only.sameDuties
  obtain ⟨after, -, answered⟩ := Chain.lookupTotalActive_answers state.cache still
  obtain ⟨total, -⟩ := Step.lift_eq_ok_iff.mp (answered.symm.trans looked)
  obtain ⟨fits, rfl⟩ := GweiSum.checked_eq_ok_iff.mp total
  rw [eq_ofFn_getD deltas {}] at settled
  have chain := Books.settle_chain settled (Chain.balances_eq_ofFn balances)
  have records := Books.settle_records settled (eq_ofFn_getD counts {})
    (Chain.balances_eq_ofFn balances)
  rw [chain] at fits swept
  have collected := Chain.slash_keep fits swept
  refine ⟨_, _, eq_ofFn_getD counts {}, eq_ofFn_getD deltas {}, ?_⟩
  refine {
    deltas := reported.trans (eq_ofFn_getD deltas {})
    room := fun past => (Books.settle_ofFn settled (Chain.balances_eq_ofFn balances) past).1
    records := recorded.trans records
    penalties := collected
    final := ?_ }
  rw [Chain.slash_ofFn rfl fits swept]
  refine congrArg Array.ofFn (funext fun validator => ?_)
  rw [Chain.getD_duePenalty]
  rfl

end State

/-! ## What a report accounts for -/

/-- A report accounts for an epoch of a chain: it explains every balance, and nothing else has
changed. -/
structure Report.Accounts {preset : Preset} (report : Report) (before after : Chain preset) :
    Prop where
  records : report.records.size = before.validators.size
  deltas : report.deltas.size = before.validators.size
  /-- No reward is cut off by the end of a word. -/
  room : ∀ validator : before.Member,
    (before.balanceOf validator).toNat + (report.deltaOf validator).reward.toNat < 2 ^ 64
  /-- A balance is the old one with the reward, less the penalty, less the slashing penalty. -/
  balance : ∀ validator : before.Member,
    (after.balances.getD validator 0).toNat =
      (before.balanceOf validator).toNat + (report.deltaOf validator).reward.toNat -
        (report.deltaOf validator).penalty.toNat - ((report.penalty? validator).getD 0).toNat
  /-- The penalized validators are the slashed ones that have half of their delay behind them. -/
  penalized : ∀ index, (report.penalty? index).isSome = true ↔
    ∃ validator : before.Member, validator.val = index ∧
      before.validators[validator].slashed = true ∧
      before.validators[validator].withdrawableEpoch.toNat =
        before.currentEpoch.toNat + preset.epochsPerSlashingsVector.toNat / 2
  /-- Nobody is penalized twice. -/
  once : (report.slashingPenalties.toList.map (·.1)).Nodup
  /-- Past the first epoch records show the balances around rewards and penalties. -/
  around : before.isPastGenesis = true → ∀ validator : before.Member,
    (report.recordOf validator).balanceBefore = before.balanceOf validator ∧
      (report.recordOf validator).balanceAfter.toNat =
        (before.balanceOf validator).toNat + (report.deltaOf validator).reward.toNat -
          (report.deltaOf validator).penalty.toNat
  /-- In the first epoch nobody is rewarded or penalized. -/
  first : ¬before.isPastGenesis = true → ∀ validator : before.Member,
    report.deltaOf validator = {}
  /-- There are as many balances as before, and all else is as it was. -/
  frame : before.OnlyBalances after

theorem State.Wrote.accounts {preset : Preset} {phase : Phase} {chain final : Chain preset}
    {record : chain.Member → Record} {delta : chain.Member → Delta} {report : Report}
    (wrote : Wrote phase chain record delta report final)
    (first : ¬chain.isPastGenesis = true → ∀ validator, delta validator = {})
    (frame : chain.OnlyBalances final) : report.Accounts chain final := by
  have shown (validator : chain.Member) : report.deltaOf validator = delta validator := by
    simp [Report.deltaOf, wrote.deltas]
  have penalized (validator : chain.Member) :
      report.penalty? validator = chain.duePenalty phase validator :=
    Report.penalty?_of_entries wrote.penalties validator
  -- the balance after rewards and penalties, in the first epoch and past it
  have settled (validator : chain.Member) :
      (if chain.isPastGenesis then (delta validator).apply (chain.balanceOf validator)
        else chain.balanceOf validator).toNat =
      (chain.balanceOf validator).toNat + (delta validator).reward.toNat -
        (delta validator).penalty.toNat := by
    split
    · rename_i past
      exact Delta.toNat_apply (wrote.room past validator)
    · rename_i genesis
      rw [first genesis]
      rfl
  refine {
    records := by simp [wrote.records]
    deltas := by simp [wrote.deltas]
    room := fun validator => ?_
    balance := fun validator => ?_
    penalized := fun index => ?_
    once := ?_
    around := fun past validator => ?_
    first := fun genesis validator => (shown validator).trans (first genesis validator)
    frame }
  · rw [shown]
    by_cases past : chain.isPastGenesis = true
    · simpa [Delta.fits] using wrote.room past validator
    · rw [first past]
      exact (chain.balanceOf validator).toNat_lt
  · rw [shown, penalized, ← settled, ← Gwei.toNat_decrease, wrote.final]
    simp
  · by_cases inside : index < chain.validators.size
    · rw [← Fin.val_mk inside, penalized, Chain.isSome_duePenalty, Chain.slashingIsDue_iff]
      constructor
      · exact fun due => ⟨⟨index, inside⟩, rfl, due⟩
      · rintro ⟨validator, equal, due⟩
        obtain rfl : validator = ⟨index, inside⟩ := Fin.ext equal
        exact due
    · rw [Report.penalty?_eq_none wrote.penalties (Nat.not_lt.mp inside)]
      refine iff_of_false Bool.false_ne_true ?_
      rintro ⟨validator, rfl, -⟩
      exact inside validator.isLt
  · rw [wrote.penalties]
    exact PenaltyLog.nodup_entries
  · have noted : report.recordOf validator =
        Books.noted (record validator) (chain.balanceOf validator) (delta validator) := by
      simp [Report.recordOf, wrote.records, past]
    rw [noted, shown]
    exact ⟨rfl, Delta.toNat_apply (wrote.room past validator)⟩

/-! ## Plans -/

namespace Chain

variable {preset : Preset} {chain : Chain preset} {config : Config} {cancelled : Bool}
  {cache after : Cache} {plan : Plan}

theorem dueDeltas_first {records : Array Record} {deltas : Except Error (Array Delta)}
    {found : Array Delta} (first : ¬chain.isPastGenesis = true)
    (ran : chain.dueDeltas records deltas = .ok found) : ∀ delta ∈ found, delta = {} := by
  rw [dueDeltas, if_neg first] at ran
  cases ran
  intro delta listed
  obtain ⟨_, -, rfl⟩ := Array.mem_map.mp listed
  rfl

end Chain

/-- The records of a plan show the scores that the votes are going to have. -/
theorem FlagEpoch.planFlags_scores {preset : Preset} (epoch : FlagEpoch preset)
    {cancelled : Bool} {cache after : Cache} {plan : Plan}
    (ran : epoch.chain.planFlags epoch.config epoch.phase.toPhase cancelled epoch.votes cache =
      .ok plan after) :
    plan.tally.records.map (·.inactivityScore) =
      (epoch.votes.withScores plan.scores).inactivityScores := by
  obtain ⟨tally, ⟨_, _⟩, opened, counted, scored, entered, -⟩ := Chain.planFlags_eq_ok ran
  obtain ⟨scores, records, totals⟩ := openFlags_eq_ok opened
  obtain ⟨rfl, -⟩ := countFlags_eq_ok records totals counted
  rw [entered]
  by_cases past : epoch.chain.isPastGenesis = true
  · obtain ⟨found, -⟩ := nextScores_eq_ok past scored scores
    simp only [found, withScores, FlagVotes.withScores, zipWith_ofFn, Array.map_ofFn]
    rfl
  · -- in the first epoch there are no new scores
    simp only [Chain.nextScores, Bool.not_eq_true] at scored past
    rw [past] at scored
    have found : plan.scores = none := (Except.ok.inj scored).symm
    simp only [found, withScores, FlagVotes.withScores, Array.map_ofFn]
    exact scores.symm

/-! ## Whole epochs -/

namespace BeaconState

variable {preset : Preset}

/-- The votes of a state have moved one epoch on, and a report shows the inactivity scores that they
have come to. The phase is the same. -/
def VotesMoved (report : Report) : BeaconState preset → BeaconState preset → Prop
  | .pending before, .pending after => after.votes = ⟨before.votes.current, []⟩
  | .flagged phase before, .flagged phase' after =>
    phase' = phase ∧ after.votes.previous = before.votes.current ∧
      after.votes.current = Array.replicate before.chain.validators.size 0 ∧
      after.votes.inactivityScores = report.records.map (·.inactivityScore)
  | _, _ => False

end BeaconState

namespace State

variable {preset : Preset} {config : Config} {cancelled : Bool} {report : Report}

theorem processPending_accounted {state final : PendingState preset}
    (coherent : state.cache.CoherentWith state.chain)
    (ran : processPending config cancelled state = .ok report final) :
    report.Accounts state.chain final.chain := by
  obtain ⟨only, -⟩ := processPending_eq_ok ran
  unfold processPending at ran
  rw [Step.get_bind_apply] at ran
  obtain ⟨plan, _, asked, concluded⟩ := Step.bind_eq_ok_iff.mp ran
  obtain ⟨cache, planned, rfl⟩ := ask_eq_ok_iff.mp asked
  have still := (Chain.planPending_hasAnswer ..).coherent_of_ok coherent planned
  obtain ⟨record, delta, -, deltas, wrote⟩ := conclude_wrote concluded still
  obtain ⟨-, -, -, -, due⟩ := Chain.planPending_eq_ok planned
  refine wrote.accounts (fun first validator => ?_) only
  exact Chain.dueDeltas_first first due _ (deltas ▸ Array.mem_ofFn.mpr ⟨validator, rfl⟩)

theorem processFlags_accounted {phase : FlagPhase} {state final : FlagState preset}
    (coherent : state.cache.CoherentWith state.chain)
    (ran : processFlags config phase.toPhase cancelled state = .ok report final) :
    report.Accounts state.chain final.chain ∧
      final.votes.inactivityScores = report.records.map (·.inactivityScore) := by
  obtain ⟨-, -, -, only, -⟩ := processFlags_eq_ok ran
  unfold processFlags at ran
  rw [Step.get_bind_apply] at ran
  obtain ⟨plan, _, asked, concluded⟩ := Step.bind_eq_ok_iff.mp ran
  obtain ⟨cache, planned, rfl⟩ := ask_eq_ok_iff.mp asked
  have still := (Chain.planFlags_hasAnswer ..).coherent_of_ok coherent planned
  obtain ⟨record, delta, records, deltas, wrote⟩ := conclude_wrote concluded still
  have scores := (FlagEpoch.mk config phase state.chain state.votes).planFlags_scores planned
  obtain ⟨_, _, _, _, _, -, -, -, votes⟩ := conclude_eq_ok concluded
  obtain ⟨-, -, -, -, -, -, due⟩ := Chain.planFlags_eq_ok planned
  refine ⟨wrote.accounts (fun first validator => ?_) only, ?_⟩
  · exact Chain.dueDeltas_first first due _ (deltas ▸ Array.mem_ofFn.mpr ⟨validator, rfl⟩)
  · rw [votes]
    refine scores.symm.trans ?_
    rw [records, wrote.records, Array.map_ofFn, Array.map_ofFn]
    refine congrArg Array.ofFn (funext fun validator => ?_)
    -- noting balances leaves the score alone
    simp only [Function.comp_apply]
    split <;> rfl

end State

namespace BeaconState

variable {preset : Preset} {config : Config} {cancelled : Bool} {report : Report}

/-- **A report accounts for an epoch.** Let an epoch of any phase succeed from a state with a
coherent cache. Then the balance of every validator has come about as the report says, the penalized
validators are those whose slashing penalty is due, the votes have moved one epoch on, and all else
is as it was. -/
theorem processEpoch_accounted {state after : BeaconState preset}
    (coherent : state.cache.CoherentWith state.chain)
    (ran : processEpoch config cancelled state = .ok report after) :
    report.Accounts state.chain after.chain ∧ VotesMoved report state after := by
  obtain ⟨start, final, rfl, inner, rfl⟩ | ⟨phase, start, final, rfl, inner, rfl⟩ :=
    dispatch_eq_ok ran
  · exact ⟨State.processPending_accounted coherent inner, (State.processPending_eq_ok inner).2⟩
  · obtain ⟨accounts, scores⟩ := State.processFlags_accounted coherent inner
    obtain ⟨previous, current⟩ := State.processFlags_rotates inner
    exact ⟨accounts, rfl, previous, current, scores⟩

theorem processEpoch_accounted_threeFates :
    ∃ report after,
      processEpoch Config.minimal false (.flagged .altair State.threeFates) = .ok report after ∧
      report.Accounts State.threeFates.chain after.chain ∧
      VotesMoved report (.flagged .altair State.threeFates) after := by
  have succeeds : Step.Result.succeeds
      (processEpoch Config.minimal false (.flagged .altair State.threeFates)) = true := by
    decide +kernel
  obtain ⟨report, after, ran⟩ := Step.Result.eq_ok_of_succeeds succeeds
  refine ⟨report, after, ran, processEpoch_accounted ?_ ran⟩
  exact Cache.CoherentWith.empty State.threeFates.chain

end BeaconState

end BeaconEpoch
