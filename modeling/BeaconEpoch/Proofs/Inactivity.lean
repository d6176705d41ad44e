import BeaconEpoch.Proofs.Epoch
import Mathlib.Order.Bounds.Basic

/-!
# Inactivity scores

Scores are found for one validator after another. The first one that has to rise and cannot stops
the search, and then nothing is written; else all of them are written at once, into the records that
they were found from and into the state.

## Main definitions

* `Config.scoreAfter`, `Config.scoresFrom`: scores found one after another.
* `Chain.rescore`, `FlagState.rescore`: the same in place, on records and on a state with its
  records.
* `Config.Outgrows`: whether the score of a record has to rise and cannot.
* `Chain.Rescores`: what the new scores are, and where they are shown.
* `FlagState.RefusesScores`, `FlagState.WritesScores`: how an update may end.

## Main statements

* `Config.scoreAfter_eq`, `Config.scoresFrom_eq`: one turn of the search, and all of them.
* `Chain.rescore_eq`, `FlagState.rescore_eq`: what is done in place is what is computed.
* `Chain.Rescores.le_of_recovery`: outside of a leak a recovery that makes up for the bias lets no
  score rise.
* `FlagState.updateScores_exact`: updates, in place or not.

## Design notes

* **Two sources of scores.** A score moves from what its record shows, and stays at what the state
  holds. The two agree in an epoch, but no law here assumes it.
-/

namespace BeaconEpoch

open Step

/-! ## One after another -/

namespace Config

variable (config : Config) (leaking : Bool)

/-- The score of a validator after an epoch, by way of two moves: down by one or up by the bias,
which has to fit; and then down again by what is recovered. -/
def scoreAfter (index : ValidatorIndex) (record : Record) (score : InactivityScore) :
    Except Error InactivityScore :=
  if !record.eligible then .ok score
  else do
    let moved ←
      if record.previousTargetAttester && !record.slashed then
        .ok (Word.subSat record.inactivityScore 1)
      else if record.inactivityScore.toNat + config.scoreBias.val.toNat < 2 ^ 64 then
        .ok (record.inactivityScore + config.scoreBias.val)
      else .error (.scoreOverflow index)
    return if leaking then moved else Word.subSat moved config.scoreRecoveryRate

/-- The scores of the validators from an index on, one after another, up to the first that cannot be
found. -/
def scoresFrom : (index : ValidatorIndex) → List Record → List InactivityScore →
    Except Error (List InactivityScore)
  | index, record :: records, score :: scores => do
    let found ← config.scoreAfter leaking index record score
    let rest ← scoresFrom (index + 1) records scores
    return found :: rest
  | _, _, scores => .ok scores

variable {config leaking}

/-- **One turn.** The order of the two moves does not show: what has recovered would have had to fit
before. -/
theorem scoreAfter_eq (index : ValidatorIndex) (record : Record) (score : InactivityScore) :
    config.scoreAfter leaking index record score =
      if config.scoreOverflows record then .error (.scoreOverflow index)
      else .ok (if record.eligible then config.nextScore leaking record else score) := by
  have missed : record.missedTarget =
      !(record.previousTargetAttester && !record.slashed) := by
    rw [Record.missedTarget, Bool.not_and, Bool.not_not]
  unfold scoreAfter scoreOverflows nextScore
  rw [missed]
  cases record.eligible with
  | false => rfl
  | true =>
    cases record.previousTargetAttester && !record.slashed with
    | true => rfl
    | false =>
      by_cases fits : record.inactivityScore.toNat + config.scoreBias.val.toNat < 2 ^ 64
      · simp only [Bool.not_true, Bool.not_false, Bool.true_and, Bool.false_eq_true, if_false,
          if_true, if_pos fits, decide_eq_true_eq, if_neg (Nat.not_le.mpr fits)]
        rfl
      · simp only [Bool.not_true, Bool.not_false, Bool.true_and, Bool.false_eq_true, if_false,
          if_neg fits, decide_eq_true_eq, if_pos (Nat.not_lt.mp fits)]
        rfl

/-- **All turns.** The search is on the two lists at once; it fails at the first record whose score
has to rise and cannot, whatever comes after. -/
theorem scoresFrom_eq (index : ValidatorIndex) {records : List Record}
    {scores : List InactivityScore} (sizes : records.length = scores.length) :
    config.scoresFrom leaking index records scores =
      match records.findIdx? config.scoreOverflows with
      | some first => .error (.scoreOverflow (index + first))
      | none => .ok (records.zipWith (fun record score =>
          if record.eligible then config.nextScore leaking record else score) scores) := by
  induction records generalizing index scores with
  | nil =>
    cases scores with
    | nil => rfl
    | cons score scores => cases sizes
  | cons record records ih =>
    cases scores with
    | nil => cases sizes
    | cons score scores =>
      rw [scoresFrom, scoreAfter_eq, List.findIdx?_cons, ih (index + 1) (Nat.succ.inj sizes)]
      split
      · rfl
      · cases records.findIdx? config.scoreOverflows with
        | none => rfl
        | some first =>
          show Except.error (Error.scoreOverflow (index + 1 + first)) =
            .error (.scoreOverflow (index + (first + 1)))
          rw [Nat.add_right_comm, Nat.add_assoc]

end Config

/-! ## In place -/

section InPlace

variable {preset : Preset}

/-- Finds new scores one after another, and then writes them into the records that they were found
from; nothing in the first epoch. -/
def Chain.rescore (chain : Chain preset) (config : Config) (scores : Array InactivityScore) :
    Step (Array Record) (Option (Array InactivityScore)) := do
  let records ← get
  if !chain.isPastGenesis then return none
  else if records.size = scores.size then
    let found ← config.scoresFrom chain.isLeaking 0 records.toList scores.toList
    modify (withScores · (some found.toArray))
    return some found.toArray
  else throw (.scoreCountMismatch records.size scores.size)

/-- Writes new scores into the records of a state and into the state. -/
def FlagState.rescore (config : Config) : Step (FlagState preset × Array Record) Unit := do
  let state := (← get).1
  let found ← zoom Prod.snd (fun records pair => (pair.1, records))
    (state.chain.rescore config state.votes.inactivityScores)
  modify fun (state, records) => ({ state with votes := state.votes.withScores found }, records)

/-- Records are written where scores are found, and nowhere else. -/
theorem Chain.rescore_eq (chain : Chain preset) (config : Config)
    (scores : Array InactivityScore) (records : Array Record) :
    chain.rescore config scores records =
      match chain.nextScores config scores records with
      | .ok found => .ok found (withScores records found)
      | .error e => .error e records := by
  unfold Chain.rescore nextScores
  rw [get_bind_apply]
  cases chain.isPastGenesis with
  | false => rfl
  | true =>
    simp only [Bool.not_true, Bool.false_eq_true, if_false]
    split
    · rename_i sizes
      obtain ⟨records⟩ := records
      obtain ⟨scores⟩ := scores
      rw [Config.scoresFrom_eq 0 sizes, List.findIdx?_toArray, List.zipWith_toArray]
      cases records.findIdx? config.scoreOverflows with
      | none => rfl
      | some first =>
        simp only [Nat.zero_add]
        rfl
    · rfl

theorem FlagState.rescore_eq (config : Config) (state : FlagState preset)
    (records : Array Record) :
    FlagState.rescore config (state, records) =
      match State.updateScores config records state with
      | .ok shown updated => .ok () (updated, shown)
      | .error e kept => .error e (kept, records) := by
  have written := state.chain.rescore_eq config state.votes.inactivityScores records
  unfold FlagState.rescore State.updateScores
  rw [get_bind_apply, get_bind_apply]
  cases found : state.chain.nextScores config state.votes.inactivityScores records with
  | ok scores =>
    rw [found] at written
    rw [bind_of_ok (lift_ok_apply ..)]
    exact bind_of_ok (zoom_eq_ok_iff.mpr ⟨_, written, rfl⟩)
  | error e =>
    rw [found] at written
    rw [bind_of_error (lift_error_apply ..)]
    exact bind_of_error (zoom_eq_error_iff.mpr ⟨_, written, rfl⟩)

end InPlace

/-! ## New scores -/

/-- The score of a record has to rise and cannot: the validator is eligible, is not one of the
unslashed with the right target, and has no room for the bias. -/
def Config.Outgrows (config : Config) (records : Array Record) (index : ValidatorIndex) : Prop :=
  ∃ inside : index < records.size, records[index].eligible = true ∧
    ¬(records[index].previousTargetAttester = true ∧ records[index].slashed = false) ∧
    2 ^ 64 ≤ records[index].inactivityScore.toNat + config.scoreBias.val.toNat

theorem Record.missedTarget_iff {record : Record} :
    record.missedTarget = true ↔
      ¬(record.previousTargetAttester = true ∧ record.slashed = false) := by
  rw [missedTarget, Bool.or_eq_true, Bool.not_eq_true', not_and_or, Bool.not_eq_true,
    Bool.not_eq_false]

theorem Config.outgrows_iff {config : Config} {records : Array Record} {index : ValidatorIndex} :
    config.Outgrows records index ↔
      ∃ inside : index < records.size, config.scoreOverflows records[index] = true := by
  refine exists_congr fun inside => ?_
  rw [scoreOverflows, Bool.and_eq_true, Bool.and_eq_true, decide_eq_true_eq, and_assoc,
    Record.missedTarget_iff]

namespace Chain

variable {preset : Preset}

/-- New scores, and records that show them. -/
structure Rescores (chain : Chain preset) (config : Config) (scores : Array InactivityScore)
    (records : Array Record) (new : Array InactivityScore) (after : Array Record) : Prop where
  size : new.size = records.size
  /-- Those who are eligible move, and others keep what the state holds. -/
  score : ∀ index (inside : index < records.size), (new.getD index 0).toNat =
    if records[index].eligible = true then
      (if records[index].previousTargetAttester = true ∧ records[index].slashed = false then
          records[index].inactivityScore.toNat - 1
        else records[index].inactivityScore.toNat + config.scoreBias.val.toNat) -
        if chain.isLeaking = true then 0 else config.scoreRecoveryRate.toNat
    else (scores.getD index 0).toNat
  records_size : after.size = records.size
  /-- A record shows its new score, and is the same otherwise. -/
  shown : ∀ index (inside : index < records.size), after[index]? =
    some { records[index] with inactivityScore := new.getD index 0 }

variable {chain : Chain preset} {config : Config} {scores new : Array InactivityScore}
  {records after : Array Record}

/-- **No score rises outside of a leak,** if what is recovered makes up for the bias and every
record shows the score that the state holds. -/
theorem Rescores.le_of_recovery (rescores : chain.Rescores config scores records new after)
    (recovers : config.scoreBias.val ≤ config.scoreRecoveryRate)
    (calm : chain.isLeaking = false)
    (carried : ∀ index (inside : index < records.size),
      records[index].inactivityScore = scores.getD index 0)
    {index : ValidatorIndex} (inside : index < records.size) :
    new.getD index 0 ≤ scores.getD index 0 := by
  have recovers := UInt64.le_iff_toNat_le.mp recovers
  rw [UInt64.le_iff_toNat_le, rescores.score index inside, carried index inside, calm]
  split
  · split
    · exact Nat.le_trans (Nat.sub_le ..) (Nat.sub_le ..)
    · rw [if_neg Bool.false_ne_true]
      omega
  · exact Nat.le_refl _

/-- A search for new scores either meets a first score that has to rise and cannot, or there is none
and it finds them all. -/
theorem nextScores_cases (config : Config) (past : chain.isPastGenesis = true)
    (sizes : records.size = scores.size) :
    (∃ index, IsLeast {index | config.Outgrows records index} index ∧
        chain.nextScores config scores records = .error (.scoreOverflow index)) ∨
      (∀ index, ¬config.Outgrows records index) ∧
        ∃ new, chain.nextScores config scores records = .ok (some new) ∧
          chain.Rescores config scores records new (withScores records (some new)) := by
  unfold nextScores
  rw [past, if_neg (by decide), if_pos sizes]
  cases found : records.findIdx? config.scoreOverflows with
  | some index =>
    obtain ⟨inside, overflows, first⟩ := Array.findIdx?_eq_some_iff_getElem.mp found
    refine .inl ⟨index, ⟨Config.outgrows_iff.mpr ⟨inside, overflows⟩, ?_⟩, rfl⟩
    intro other outgrows
    obtain ⟨_, overflows⟩ := Config.outgrows_iff.mp outgrows
    exact Nat.not_lt.mp fun before => first other before overflows
  | none =>
    have fits (index : ValidatorIndex) (inside : index < records.size) :
        ¬config.scoreOverflows records[index] = true :=
      Bool.eq_false_iff.mp (Array.findIdx?_eq_none_iff.mp found _ (Array.getElem_mem inside))
    refine .inr ⟨fun index outgrows => ?_, _, rfl, ?_⟩
    · obtain ⟨inside, overflows⟩ := Config.outgrows_iff.mp outgrows
      exact fits index inside overflows
    refine ⟨by simp [sizes], fun index inside => ?_, by simp [withScores, sizes],
      fun index inside => ?_⟩
    · have known : index < scores.size := sizes ▸ inside
      have entry : (records.zipWith (fun record score =>
          if record.eligible then config.nextScore chain.isLeaking record else score)
            scores).getD index 0 =
          if records[index].eligible then config.nextScore chain.isLeaking records[index]
          else scores[index] := by
        simp [inside, known]
      rw [entry]
      split
      · rename_i eligible
        rw [Config.toNat_nextScore _ eligible (fits index inside)]
        simp only [Record.missedTarget_iff, ite_not]
      · simp
    · simp [withScores, inside, sizes ▸ inside]

end Chain

/-! ## Updates -/

namespace FlagState

variable {preset : Preset}

section Outcome

variable (config : Config) (state : FlagState preset) (records : Array Record)

/-- An update fails: new scores are not found, and neither records nor state have changed. -/
structure RefusesScores (e : Error) : Prop where
  computed : state.chain.nextScores config state.votes.inactivityScores records = .error e
  inPlace : state.chain.rescore config state.votes.inactivityScores records = .error e records
  updated : State.updateScores config records state = .error e state
  updatedInPlace : rescore config (state, records) = .error e (state, records)

/-- An update succeeds: new scores are found, and are written into all records and into the state,
of which nothing else changes. -/
structure WritesScores (new : Array InactivityScore) (after : Array Record) : Prop where
  computed :
    state.chain.nextScores config state.votes.inactivityScores records = .ok (some new)
  inPlace : state.chain.rescore config state.votes.inactivityScores records =
    .ok (some new) after
  updated : State.updateScores config records state =
    .ok after { state with votes := { state.votes with inactivityScores := new } }
  updatedInPlace : rescore config (state, records) =
    .ok () ({ state with votes := { state.votes with inactivityScores := new } }, after)

variable {config state records}

theorem refusesScores_of_nextScores {e : Error}
    (failed : state.chain.nextScores config state.votes.inactivityScores records = .error e) :
    RefusesScores config state records e := by
  have updated : State.updateScores config records state = .error e state := by
    unfold State.updateScores
    rw [get_bind_apply, failed]
    rfl
  exact {
    computed := failed
    inPlace := by rw [Chain.rescore_eq, failed]
    updated
    updatedInPlace := by rw [rescore_eq, updated] }

theorem writesScores_of_nextScores {new : Array InactivityScore}
    (found : state.chain.nextScores config state.votes.inactivityScores records =
      .ok (some new)) :
    WritesScores config state records new (withScores records (some new)) := by
  have updated : State.updateScores config records state =
      .ok (withScores records (some new))
        { state with votes := { state.votes with inactivityScores := new } } := by
    unfold State.updateScores
    rw [get_bind_apply, found]
    rfl
  exact {
    computed := found
    inPlace := by rw [Chain.rescore_eq, found]
    updated
    updatedInPlace := by rw [rescore_eq, updated] }

end Outcome

/-- **Updates of scores are exact, and all or nothing.** Past the first epoch, let there be one
record per score. An update fails if and only if some score has to rise and cannot, even if what is
recovered would have brought it back. Then the error names the first such record, and nothing has
changed. Otherwise the new scores are as specified, and are written. If what is recovered makes up
for the bias, and the records show the scores of the state, then outside of a leak no score
rises. -/
theorem updateScores_exact (config : Config) (state : FlagState preset) (records : Array Record)
    (past : genesisEpoch < state.chain.currentEpoch)
    (sizes : records.size = state.votes.inactivityScores.size) :
    ((∃ e, RefusesScores config state records e) ↔ ∃ index, config.Outgrows records index) ∧
    (∀ e, RefusesScores config state records e →
      ∃ index, IsLeast {index | config.Outgrows records index} index ∧ e = .scoreOverflow index) ∧
    ((∀ index, ¬config.Outgrows records index) → ∃ new after,
      WritesScores config state records new after ∧
      state.chain.Rescores config state.votes.inactivityScores records new after ∧
      (config.scoreBias.val ≤ config.scoreRecoveryRate → state.chain.isLeaking = false →
        (∀ index (inside : index < records.size),
          records[index].inactivityScore = state.votes.inactivityScores.getD index 0) →
        ∀ index < records.size,
          new.getD index 0 ≤ state.votes.inactivityScores.getD index 0)) := by
  obtain ⟨index, least, failed⟩ | ⟨fits, new, found, rescores⟩ :=
    Chain.nextScores_cases config (decide_eq_true past) sizes
  · have refused := refusesScores_of_nextScores failed
    refine ⟨iff_of_true ⟨_, refused⟩ ⟨index, least.1⟩, fun e other => ⟨index, least, ?_⟩,
      fun fits => absurd least.1 (fits index)⟩
    exact Except.error.inj (other.computed.symm.trans failed)
  · have accepted (e : Error) : ¬RefusesScores config state records e := fun refused => by
      cases refused.computed.symm.trans found
    refine ⟨iff_of_false (fun ⟨e, refused⟩ => accepted e refused) fun ⟨index, outgrows⟩ =>
      fits index outgrows, fun e refused => absurd refused (accepted e), fun _ => ?_⟩
    refine ⟨new, _, writesScores_of_nextScores found, rescores, ?_⟩
    intro recovers calm carried index inside
    exact rescores.le_of_recovery recovers calm carried inside

/-- A state in the second epoch with two scores. -/
def twoScores (first second : InactivityScore) : FlagState .minimal where
  chain := { Chain.empty .minimal with slot := 15 }
  votes := ⟨#[], #[], #[first, second]⟩

/-- The records of two validators with duties, of whom the first one has the right target. -/
def twoRecords (first second : InactivityScore) : Array Record :=
  #[{ inactivityScore := first, activePrevious := true, previousTargetAttester := true },
    { inactivityScore := second, activePrevious := true }]

/-- A score of 40 falls, because more is recovered than the bias adds; the largest score of all is
refused, although it would fall as well. -/
theorem updateScores_exact_twoScores :
    (∃ new after, WritesScores Config.minimal (twoScores 10 40) (twoRecords 10 40) new after ∧
      (twoScores 10 40).chain.Rescores Config.minimal #[10, 40] (twoRecords 10 40) new after ∧
      ∀ index < 2, new.getD index 0 ≤ #[10, 40].getD index (0 : InactivityScore)) ∧
    RefusesScores Config.minimal (twoScores 10 Word.max) (twoRecords 10 Word.max)
      (.scoreOverflow 1) := by
  obtain ⟨-, -, writes⟩ := updateScores_exact Config.minimal (twoScores 10 40) (twoRecords 10 40)
    (by decide) rfl
  obtain ⟨fails, names, -⟩ := updateScores_exact Config.minimal (twoScores 10 Word.max)
    (twoRecords 10 Word.max) (by decide) rfl
  constructor
  · have fits : ∀ index : Fin 2,
        ¬Config.minimal.scoreOverflows ((twoRecords 10 40)[index]) = true := by decide
    obtain ⟨new, after, writes, rescores, falls⟩ := writes fun index outgrows => by
      obtain ⟨inside, overflows⟩ := Config.outgrows_iff.mp outgrows
      exact fits ⟨index, inside⟩ overflows
    have carried : ∀ index : Fin 2, (twoRecords 10 40)[index].inactivityScore =
        (twoScores 10 40).votes.inactivityScores.getD index 0 := by decide
    exact ⟨new, after, writes, rescores,
      falls (by decide) (by decide) fun index inside => carried ⟨index, inside⟩⟩
  · have second : Config.minimal.Outgrows (twoRecords 10 Word.max) 1 :=
      Config.outgrows_iff.mpr ⟨by decide, by decide⟩
    obtain ⟨e, refused⟩ := fails.mpr ⟨1, second⟩
    obtain ⟨index, least, rfl⟩ := names e refused
    obtain ⟨inside, overflows⟩ := Config.outgrows_iff.mp least.1
    have first : ¬Config.minimal.scoreOverflows (twoRecords 10 Word.max)[0] = true := by decide
    have after : index ≠ 0 := by
      rintro rfl
      exact first overflows
    obtain rfl : index = 1 := Nat.le_antisymm (least.2 second) (Nat.pos_of_ne_zero after)
    exact refused

end FlagState

end BeaconEpoch
