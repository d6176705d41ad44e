import BeaconEpoch.Proofs.Step
import BeaconEpoch.Proofs.Totals
import BeaconEpoch.Tally.Flags
import BeaconEpoch.Tally.Pending
import BeaconEpoch.Upgrade

/-!
# Coherent caches

A cache is coherent with a chain if whatever it knows is what the chain would answer afresh. From
such a cache every question is answered as if there were no cache at all, and the cache stays
coherent.

## Main definitions

* `Cache.CoherentWith`: everything that is known is right.
* `Chain.SameDuties`: what coherence depends on.
* `Chain.Answers`, `Chain.HasAnswer`: a question whose answer does not depend on the cache.

## Main statements

* `Cache.CoherentWith.advanceTo`: coherence over the next slot, with or without a new epoch.
* `Chain.lookupShuffled_answers`, `Chain.lookupTotalActive_answers`,
  `Chain.cacheTotalActive_answers`: the questions that fill the cache.
* `Chain.committee_hasAnswer` and its like: the questions that are made of them.

## Design notes

* **The answer is a parameter.** `Chain.Answers` names what a question would find without a cache,
  so that one law about a lookup serves both to compare two caches and to bound what is found.
-/

namespace BeaconEpoch

/-! ## The next epoch -/

namespace Preset

variable {preset : Preset} {slot next : Slot}

theorem slotsPerEpoch_cases (preset : Preset) :
    preset.slotsPerEpoch.toNat = 8 ∨ preset.slotsPerEpoch.toNat = 32 := by
  cases preset <;> decide

theorem epochAt_of_not_isEpochStart (later : next.toNat = slot.toNat + 1)
    (inside : ¬preset.isEpochStart next = true) : preset.epochAt next = preset.epochAt slot := by
  rw [isEpochStart_iff, later] at inside
  rw [← UInt64.toNat_inj, toNat_epochAt, toNat_epochAt, later]
  rcases preset.slotsPerEpoch_cases with length | length <;> rw [length] at inside ⊢ <;> omega

theorem toNat_epochAt_of_isEpochStart (later : next.toNat = slot.toNat + 1)
    (start : preset.isEpochStart next = true) :
    (preset.epochAt next).toNat = (preset.epochAt slot).toNat + 1 := by
  rw [isEpochStart_iff, later] at start
  rw [toNat_epochAt, toNat_epochAt, later]
  rcases preset.slotsPerEpoch_cases with length | length <;> rw [length] at start ⊢ <;> omega

/-- An epoch ends where the next one starts. -/
theorem isEpochEnd_of_later (later : next.toNat = slot.toNat + 1) :
    preset.isEpochEnd slot = .ok (preset.isEpochStart next) := by
  rw [isEpochEnd, Word.checked_eq_ok_iff.mpr later.symm]
  rfl

end Preset

/-! ## Coherence -/

/-- Everything that a cache knows is what the chain answers afresh. A total is known as a sum of
128 bits, so the total that the chain answers has to be one. -/
structure Cache.CoherentWith {preset : Preset} (cache : Cache) (chain : Chain preset) : Prop where
  shuffled : ∀ (epoch : RelativeEpoch) {indices : Array ValidatorIndex},
    cache.shuffled.get epoch = some indices →
      chain.shuffledIndices (chain.epochOf epoch) = .ok indices
  totalActive : ∀ (epoch : RelativeEpoch) {total : GweiSum},
    cache.totalActive.get epoch = some total →
      GweiSum.checked (chain.totalActive (chain.epochOf epoch)) = .ok total

/-- Two chains in the same epoch, with the same registry and the same randomness. -/
structure Chain.SameDuties {preset : Preset} (chain other : Chain preset) : Prop where
  currentEpoch : other.currentEpoch = chain.currentEpoch
  validators : other.validators = chain.validators
  randaoMixes : other.randaoMixes = chain.randaoMixes

namespace Chain

variable {preset : Preset} {chain other : Chain preset}

/-- A shuffle depends on the registry and on the randomness. -/
theorem shuffledIndices_congr (validators : other.validators = chain.validators)
    (randaoMixes : other.randaoMixes = chain.randaoMixes) (epoch : Epoch) :
    other.shuffledIndices epoch = chain.shuffledIndices epoch := by
  simp only [shuffledIndices, seed, randaoMix, activeIndices, validators, randaoMixes]

theorem totalActive_congr (validators : other.validators = chain.validators) (epoch : Epoch) :
    other.totalActive epoch = chain.totalActive epoch := by
  simp only [totalActive, validators]

/-- The epoch that is current at an epoch start was the next one, also if the old one was its own
predecessor. -/
theorem currentEpoch_of_isEpochStart {slot : Slot} (later : slot.toNat = chain.slot.toNat + 1)
    (start : preset.isEpochStart slot = true) :
    ({ chain with slot } : Chain preset).currentEpoch = chain.nextEpoch := by
  rw [← UInt64.toNat_inj, toNat_nextEpoch]
  exact Preset.toNat_epochAt_of_isEpochStart later start

theorem previousEpoch_of_isEpochStart {slot : Slot} (later : slot.toNat = chain.slot.toNat + 1)
    (start : preset.isEpochStart slot = true) :
    ({ chain with slot } : Chain preset).previousEpoch = chain.currentEpoch := by
  rw [← UInt64.toNat_inj, toNat_previousEpoch, currentEpoch_of_isEpochStart later start,
    toNat_nextEpoch]
  omega

theorem SameDuties.epochOf (same : SameDuties chain other) (epoch : RelativeEpoch) :
    other.epochOf epoch = chain.epochOf epoch := by
  cases epoch <;> simp only [Chain.epochOf, previousEpoch, nextEpoch, same.currentEpoch]

end Chain

namespace Cache.CoherentWith

variable {preset : Preset} {cache : Cache} {chain other : Chain preset}

/-- A cache that knows nothing is coherent with every chain. -/
theorem empty (chain : Chain preset) : Cache.empty.CoherentWith chain where
  shuffled epoch _ known := by cases epoch <;> cases known
  totalActive epoch _ known := by cases epoch <;> cases known

/-- Only the epoch, the registry and the randomness matter to coherence. -/
theorem congr (coherent : cache.CoherentWith chain) (same : chain.SameDuties other) :
    cache.CoherentWith other where
  shuffled epoch _ known := by
    rw [same.epochOf, Chain.shuffledIndices_congr same.validators same.randaoMixes]
    exact coherent.shuffled epoch known
  totalActive epoch _ known := by
    rw [same.epochOf, Chain.totalActive_congr same.validators]
    exact coherent.totalActive epoch known

/-- A shuffle that is computed afresh may be remembered. -/
theorem setShuffled {epoch : RelativeEpoch} {indices : Array ValidatorIndex}
    (coherent : cache.CoherentWith chain)
    (right : chain.shuffledIndices (chain.epochOf epoch) = .ok indices) :
    CoherentWith { cache with shuffled := cache.shuffled.set (some indices) epoch } chain where
  shuffled other _ known := by
    rw [PerEpoch.get_set] at known
    split at known
    · rename_i equal
      cases known
      rwa [equal]
    · exact coherent.shuffled other known
  totalActive := coherent.totalActive

/-- So may an active stake. -/
theorem setTotalActive {total : GweiSum} (coherent : cache.CoherentWith chain)
    (right : GweiSum.checked (chain.totalActive chain.currentEpoch) = .ok total) :
    CoherentWith { cache with totalActive := { cache.totalActive with current := some total } }
      chain where
  shuffled := coherent.shuffled
  totalActive epoch _ known := by
    cases epoch with
    | previous => exact coherent.totalActive .previous known
    | current =>
      cases known
      exact right
    | next => exact coherent.totalActive .next known

/-- **An epoch start moves every value to its new place.** What is known of the current epoch is
then about the previous one, and what is known of the next epoch about the current one. In the
first epoch, which is its own predecessor, nothing changes. -/
theorem advanceTo {slot : Slot} (coherent : cache.CoherentWith chain)
    (later : slot.toNat = chain.slot.toNat + 1) :
    CoherentWith (if preset.isEpochStart slot then cache.advance else cache)
      ({ chain with slot } : Chain preset) := by
  by_cases start : preset.isEpochStart slot = true
  · rw [if_pos start]
    have current := Chain.currentEpoch_of_isEpochStart later start
    have previous := Chain.previousEpoch_of_isEpochStart later start
    constructor
    · intro epoch indices known
      cases epoch with
      | previous =>
        show Chain.shuffledIndices _ (Chain.previousEpoch _) = _
        rw [previous]
        exact coherent.shuffled .current known
      | current =>
        show Chain.shuffledIndices _ (Chain.currentEpoch _) = _
        rw [current]
        exact coherent.shuffled .next known
      | next => cases known
    · intro epoch total known
      cases epoch with
      | previous =>
        show GweiSum.checked (Chain.totalActive _ (Chain.previousEpoch _)) = _
        rw [previous]
        exact coherent.totalActive .current known
      | current =>
        show GweiSum.checked (Chain.totalActive _ (Chain.currentEpoch _)) = _
        rw [current]
        exact coherent.totalActive .next known
      | next => cases known
  · rw [if_neg start]
    exact coherent.congr ⟨Preset.epochAt_of_not_isEpochStart later start, rfl, rfl⟩

end Cache.CoherentWith

/-! ## Answers -/

namespace Chain

variable {preset : Preset} {chain : Chain preset} {α β : Type}

/-- From every coherent cache a question ends like its answer alone, and leaves a cache that is
coherent again. -/
def Answers (chain : Chain preset) (question : Lookup α) (answer : Except Error α) : Prop :=
  ∀ cache : Cache, cache.CoherentWith chain →
    ∃ after : Cache, after.CoherentWith chain ∧ question cache = (liftM answer : Lookup α) after

/-- A question has an answer that does not depend on what a coherent cache knows. -/
def HasAnswer (chain : Chain preset) (question : Lookup α) : Prop :=
  ∃ answer, chain.Answers question answer

theorem answers_lift (answer : Except Error α) : chain.Answers (liftM answer) answer :=
  fun cache coherent => ⟨cache, coherent, rfl⟩

/-- Questions that have answers of their own make up a question that has one. -/
theorem Answers.bind {question : Lookup α} {next : α → Lookup β} {answer : Except Error α}
    {later : α → Except Error β} (first : chain.Answers question answer)
    (rest : ∀ a, answer = .ok a → chain.Answers (next a) (later a)) :
    chain.Answers (question >>= next) (answer >>= later) := by
  intro cache coherent
  obtain ⟨middle, still, asked⟩ := first cache coherent
  cases answer with
  | ok a =>
    obtain ⟨after, again, ended⟩ := rest a rfl middle still
    exact ⟨after, again, (Step.bind_of_ok asked).trans ended⟩
  | error e => exact ⟨middle, still, Step.bind_of_error asked⟩

theorem Answers.lift {result answer : Except Error α} (found : result = answer) :
    chain.Answers (liftM result) answer :=
  found ▸ answers_lift result

/-- A question that finds a value is followed by what is asked about the value. -/
theorem Answers.bind_ok {question : Lookup α} {next : α → Lookup β} {a : α}
    {later : Except Error β} (first : chain.Answers question (.ok a))
    (rest : chain.Answers (next a) later) : chain.Answers (question >>= next) later :=
  first.bind fun _ equal => Except.ok.inj equal ▸ rest

/-- Nothing is asked after a question that fails. -/
theorem Answers.bind_error {question : Lookup α} {next : α → Lookup β} {e : Error}
    (failed : chain.Answers question (.error e)) :
    chain.Answers (question >>= next) (.error e) := by
  have never : ∀ a, Except.error e = .ok a → chain.Answers (next a) (.error e) := nofun
  exact failed.bind never

/-- What a question finds is its answer. -/
theorem Answers.eq_ok {question : Lookup α} {answer : Except Error α} {a : α}
    {cache after : Cache} (answers : chain.Answers question answer)
    (coherent : cache.CoherentWith chain) (ran : question cache = .ok a after) :
    answer = .ok a ∧ after.CoherentWith chain := by
  obtain ⟨final, still, ended⟩ := answers cache coherent
  obtain ⟨found, rfl⟩ := Step.lift_eq_ok_iff.mp (ended.symm.trans ran)
  exact ⟨found, still⟩

namespace HasAnswer

theorem lift (answer : Except Error α) : chain.HasAnswer (liftM answer) :=
  ⟨answer, answers_lift answer⟩

theorem pure (a : α) : chain.HasAnswer (pure a) := lift (.ok a)

theorem throw (e : Error) : chain.HasAnswer (throw e : Lookup α) := lift (.error e)

theorem bind {question : Lookup α} {next : α → Lookup β} (first : chain.HasAnswer question)
    (rest : ∀ a, chain.HasAnswer (next a)) : chain.HasAnswer (question >>= next) := by
  obtain ⟨answer, answers⟩ := first
  refine ⟨answer >>= fun a => (rest a).choose, answers.bind fun a _ => ?_⟩
  exact (rest a).choose_spec

/-- What follows a result that needs no chain may rely on how it was found. -/
theorem lift_bind {answer : Except Error α} {next : α → Lookup β}
    (rest : ∀ a, answer = .ok a → chain.HasAnswer (next a)) :
    chain.HasAnswer (liftM answer >>= next) := by
  cases answer with
  | ok a => exact rest a rfl
  | error e => exact throw e

/-- A loop whose turns have answers has one. -/
theorem foldlM {γ : Type} {turn : γ → β → Lookup γ}
    (turns : ∀ state b, chain.HasAnswer (turn state b)) (list : List β) (initial : γ) :
    chain.HasAnswer (list.foldlM turn initial) := by
  induction list generalizing initial with
  | nil => exact pure initial
  | cons b list ih =>
    rw [List.foldlM_cons]
    exact (turns initial b).bind ih

end HasAnswer

/-- A cache is coherent after an answer was found with it, and after none was. -/
theorem HasAnswer.coherent_of_ok {question : Lookup α} {a : α} {cache after : Cache}
    (answer : chain.HasAnswer question) (coherent : cache.CoherentWith chain)
    (ran : question cache = .ok a after) : after.CoherentWith chain := by
  obtain ⟨answer, answers⟩ := answer
  exact (answers.eq_ok coherent ran).2

theorem HasAnswer.coherent_of_error {question : Lookup α} {e : Error} {cache after : Cache}
    (answer : chain.HasAnswer question) (coherent : cache.CoherentWith chain)
    (failed : question cache = .error e after) : after.CoherentWith chain := by
  obtain ⟨answer, answers⟩ := answer
  obtain ⟨final, still, ended⟩ := answers cache coherent
  obtain ⟨_, rfl⟩ := Step.lift_eq_error_iff.mp (ended.symm.trans failed)
  exact still

/-- What was found with one coherent cache is the answer with all of them. -/
theorem HasAnswer.answers_of_ok {question : Lookup α} {a : α} {cache after : Cache}
    (answer : chain.HasAnswer question) (coherent : cache.CoherentWith chain)
    (ran : question cache = .ok a after) : chain.Answers question (.ok a) := by
  obtain ⟨answer, answers⟩ := answer
  obtain ⟨rfl, -⟩ := answers.eq_ok coherent ran
  exact answers

/-! ### Questions that fill the cache -/

/-- A shuffle is answered alike whether it is known or has to be computed. -/
theorem lookupShuffled_answers (epoch : RelativeEpoch) :
    chain.Answers (chain.lookupShuffled epoch) (chain.shuffledIndices (chain.epochOf epoch)) := by
  intro cache coherent
  unfold lookupShuffled
  rw [Step.get_bind_apply]
  cases known : cache.shuffled.get epoch with
  | some indices =>
    -- what is known is what would be found
    refine ⟨cache, coherent, ?_⟩
    rw [coherent.shuffled epoch known]
    rfl
  | none =>
    cases fresh : chain.shuffledIndices (chain.epochOf epoch) with
    | ok indices => exact ⟨_, coherent.setShuffled fresh, rfl⟩
    | error e => exact ⟨cache, coherent, rfl⟩

/-- So is the active stake. -/
theorem lookupTotalActive_answers :
    chain.Answers chain.lookupTotalActive
      (GweiSum.checked (chain.totalActive chain.currentEpoch)) := by
  intro cache coherent
  unfold lookupTotalActive
  rw [Step.get_bind_apply]
  cases known : cache.totalActive.current with
  | some total =>
    have right := coherent.totalActive .current known
    refine ⟨cache, coherent, ?_⟩
    simp only [epochOf] at right
    rw [right]
    rfl
  | none =>
    cases fresh : GweiSum.checked (chain.totalActive chain.currentEpoch) with
    | ok total => exact ⟨_, coherent.setTotalActive fresh, rfl⟩
    | error e => exact ⟨cache, coherent, rfl⟩

/-- A total may be made known if it is the active stake, up to the raise to one increment. -/
theorem cacheTotalActive_answers {total : GweiSum} (fits : total < GweiSum.bound)
    (right : max preset.effectiveBalanceIncrement total = chain.totalActive chain.currentEpoch) :
    chain.Answers (chain.cacheTotalActive total) (.ok ()) := by
  intro cache coherent
  unfold cacheTotalActive
  refine ⟨_, ?_, Step.modify_apply ..⟩
  cases cache.totalActive.current with
  -- a value that is known already is kept
  | some total => exact coherent
  | none =>
    have increment : preset.effectiveBalanceIncrement < GweiSum.bound := by
      cases preset <;> decide
    refine coherent.setTotalActive ?_
    rw [right]
    refine if_pos ?_
    rw [← right]
    exact Nat.max_lt.mpr ⟨increment, fits⟩

/-! ### Questions about committees -/

theorem committeeCount_hasAnswer (epoch : RelativeEpoch) :
    chain.HasAnswer (chain.committeeCount epoch) :=
  HasAnswer.bind ⟨_, lookupShuffled_answers epoch⟩ fun _ => .pure _

/-- A committee is cut from a shuffle, so it is the same whatever was known. -/
theorem committee_hasAnswer (slot : Slot) (index : UInt64) :
    chain.HasAnswer (chain.committee slot index) := by
  refine (HasAnswer.lift _).bind ?_
  intro epoch
  refine (committeeCount_hasAnswer epoch).bind ?_
  intro perSlot
  split
  · refine HasAnswer.bind ⟨_, lookupShuffled_answers epoch⟩ fun indices => ?_
    iterate 7 refine (HasAnswer.lift _).bind fun _ => ?_
    exact .lift _
  · exact .throw _

theorem attestingIndices_hasAnswer (data : AttestationData) (bits : List Bool) :
    chain.HasAnswer (chain.attestingIndices data bits) := by
  refine (committee_hasAnswer _ _).bind ?_
  intro members
  split
  · exact .pure _
  · exact .throw _

/-! ### Questions of an epoch -/

/-- The active stake that is counted when the books are opened is made known rightly. -/
theorem cacheActiveTotals_answers {totals : Totals}
    (counted : chain.activeTotals.checked = .ok totals) :
    chain.Answers (chain.cacheTotalActive totals.activeCurrent) (.ok ()) := by
  obtain ⟨rfl, fits⟩ := Totals.eq_of_checked_eq_ok counted
  exact cacheTotalActive_answers fits chain.totalActive_currentEpoch.symm

theorem openPending_hasAnswer : chain.HasAnswer chain.openPending := by
  refine (HasAnswer.lift _).bind ?_
  intro following
  refine HasAnswer.lift_bind fun totals counted => ?_
  exact HasAnswer.bind ⟨_, cacheActiveTotals_answers counted⟩ fun _ => .pure _

theorem openFlags_hasAnswer (scores : Array InactivityScore) :
    chain.HasAnswer (chain.openFlags scores) := by
  unfold openFlags
  split
  · refine HasAnswer.lift_bind fun totals counted => ?_
    exact HasAnswer.bind ⟨_, cacheActiveTotals_answers counted⟩ fun _ => .pure _
  · exact .throw _

/-- Votes are counted with committees, one attestation after the other. -/
theorem countAttestations_hasAnswer (votes : PendingVotes) (tally : Tally) :
    chain.HasAnswer (chain.countAttestations votes tally) := by
  refine (HasAnswer.foldlM (fun records attestation => ?_) _ _).bind fun records => ?_
  · refine (HasAnswer.lift _).bind fun marks => ?_
    exact (attestingIndices_hasAnswer _ _).bind fun voters => .lift _
  · exact (HasAnswer.lift _).bind fun totals => .pure _

theorem creditAttestations_hasAnswer (attestations : List PendingAttestation) :
    chain.HasAnswer (chain.creditAttestations attestations) := by
  refine HasAnswer.foldlM (fun flags attestation => ?_) _ _
  refine (attestingIndices_hasAnswer _ _).bind ?_
  intro voters
  exact (HasAnswer.lift _).bind fun earned => .lift _

end Chain

end BeaconEpoch
