import BeaconEpoch.Proofs.Accounting.Votes

/-!
# Selected voters

What an epoch of Phase 0 notes about a validator is the union of the votes of all attestations that
select it, and the inclusion of the one that was included first.

## Main definitions

* `Chain.Selects`: the bits of an attestation select a validator.
* `Chain.FirstIncluded`: the attestation for the previous epoch that brought a validator in first.
* `Chain.Notes`: what a record says about the attestations that select a validator.

## Main statements

* `Chain.Seats.mem_votersOf_iff`: the voters are those who are selected.
* `Chain.firstIncluded_of_earliest`: the earliest inclusion, in the order of the list.
* `Chain.countAttestations_exact`: union of votes and earliest inclusion.

## Design notes

* **Positions, not lists.** A validator is selected if some bit is set at a position that the
  validator has in the committee. How voters are collected is no part of the definition.
-/

namespace BeaconEpoch

/-! ## Who is selected -/

namespace Chain

variable {preset : Preset} (chain : Chain preset)

/-- An attestation selects a validator: a bit is set where the validator stands in the committee. -/
def Selects (attestation : PendingAttestation) (validator : ValidatorIndex) : Prop :=
  ∃ members, chain.Answers (chain.committee attestation.data.slot attestation.data.index)
      (.ok members) ∧
    ∃ position : Nat, members[position]? = some validator ∧
      attestation.aggregationBits[position]? = some true

variable {chain} {attestation : PendingAttestation} {members : List ValidatorIndex}
  {cache after : Cache}

/-- The voters of an attestation are those whom it selects. -/
theorem Seats.mem_votersOf_iff (seats : chain.Seats attestation members)
    {validator : ValidatorIndex} :
    validator ∈ chain.votersOf attestation ↔ chain.Selects attestation validator := by
  obtain ⟨_, -, found⟩ := seats.attestingIndices Cache.empty (.empty chain)
  have collected := (attestingIndices_eq_ok (.empty chain) found).1
  rw [← collected, mem_voters_iff]
  constructor
  · intro selected
    exact ⟨members, seats.answers, selected⟩
  · rintro ⟨others, answers, selected⟩
    rwa [answers.unique seats.answers] at selected

theorem selects_iff (found : chain.committee attestation.data.slot attestation.data.index
    Cache.empty = .ok members after) {validator : ValidatorIndex} :
    chain.Selects attestation validator ↔
      validator ∈ voters attestation.aggregationBits members := by
  have answers := (committee_hasAnswer ..).answers_of_ok (.empty chain) found
  rw [mem_voters_iff]
  constructor
  · rintro ⟨others, answers', selected⟩
    rwa [answers'.unique answers] at selected
  · exact fun selected => ⟨members, answers, selected⟩

theorem not_selects {e : Error} (failed : chain.committee attestation.data.slot
    attestation.data.index Cache.empty = .error e after) {validator : ValidatorIndex} :
    ¬chain.Selects attestation validator := by
  rintro ⟨members, answers, -⟩
  obtain ⟨_, -, found⟩ := answers Cache.empty (.empty chain)
  cases failed.symm.trans found

-- by the committee that an empty cache finds: `Selects` speaks of every coherent cache, and there
-- are too many of them to be tried
instance (attestation : PendingAttestation) (validator : ValidatorIndex) :
    Decidable (chain.Selects attestation validator) :=
  match found : chain.committee attestation.data.slot attestation.data.index Cache.empty with
  | .ok members _ =>
    decidable_of_iff (validator ∈ voters attestation.aggregationBits members)
      (selects_iff found).symm
  | .error _ _ => .isFalse (not_selects found)

/-- What every turn of a loop over attestations shows about its attestation holds of all of them. -/
theorem forall_of_foldlM {α : Type} {turn : α → PendingAttestation → Lookup α}
    {shown : PendingAttestation → Prop}
    (turns : ∀ {a attestation cache found after}, cache.CoherentWith chain →
      turn a attestation cache = .ok found after →
        after.CoherentWith chain ∧ shown attestation)
    {attestations : List PendingAttestation} {a found : α} (coherent : cache.CoherentWith chain)
    (ran : attestations.foldlM turn a cache = .ok found after) :
    ∀ attestation ∈ attestations, shown attestation := by
  induction attestations generalizing a cache with
  | nil => nofun
  | cons attestation attestations ih =>
    rw [List.foldlM_cons] at ran
    obtain ⟨middle, between, first, rest⟩ := Step.bind_eq_ok_iff.mp ran
    obtain ⟨still, here⟩ := turns coherent first
    intro listed mem
    rcases List.mem_cons.mp mem with rfl | mem
    · exact here
    · exact ih still rest listed mem

/-- Where all committees are found, a validator takes part in what selects it. -/
theorem mem_votesOf_iff {attestations : List PendingAttestation}
    (seats : ∀ attestation ∈ attestations, ∃ members, chain.Seats attestation members)
    {validator : chain.Member} :
    attestation ∈ chain.votesOf attestations validator ↔
      attestation ∈ attestations ∧ chain.Selects attestation validator := by
  rw [votesOf, List.mem_filter, decide_eq_true_eq]
  refine and_congr_right fun listed => ?_
  obtain ⟨members, seats⟩ := seats attestation listed
  exact seats.mem_votersOf_iff

end Chain

/-! ## The earliest inclusion -/

/-- Of those entries of a list that pass a test, the least one that comes first has only greater
ones before it and none that is less after it. -/
theorem split_of_argmin_filter {α : Type} {size : α → Nat} {test : α → Bool} {list : List α}
    {least : α} (found : (list.filter test).argmin size = some least) :
    test least = true ∧ ∃ earlier later, list = earlier ++ least :: later ∧
      (∀ other ∈ earlier, test other = true → size least < size other) ∧
      ∀ other ∈ later, test other = true → size least ≤ size other := by
  induction list using List.reverseRecOn generalizing least with
  | nil => cases found
  | append_singleton list last ih =>
    rw [List.filter_append, List.filter_cons, List.filter_nil] at found
    by_cases passes : test last = true
    · rw [if_pos passes, List.argmin_concat] at found
      cases before : (list.filter test).argmin size with
      | none =>
        rw [before] at found
        cases found
        have noneYet := List.filter_eq_nil_iff.mp (List.argmin_eq_none.mp before)
        refine ⟨passes, list, [], rfl, ?_, nofun⟩
        intro other listed passes
        exact absurd passes (noneYet other listed)
      | some first =>
        obtain ⟨tested, earlier, later, rfl, less, le⟩ := ih before
        rw [before] at found
        dsimp only at found
        split at found
        · rename_i less
          cases found
          refine ⟨passes, _, [], rfl, ?_, nofun⟩
          intro other listed passes
          have le := List.le_of_mem_argmin (List.mem_filter.mpr ⟨listed, passes⟩) before
          exact Nat.lt_of_lt_of_le less le
        · rename_i notLess
          cases found
          refine ⟨tested, earlier, later ++ [last], by simp, less, ?_⟩
          intro other listed passes
          rcases List.mem_append.mp listed with listed | listed
          · exact le other listed passes
          · cases List.mem_singleton.mp listed
            exact Nat.not_lt.mp notLess
    · rw [if_neg passes, List.append_nil] at found
      obtain ⟨tested, earlier, later, rfl, less, le⟩ := ih found
      refine ⟨tested, earlier, later ++ [last], by simp, less, ?_⟩
      intro other listed tested
      rcases List.mem_append.mp listed with listed | listed
      · exact le other listed tested
      · cases List.mem_singleton.mp listed
        exact absurd tested passes

namespace Chain

variable {preset : Preset} (chain : Chain preset)

/-- An attestation is a vote of a kind by a validator. -/
def VotesFor (attestation : PendingAttestation) (category : Category)
    (validator : ValidatorIndex) : Prop :=
  chain.Selects attestation validator ∧ chain.qualifies attestation category = true

/-- An attestation for the previous epoch selects a validator, and no other one does so that was
included earlier, or at the same slot if that one is listed before it. -/
def FirstIncluded (attestations : List PendingAttestation) (validator : ValidatorIndex)
    (first : PendingAttestation) : Prop :=
  chain.VotesFor first .previousEpoch validator ∧
    ∃ earlier later, attestations = earlier ++ first :: later ∧
      (∀ other ∈ earlier, chain.VotesFor other .previousEpoch validator →
        first.inclusionSlot < other.inclusionSlot) ∧
      ∀ other ∈ later, chain.VotesFor other .previousEpoch validator →
        first.inclusionSlot ≤ other.inclusionSlot

variable {chain} {attestations : List PendingAttestation} {validator : chain.Member}

/-- What is the earliest among the attestations that a validator takes part in was included first
among all of them. -/
theorem firstIncluded_of_earliest {first : PendingAttestation}
    (seats : ∀ attestation ∈ attestations, ∃ members, chain.Seats attestation members)
    (found : chain.earliest (chain.votesOf attestations validator) = some first) :
    chain.FirstIncluded attestations validator first := by
  rw [earliest, votesOf, List.filter_filter] at found
  obtain ⟨tested, earlier, later, rfl, less, le⟩ := split_of_argmin_filter found
  -- the test of the filter is whether an attestation is a vote of the validator
  have test (attestation : PendingAttestation)
      (listed : attestation ∈ earlier ++ first :: later) :
      (chain.qualifies attestation .previousEpoch &&
          decide (validator.val ∈ chain.votersOf attestation)) = true ↔
        chain.VotesFor attestation .previousEpoch validator := by
    obtain ⟨members, seats⟩ := seats attestation listed
    rw [Bool.and_eq_true, decide_eq_true_eq, seats.mem_votersOf_iff, and_comm, VotesFor]
  refine ⟨(test first (by simp)).mp tested, earlier, later, rfl, ?_, ?_⟩
  · intro other listed votes
    exact UInt64.lt_iff_toNat_lt.mpr
      (less other listed ((test other (by simp [listed])).mpr votes))
  · intro other listed votes
    exact UInt64.le_iff_toNat_le.mpr
      (le other listed ((test other (by simp [listed])).mpr votes))

theorem not_votesFor_of_earliest {attestation : PendingAttestation}
    (seats : ∀ attestation ∈ attestations, ∃ members, chain.Seats attestation members)
    (found : chain.earliest (chain.votesOf attestations validator) = none)
    (listed : attestation ∈ attestations) :
    ¬chain.VotesFor attestation .previousEpoch validator := by
  rintro ⟨selects, qualifies⟩
  have noneVotes := List.filter_eq_nil_iff.mp (List.argmin_eq_none.mp found)
  exact noneVotes attestation ((mem_votesOf_iff seats).mpr ⟨listed, selects⟩) qualifies

/-- What is included first is included at the least slot. -/
theorem FirstIncluded.le {first attestation : PendingAttestation}
    (included : chain.FirstIncluded attestations validator first)
    (listed : attestation ∈ attestations)
    (votes : chain.VotesFor attestation .previousEpoch validator) :
    first.inclusionSlot ≤ attestation.inclusionSlot := by
  obtain ⟨-, earlier, later, rfl, less, le⟩ := included
  rcases List.mem_append.mp listed with listed | listed
  · exact UInt64.le_of_lt (less attestation listed votes)
  · rcases List.mem_cons.mp listed with rfl | listed
    · exact UInt64.le_refl _
    · exact le attestation listed votes

theorem FirstIncluded.mem {first : PendingAttestation}
    (included : chain.FirstIncluded attestations validator first) : first ∈ attestations := by
  obtain ⟨-, earlier, later, rfl, -⟩ := included
  simp

end Chain

/-! ## Records -/

/-- A record as if its validator had not voted. -/
def Record.withoutVotes (record : Record) : Record :=
  { record with
    currentAttester := false
    currentTargetAttester := false
    previousAttester := false
    previousTargetAttester := false
    previousHeadAttester := false
    inclusionSlot := farFutureSlot
    inclusionDistance := farFutureSlot
    proposerIndex := 0 }

theorem Record.withoutVotes_mark {marks : Marks} {attestation : PendingAttestation}
    {record : Record} : (record.mark marks attestation).withoutVotes = record.withoutVotes := by
  unfold mark
  dsimp only
  split <;> rfl

namespace Chain

variable {preset : Preset} (chain : Chain preset)

/-- A record says what some attestations say about a validator: the union of its votes, and the
earliest inclusion of those for the previous epoch. -/
structure Notes (attestations : List PendingAttestation) (validator : ValidatorIndex)
    (record : Record) : Prop where
  /-- A vote of a kind counts if some attestation is one. -/
  votes : ∀ category, record.attested .phase0 category = true ↔
    ∃ attestation ∈ attestations, chain.VotesFor attestation category validator
  /-- The slot of inclusion is the least one, and at most the far future. -/
  slot : IsLeast (insert farFutureSlot
      {slot | ∃ attestation ∈ attestations,
        chain.VotesFor attestation .previousEpoch validator ∧ attestation.inclusionSlot = slot})
    record.inclusionSlot
  /-- The delay and the proposer come with that slot, from the first attestation that has it. -/
  inclusion : record.inclusionSlot ≠ farFutureSlot →
    ∃ first, chain.FirstIncluded attestations validator first ∧
      record.inclusion = first.inclusion
  /-- If nothing was included before the far future, then no delay and no proposer is noted. -/
  blank : record.inclusionSlot = farFutureSlot →
    record.inclusion = (farFutureSlot, farFutureSlot, 0)

variable {chain} {attestations : List PendingAttestation} {validator : chain.Member}
  {record : Record}

theorem withoutVotes_enter :
    (chain.enter attestations record).withoutVotes = record.withoutVotes := by
  induction attestations using List.reverseRecOn with
  | nil => rfl
  | append_singleton attestations attestation ih => rw [enter_concat, Record.withoutVotes_mark, ih]

/-- No slot is later than the far future. -/
theorem le_farFutureSlot (slot : Slot) : slot ≤ farFutureSlot := by
  have far : farFutureSlot.toNat = 2 ^ 64 - 1 := rfl
  rw [UInt64.le_iff_toNat_le, far]
  exact Nat.le_pred_of_lt slot.toNat_lt

theorem inclusion_of_withoutVotes (unset : record.withoutVotes = record) :
    record.inclusion = (farFutureSlot, farFutureSlot, 0) := by
  rw [← unset]
  rfl

theorem attested_of_withoutVotes (unset : record.withoutVotes = record) (category : Category) :
    record.attested .phase0 category = false := by
  rw [← unset]
  cases category <;> rfl

/-- Either nothing was included before the far future, and a record stays blank, or it shows what
was included first. -/
theorem inclusion_enter_cases (validator : chain.Member) (unset : record.withoutVotes = record)
    (seats : ∀ attestation ∈ attestations, ∃ members, chain.Seats attestation members) :
    ((chain.enter (chain.votesOf attestations validator) record).inclusion =
        (farFutureSlot, farFutureSlot, 0) ∧
      ∀ attestation ∈ attestations, chain.VotesFor attestation .previousEpoch validator →
        attestation.inclusionSlot = farFutureSlot) ∨
    ∃ first, chain.FirstIncluded attestations validator first ∧
      first.inclusionSlot ≠ farFutureSlot ∧
      (chain.enter (chain.votesOf attestations validator) record).inclusion = first.inclusion := by
  have blank := inclusion_of_withoutVotes unset
  have shown : record.inclusionSlot = farFutureSlot := congrArg Prod.fst blank
  rw [inclusion_enter, shown, blank]
  cases found : chain.earliest (chain.votesOf attestations validator) with
  | none =>
    refine .inl ⟨rfl, ?_⟩
    intro attestation listed votes
    exact absurd votes (not_votesFor_of_earliest seats found listed)
  | some first =>
    have included := firstIncluded_of_earliest seats found
    dsimp only
    split
    · rename_i before
      exact .inr ⟨first, included, UInt64.ne_of_lt before, rfl⟩
    · rename_i notBefore
      refine .inl ⟨rfl, ?_⟩
      intro attestation listed votes
      refine UInt64.le_antisymm (le_farFutureSlot _) ?_
      exact UInt64.le_trans (UInt64.not_lt.mp notBefore) (included.le listed votes)

/-- A record without votes, with all attestations entered that select its validator, says what these
attestations say. -/
theorem notes_enter (unset : record.withoutVotes = record)
    (seats : ∀ attestation ∈ attestations, ∃ members, chain.Seats attestation members) :
    chain.Notes attestations validator
      (chain.enter (chain.votesOf attestations validator) record) := by
  have votes (category : Category) :
      (chain.enter (chain.votesOf attestations validator) record).attested .phase0 category =
          true ↔
        ∃ attestation ∈ attestations, chain.VotesFor attestation category validator := by
    rw [attested_enter, attested_of_withoutVotes unset, Bool.false_or, List.any_eq_true]
    refine exists_congr fun attestation => ?_
    rw [mem_votesOf_iff seats, and_assoc, VotesFor]
  rcases inclusion_enter_cases validator unset seats with
    ⟨blank, late⟩ | ⟨first, included, early, shown⟩
  · have slot : (chain.enter (chain.votesOf attestations validator) record).inclusionSlot =
      farFutureSlot := congrArg Prod.fst blank
    refine ⟨votes, ?_, fun early => absurd slot early, fun _ => blank⟩
    rw [slot]
    refine ⟨Set.mem_insert _ _, ?_⟩
    rintro _ (rfl | ⟨attestation, listed, votes, rfl⟩)
    · exact UInt64.le_refl _
    · exact UInt64.le_of_eq (late attestation listed votes).symm
  · have slot : (chain.enter (chain.votesOf attestations validator) record).inclusionSlot =
      first.inclusionSlot := congrArg Prod.fst shown
    refine ⟨votes, ?_, fun _ => ⟨first, included, shown⟩, fun late => ?_⟩
    · rw [slot]
      refine ⟨Set.mem_insert_of_mem _ ⟨first, included.mem, included.1, rfl⟩, ?_⟩
      rintro _ (rfl | ⟨attestation, listed, votes, rfl⟩)
      · exact le_farFutureSlot _
      · exact included.le listed votes
    · exact absurd (slot.symm.trans late) early

/-! ## All attestations -/

theorem seats_of_enterAttestation {records found : Array Record} {attestation : PendingAttestation}
    {cache after : Cache} (coherent : cache.CoherentWith chain)
    (ran : chain.enterAttestation records attestation cache = .ok found after) :
    after.CoherentWith chain ∧ ∃ members, chain.Seats attestation members := by
  obtain ⟨marks, -, rest⟩ := Step.lift_bind_eq_ok_iff.mp ran
  obtain ⟨voters, _, looked, rest⟩ := Step.bind_eq_ok_iff.mp rest
  obtain ⟨-, still⟩ := attestingIndices_eq_ok coherent looked
  obtain ⟨members, seats, -⟩ := (attestingIndices_eq_ok_iff coherent).mp ⟨_, looked⟩
  obtain ⟨-, rfl⟩ := Step.lift_eq_ok_iff.mp rest
  exact ⟨still, members, seats⟩

variable {tally counted : Tally} {cache after : Cache}

/-- Attestations can only be counted if their committees are found. -/
theorem seats_of_countAttestations {votes : PendingVotes} (coherent : cache.CoherentWith chain)
    (ran : chain.countAttestations votes tally cache = .ok counted after) :
    ∀ attestation ∈ votes.previous ++ votes.current,
      ∃ members, chain.Seats attestation members := by
  obtain ⟨_, _, looped, -⟩ := Step.bind_eq_ok_iff.mp ran
  refine forall_of_foldlM ?_ coherent looped
  intro records attestation cache found after coherent turned
  exact seats_of_enterAttestation coherent turned

/-- The records that an epoch opens its books with are for all validators, and without votes. -/
theorem openPending_withoutVotes (opened : chain.openPending cache = .ok tally after) :
    tally.records.size = chain.validators.size ∧
      ∀ record ∈ tally.records, record.withoutVotes = record := by
  obtain ⟨⟨following, -, records⟩, -⟩ := openPending_eq_ok opened
  rw [records]
  refine ⟨Array.size_ofFn, ?_⟩
  intro record listed
  obtain ⟨validator, rfl⟩ := Array.mem_ofFn.mp listed
  rfl

/-- **Votes are united, and the earliest inclusion wins.** Let a record without votes be given for
every validator, and let all attestations of a state be counted from a coherent cache. Then the
record of a validator shows a vote of a kind if and only if some attestation that selects it is one;
its slot of inclusion is the least one among the attestations for the previous epoch that select it
and the far future, and comes with the delay and the proposer of the first attestation that was
included then. Nothing else in a record changes. -/
theorem countAttestations_exact {votes : PendingVotes} (coherent : cache.CoherentWith chain)
    (sizes : tally.records.size = chain.validators.size)
    (unset : ∀ record ∈ tally.records, record.withoutVotes = record)
    (ran : chain.countAttestations votes tally cache = .ok counted after) :
    ∃ record : chain.Member → Record, counted.records = Array.ofFn record ∧
      ∀ validator : chain.Member,
        chain.Notes (votes.previous ++ votes.current) validator (record validator) ∧
          tally.records[validator.val]? = some (record validator).withoutVotes := by
  let entry (validator : chain.Member) : Record := tally.records.getD validator {}
  have entries : tally.records = Array.ofFn entry := eq_ofFn_getD sizes _
  obtain ⟨records, -⟩ := countAttestations_eq_ok coherent entries ran
  have seats := seats_of_countAttestations coherent ran
  refine ⟨_, records, fun validator => ?_⟩
  have found : tally.records[validator.val]? = some (entry validator) := by
    rw [entries]
    simp
  have blank : (entry validator).withoutVotes = entry validator :=
    unset _ (Array.mem_of_getElem? found)
  refine ⟨notes_enter blank seats, ?_⟩
  rw [withoutVotes_enter, blank, found]

/-- The vote of a single validator was included after three slots, and after one. -/
theorem countAttestations_exact_soleVoter :
    ∃ opened middle counted after,
      soleVoter.chain.openPending soleVoter.cache = .ok opened middle ∧
      soleVoter.chain.countAttestations soleVoter.votes opened middle = .ok counted after ∧
      ∃ record : soleVoter.chain.Member → Record, counted.records = Array.ofFn record ∧
        ∀ validator : soleVoter.chain.Member,
          soleVoter.chain.Notes (soleVoter.votes.previous ++ soleVoter.votes.current) validator
              (record validator) ∧
            opened.records[validator.val]? = some (record validator).withoutVotes := by
  let counting : Lookup Tally := soleVoter.chain.openPending >>=
    soleVoter.chain.countAttestations soleVoter.votes
  have succeeds : Step.Result.succeeds (counting soleVoter.cache) = true := by decide +kernel
  obtain ⟨counted, after, ran⟩ := Step.Result.eq_ok_of_succeeds succeeds
  obtain ⟨opened, middle, opening, ran⟩ := Step.bind_eq_ok_iff.mp ran
  have still : middle.CoherentWith soleVoter.chain :=
    openPending_hasAnswer.coherent_of_ok soleVoter_coherent opening
  obtain ⟨sizes, unset⟩ := openPending_withoutVotes opening
  exact ⟨opened, middle, counted, after, opening, ran,
    countAttestations_exact still sizes unset ran⟩

end Chain

end BeaconEpoch
