import BeaconEpoch.Proofs.Accounting.Flags
import BeaconEpoch.Proofs.Accounting.Votes
import BeaconEpoch.Upgrade

/-!
# Votes over an upgrade

An upgrade turns attestations into flags. What Phase 0 counts before it and what Altair counts after
it are the same votes, up to those that came too late for their flag.

## Main definitions

* `Vote`: the three things that an attestation votes for, each with its flag, its kind of vote and
  its deadline.
* `Chain.earned`: the flags that an attestation earns its voters.
* `Chain.countPending`, `Chain.countFlagged`: what an epoch counts, by way of keeping votes.
* `Chain.enteredRecord`: a record with all attestations of two epochs entered.

## Main statements

* `Chain.countPending_eq_ok`, `FlagEpoch.countFlagged_eq_ok`: the records that are counted.
* `Chain.creditAttestations_eq_ok`, `Chain.hasFlag_credited`: a validator has a flag if it takes
  part in an attestation that was in time for it.
* `PendingState.AtEpochStart.countFlagged_found`: flags are counted if votes have been.
* `PendingState.toFlags_keepsVotes`: flags and records of the same attestations, and their totals.

## Design notes

* **Two classifiers, one list.** Both a record and an entry of flags are folds over the attestations
  that a validator takes part in, so they are compared attestation by attestation.
-/

namespace BeaconEpoch

/-! ## The three votes -/

/-- What an attestation votes for. -/
inductive Vote
  | source
  | target
  | head
deriving DecidableEq, Repr

namespace Vote

/-- The position of the flag for a vote. -/
def flag : Vote → Nat
  | source => timelySourceFlag
  | target => timelyTargetFlag
  | head => timelyHeadFlag

/-- The kind of vote for the previous epoch. -/
def category : Vote → Category
  | source => .previousEpoch
  | target => .previousEpochTarget
  | head => .previousEpochHead

/-- Whether a delay is short enough for a flag. -/
def inTime (preset : Preset) (inclusionDelay : UInt64) : Vote → Bool
  | source => inclusionDelay.toNat ≤ Nat.sqrt preset.slotsPerEpoch.toNat
  | target => inclusionDelay ≤ preset.slotsPerEpoch
  | head => inclusionDelay == preset.minAttestationInclusionDelay

end Vote

/-! ## Flags that are earned -/

theorem hasFlag_or (flags earned : ParticipationFlags) (index : Nat) :
    hasFlag (flags ||| earned) index = (hasFlag flags index || hasFlag earned index) := by
  rw [hasFlag, UInt8.toNat_or, Nat.testBit_or]
  rfl

namespace Chain

variable {preset : Preset} (chain : Chain preset)

/-- The flags that an attestation earns its voters. -/
def earned (attestation : PendingAttestation) : ParticipationFlags :=
  let earn (vote : Vote) (right : Bool) : ParticipationFlags :=
    if right && vote.inTime preset attestation.inclusionDelay then BeaconEpoch.flag vote.flag else 0
  earn .source true ||| earn .target (chain.matchesTarget attestation) |||
    earn .head (chain.matchesTarget attestation && chain.matchesHead attestation)

variable {chain} {attestation : PendingAttestation}

theorem epochOf_of_attestationEpoch {epoch : Epoch} {near : AttestationEpoch}
    (found : chain.attestationEpoch epoch = .ok near) : chain.epochOf near.toRelative = epoch := by
  have previous := chain.toNat_previousEpoch
  simp only [attestationEpoch] at found
  split at found
  · cases found
  · rename_i reached
    have le : epoch ≤ chain.currentEpoch := UInt64.not_lt.mp reached
    have distance := UInt64.toNat_sub_of_le _ _ le
    rw [UInt64.le_iff_toNat_le] at le
    rw [← UInt64.toNat_inj]
    split at found
    · rename_i zero
      cases found
      rw [zero, UInt64.toNat_zero] at distance
      simp only [AttestationEpoch.toRelative, epochOf]
      omega
    · split at found
      · rename_i one
        cases found
        rw [one, UInt64.toNat_one] at distance
        simp only [AttestationEpoch.toRelative, epochOf]
        omega
      · cases found

/-- The flags that an attestation earns are the specified ones, if its block roots are found. -/
theorem participationFlags_gives :
    Gives (chain.earned attestation)
      (chain.participationFlags attestation.data attestation.inclusionDelay) := by
  unfold participationFlags
  cases found : chain.attestationEpoch attestation.data.target.epoch with
  | error e => trivial
  | ok epoch =>
    refine (isBlockRoot_gives (epochOf_of_attestationEpoch found).symm).bind ?_
    refine (checkIf_gives fun _ => isBlockRootAtSlot_gives).bind (Sound.pure ?_)
    rw [isqrt_eq_sqrt]
    rfl

/-- An attestation for the previous epoch earns a flag if it is a vote of that kind and in time. -/
theorem hasFlag_earned (targeted : attestation.data.target.epoch = chain.previousEpoch)
    (vote : Vote) :
    hasFlag (chain.earned attestation) vote.flag =
      (chain.qualifies attestation vote.category &&
        vote.inTime preset attestation.inclusionDelay) := by
  have bits (source target head : Bool) :
      hasFlag ((if source then flag timelySourceFlag else 0) |||
        (if target then flag timelyTargetFlag else 0) |||
          (if head then flag timelyHeadFlag else 0)) vote.flag =
        match vote with
        | .source => source
        | .target => target
        | .head => head := by
    cases vote <;> cases source <;> cases target <;> cases head <;> decide
  refine (bits _ _ _).trans ?_
  cases vote <;> simp [Vote.category, qualifies, targeted]

/-! ## Attestations that are credited -/

/-- One turn of the translation: the voters of an attestation are credited with what it earns. -/
theorem creditAttestation_eq_ok {entry : chain.Member → ParticipationFlags}
    {cache after : Cache} {found : Array ParticipationFlags} (coherent : cache.CoherentWith chain)
    (ran : chain.creditAttestation (Array.ofFn entry) attestation cache = .ok found after) :
    after.CoherentWith chain ∧ found = Array.ofFn fun validator =>
      if validator.val ∈ chain.votersOf attestation then
        entry validator ||| chain.earned attestation
      else entry validator := by
  unfold creditAttestation at ran
  obtain ⟨voters, _, looked, rest⟩ := Step.bind_eq_ok_iff.mp ran
  obtain ⟨rfl, still⟩ := attestingIndices_eq_ok coherent looked
  obtain ⟨earned, found, rest⟩ := Step.lift_bind_eq_ok_iff.mp rest
  obtain rfl := participationFlags_gives.met_of_eq_ok found
  obtain ⟨added, rfl⟩ := Step.lift_eq_ok_iff.mp rest
  let credit (flags : ParticipationFlags) : ParticipationFlags :=
    flags ||| chain.earned attestation
  have once (flags : ParticipationFlags) : credit (credit flags) = credit flags := by
    simp only [credit, UInt8.or_assoc, UInt8.or_self]
  refine ⟨still, foldlM_modify_eq_ok once (fun turned => ?_) added⟩
  split at turned
  · cases turned
    rfl
  · cases turned

/-- The flags that some attestations earn one of their voters. -/
def credited (chain : Chain preset) (attestations : List PendingAttestation) :
    ParticipationFlags :=
  attestations.foldl (fun flags attestation => flags ||| chain.earned attestation) 0

/-- All turns, by induction on the attestations. -/
theorem creditAttestations_eq_ok {attestations : List PendingAttestation} {cache after : Cache}
    {found : Array ParticipationFlags} (coherent : cache.CoherentWith chain)
    (ran : chain.creditAttestations attestations cache = .ok found after) :
    found = Array.ofFn fun validator => chain.credited (chain.votesOf attestations validator) := by
  have blank : Array.replicate chain.validators.size (0 : ParticipationFlags) =
      Array.ofFn fun _ : chain.Member => 0 :=
    Array.ext (by simp) fun index inside inside' => by simp
  rw [creditAttestations, blank] at ran
  exact foldlM_eq_ok creditAttestation_eq_ok coherent ran

/-- Flags that are earned are united. -/
theorem hasFlag_credited {attestations : List PendingAttestation} (index : Nat) :
    hasFlag (chain.credited attestations) index =
      attestations.any fun attestation => hasFlag (chain.earned attestation) index := by
  unfold credited
  induction attestations using List.reverseRecOn with
  | nil => exact Nat.zero_testBit _
  | append_singleton attestations attestation ih =>
    rw [List.foldl_concat, hasFlag_or, ih, List.any_append]
    simp

end Chain

/-! ## Counting -/

namespace Chain

variable {preset : Preset} (chain : Chain preset)

/-- What an epoch of Phase 0 counts. -/
def countPending (votes : PendingVotes) : Lookup Tally := do
  let tally ← chain.openPending
  chain.countAttestations votes tally

/-- What an epoch of a later phase counts. -/
def countFlagged (phase : FlagPhase) (votes : FlagVotes) : Lookup Tally := do
  let tally ← chain.openFlags votes.inactivityScores
  countFlags preset phase.toPhase votes tally

/-- The record of a validator with all attestations entered. It shows whether the validator may
withdraw by some epoch. -/
def enteredRecord (votes : PendingVotes) (withdrawal : Epoch) (validator : chain.Member) : Record :=
  chain.enter (chain.votesOf (votes.previous ++ votes.current) validator)
    (chain.blankRecord withdrawal 0 validator)

variable {chain}

/-- What Phase 0 counts are records with all attestations entered. -/
theorem countPending_eq_ok {votes : PendingVotes} {tally : Tally} {cache after : Cache}
    (coherent : cache.CoherentWith chain)
    (counted : chain.countPending votes cache = .ok tally after) :
    ∃ following, tally.records = Array.ofFn (chain.enteredRecord votes following) ∧
      chain.activeTotals.countVotes preset .phase0 tally.records = .ok tally.totals ∧
      chain.activeTotals.checked = .ok chain.activeTotals := by
  obtain ⟨opened, middle, opening, counting⟩ := Step.bind_eq_ok_iff.mp counted
  have still := openPending_hasAnswer.coherent_of_ok coherent opening
  obtain ⟨⟨following, -, blank⟩, totals, checked⟩ := openPending_eq_ok opening
  obtain ⟨records, passed⟩ := countAttestations_eq_ok still blank counting
  rw [totals] at passed
  exact ⟨following, records, passed, checked⟩

section Found

variable {record record' : chain.Member → Record} {phase : Phase}

/-- If fewer votes count, then totals still fit. -/
theorem Shows.countVotes_found (shown : chain.Shows record) (shown' : chain.Shows record')
    {counted : Totals}
    (passed : chain.activeTotals.countVotes preset .phase0 (Array.ofFn record) = .ok counted)
    (fewer : ∀ category validator,
      (!(record' validator).slashed && (record' validator).attested phase category) = true →
        (!(record validator).slashed && (record validator).attested .phase0 category) = true) :
    ∃ counted', chain.activeTotals.countVotes preset phase (Array.ofFn record') = .ok counted' := by
  have fits : (chain.activeTotals.addVotes .phase0 (Array.ofFn record)).fits = true := by
    by_contra large
    rw [Totals.countVotes, Totals.checked, if_neg large] at passed
    cases passed
  have attested (category : Category) :
      (chain.activeTotals.addVotes phase (Array.ofFn record')).attested category ≤
        (chain.activeTotals.addVotes .phase0 (Array.ofFn record)).attested category := by
    simp only [Totals.attested_addVotes, shown _, shown' _]
    refine Nat.add_le_add_left (Finset.sum_le_sum_of_subset fun validator listed => ?_) _
    rw [Finset.mem_filter_univ] at listed ⊢
    exact fewer category validator listed
  have fits' : (chain.activeTotals.addVotes phase (Array.ofFn record')).fits = true := by
    simp only [Totals.fits, Bool.and_eq_true, decide_eq_true_eq, List.all_eq_true,
      (Totals.active_addVotes ..).1, (Totals.active_addVotes ..).2] at fits ⊢
    exact ⟨fits.1, fun category listed =>
      Nat.lt_of_le_of_lt (attested category) (fits.2 category listed)⟩
  rw [Totals.countVotes, Totals.checked, if_pos fits']
  exact ⟨_, rfl⟩

end Found

theorem openFlags_found (scores : Array InactivityScore)
    (sizes : chain.validators.size = scores.size) {totals : Totals}
    (checked : chain.activeTotals.checked = .ok totals) (cache : Cache) :
    ∃ tally after, chain.openFlags scores cache = .ok tally after := by
  unfold openFlags
  rw [if_pos sizes, checked]
  exact ⟨_, _, rfl⟩

end Chain

namespace FlagEpoch

variable {preset : Preset} {epoch : FlagEpoch preset} {validator : epoch.chain.Member}

/-- What later phases count are records with all flags read. -/
theorem countFlagged_eq_ok {cache after : Cache} {counted : Tally}
    (ran : epoch.chain.countFlagged epoch.phase epoch.votes cache = .ok counted after) :
    (counted.records = Array.ofFn fun validator =>
        epoch.record (epoch.scoreOf validator) validator) ∧
      epoch.chain.activeTotals.countVotes preset epoch.phase.toPhase counted.records =
        .ok counted.totals := by
  obtain ⟨opened, middle, opening, counting⟩ := Step.bind_eq_ok_iff.mp ran
  obtain ⟨-, records, totals⟩ := openFlags_eq_ok opening
  exact countVotes_of_countFlags records totals (Step.lift_eq_ok_iff.mp counting).1

/-- One entry per validator is counted if no total is too large. -/
theorem countFlagged_of_countVotes
    (scores : epoch.votes.inactivityScores.size = epoch.chain.validators.size)
    (previous : epoch.votes.previous.size = epoch.chain.validators.size)
    (current : epoch.votes.current.size = epoch.chain.validators.size)
    (checked : epoch.chain.activeTotals.checked = .ok epoch.chain.activeTotals) {totals : Totals}
    (passed : epoch.chain.activeTotals.countVotes preset epoch.phase.toPhase
      (Array.ofFn fun validator => epoch.record (epoch.scoreOf validator) validator) = .ok totals)
    (cache : Cache) :
    ∃ after, epoch.chain.countFlagged epoch.phase epoch.votes cache =
      .ok ⟨Array.ofFn fun validator => epoch.record (epoch.scoreOf validator) validator, totals⟩
        after := by
  obtain ⟨opened, middle, opening⟩ := Chain.openFlags_found _ scores.symm checked cache
  obtain ⟨-, records, sum⟩ := openFlags_eq_ok opening
  have ran := countFlags_of_sizes records sum previous current
  dsimp only at ran
  rw [passed] at ran
  refine ⟨middle, ?_⟩
  rw [Chain.countFlagged, Step.bind_of_ok opening, ran]
  rfl

theorem flagged_of_attested {phase : FlagPhase} {record : Record}
    (attested : record.attested phase.toPhase .previousEpoch = true) :
    record.previousSourceAttester = true := by
  cases phase <;> exact attested

/-- No flag was set for the current epoch yet, so whatever counts does by a flag for the previous
one. -/
theorem exists_vote_of_attested {score : InactivityScore} {category : Category}
    (noneYet : epoch.votes.current.getD validator 0 = 0)
    (attested : (epoch.record score validator).attested epoch.phase.toPhase category = true) :
    ∃ vote : Vote, category = vote.category ∧
      hasFlag (epoch.flagsOf validator) vote.flag = true := by
  have unset (index : Nat) : hasFlag 0 index = false := Nat.zero_testBit index
  simp only [record, Record.readFlags, noneYet, unset, Bool.and_false] at attested
  cases category with
  | currentEpoch => exact absurd attested Bool.false_ne_true
  | currentEpochTarget => exact absurd attested Bool.false_ne_true
  | previousEpoch =>
    have source := flagged_of_attested attested
    exact ⟨.source, rfl, (Bool.and_eq_true_iff.mp source).2⟩
  | previousEpochTarget => exact ⟨.target, rfl, (Bool.and_eq_true_iff.mp attested).2⟩
  | previousEpochHead => exact ⟨.head, rfl, (Bool.and_eq_true_iff.mp attested).2⟩

theorem Counted.attested {totals : Totals} (counted : epoch.Counted totals) (vote : Vote) :
    totals.attested vote.category = epoch.chain.stake (epoch.timely vote.flag) := by
  cases vote with
  | source => exact counted.source
  | target => exact counted.target
  | head => exact counted.head

end FlagEpoch

/-! ## Upgrades -/

namespace PendingState

variable {preset : Preset} (state : PendingState preset)

/-- All attestations for the previous epoch are in time for the flag of a vote. -/
def InTime (vote : Vote) : Prop :=
  ∀ attestation ∈ state.votes.previous, vote.inTime preset attestation.inclusionDelay = true

/-- Attestations of the previous epoch, for the previous epoch, and none for the current one. -/
structure AtEpochStart : Prop where
  target : ∀ attestation ∈ state.votes.previous,
    attestation.data.target.epoch = state.chain.previousEpoch
  slot : ∀ attestation ∈ state.votes.previous,
    preset.epochAt attestation.data.slot = state.chain.previousEpoch
  current : state.votes.current = []

/-- What Phase 0 counted in a state is what is left of it after an upgrade: records of validators
before it, and flags of validators after it. -/
structure KeepsVotes (tally : Tally) (post : FlagState preset)
    (record : state.chain.Member → Record) (flags : state.chain.Member → ParticipationFlags) :
    Prop where
  records : tally.records = Array.ofFn record
  previous : post.votes.previous = Array.ofFn flags
  /-- Whoever has a flag has voted. -/
  voted : ∀ (vote : Vote) validator, hasFlag (flags validator) vote.flag = true →
    (record validator).attested .phase0 vote.category = true
  /-- Whoever has voted in time has a flag. -/
  flagged : ∀ vote, state.InTime vote → ∀ validator,
    hasFlag (flags validator) vote.flag = (record validator).attested .phase0 vote.category
  /-- The next phases count the same stake behind votes in time. -/
  totals : ∀ phase, ∃ counted after,
    post.chain.countFlagged phase post.votes post.cache = .ok counted after ∧
      ∀ vote, state.InTime vote →
        counted.totals.attested vote.category = tally.totals.attested vote.category

/-- What Phase 0 notes about a validator from its attestations for the previous epoch. -/
def recordOf (following : Epoch) (validator : state.chain.Member) : Record :=
  state.chain.enter (state.chain.votesOf state.votes.previous validator)
    (state.chain.blankRecord following 0 validator)

/-- The flags that a validator has earned. -/
def flagsOf (validator : state.chain.Member) : ParticipationFlags :=
  state.chain.credited (state.chain.votesOf state.votes.previous validator)

/-- The votes of a state after an upgrade. -/
def upgradedVotes : FlagVotes where
  previous := Array.ofFn state.flagsOf
  current := Array.replicate state.chain.validators.size 0
  inactivityScores := Array.replicate state.chain.validators.size 0

/-- The epoch of a state after an upgrade to a phase. What is counted does not depend on the
configuration. -/
abbrev upgradedEpoch (phase : FlagPhase) : FlagEpoch preset :=
  ⟨default, phase, state.chain, state.upgradedVotes⟩

variable {state} {following : Epoch} {validator : state.chain.Member} {vote : Vote}

theorem attested_recordOf :
    (state.recordOf following validator).attested .phase0 vote.category =
      (state.chain.votesOf state.votes.previous validator).any
        (state.chain.qualifies · vote.category) := by
  rw [recordOf, Chain.attested_enter, Chain.attested_blankRecord, Bool.false_or]

theorem standing_recordOf :
    (state.recordOf following validator).effectiveBalance =
        state.chain.validators[validator].effectiveBalance ∧
      (state.recordOf following validator).slashed = state.chain.validators[validator].slashed := by
  have kept : (state.recordOf following validator).standing = _ := Chain.standing_enter
  simp only [Record.standing, Prod.mk.injEq] at kept
  exact ⟨kept.1, kept.2.1⟩

namespace AtEpochStart

variable (start : state.AtEpochStart)

include start

theorem hasFlag_flagsOf :
    hasFlag (state.flagsOf validator) vote.flag =
      (state.chain.votesOf state.votes.previous validator).any fun attestation =>
        state.chain.qualifies attestation vote.category &&
          vote.inTime preset attestation.inclusionDelay := by
  rw [flagsOf, Chain.hasFlag_credited, Bool.eq_iff_iff, List.any_eq_true, List.any_eq_true]
  refine exists_congr fun attestation => and_congr_right fun mem => ?_
  have targeted := start.target attestation (List.mem_of_mem_filter mem)
  rw [Chain.hasFlag_earned targeted]

/-- Whoever has a flag takes part in an attestation that is a vote of that kind. -/
theorem exists_of_hasFlag (set : hasFlag (state.flagsOf validator) vote.flag = true) :
    ∃ attestation ∈ state.chain.votesOf state.votes.previous validator,
      state.chain.qualifies attestation vote.category = true := by
  rw [start.hasFlag_flagsOf, List.any_eq_true] at set
  obtain ⟨attestation, mem, counts⟩ := set
  exact ⟨attestation, mem, (Bool.and_eq_true_iff.mp counts).1⟩

theorem attested_of_hasFlag (set : hasFlag (state.flagsOf validator) vote.flag = true) :
    (state.recordOf following validator).attested .phase0 vote.category = true := by
  rw [attested_recordOf, List.any_eq_true]
  exact start.exists_of_hasFlag set

/-- Only those have flags for the previous epoch who had duties in it. -/
theorem isActive_of_hasFlag (set : hasFlag (state.flagsOf validator) vote.flag = true) :
    state.chain.validators[validator].isActive state.chain.previousEpoch = true := by
  obtain ⟨attestation, mem, -⟩ := start.exists_of_hasFlag set
  obtain ⟨listed, voted⟩ := List.mem_filter.mp mem
  have duties := Chain.hasDuties_of_mem_votersOf (of_decide_eq_true voted)
  rw [start.slot attestation listed] at duties
  obtain ⟨found, registered, active⟩ := duties
  obtain ⟨_, rfl⟩ := Array.getElem?_eq_some_iff.mp registered
  exact active

theorem hasFlag_eq_attested (inTime : state.InTime vote) :
    hasFlag (state.flagsOf validator) vote.flag =
      (state.recordOf following validator).attested .phase0 vote.category := by
  rw [start.hasFlag_flagsOf, attested_recordOf, Bool.eq_iff_iff, List.any_eq_true, List.any_eq_true]
  refine exists_congr fun attestation => and_congr_right fun mem => ?_
  rw [inTime attestation (List.mem_of_mem_filter mem), Bool.and_true]

end AtEpochStart

variable {post : FlagState preset} {tally : Tally} {after : Cache}

/-- An upgrade that succeeds keeps the chain and has the flags of the specification. -/
theorem toFlags_eq_ok (coherent : state.cache.CoherentWith state.chain)
    (upgraded : state.toFlags = .ok post) :
    ∃ cache, post = { chain := state.chain, votes := state.upgradedVotes, cache } := by
  simp only [toFlags] at upgraded
  split at upgraded
  · rename_i credited
    cases upgraded
    rw [Chain.creditAttestations_eq_ok coherent credited]
    exact ⟨_, rfl⟩
  · cases upgraded

theorem countPending_eq_ok (coherent : state.cache.CoherentWith state.chain)
    (start : state.AtEpochStart)
    (counted : state.chain.countPending state.votes state.cache = .ok tally after) :
    ∃ following, tally.records = Array.ofFn (state.recordOf following) ∧
      state.chain.activeTotals.countVotes preset .phase0 (Array.ofFn (state.recordOf following)) =
        .ok tally.totals ∧
      state.chain.activeTotals.checked = .ok state.chain.activeTotals := by
  obtain ⟨following, records, passed, checked⟩ := Chain.countPending_eq_ok coherent counted
  have same : state.chain.enteredRecord state.votes following = state.recordOf following := by
    unfold Chain.enteredRecord recordOf
    rw [start.current, List.append_nil]
  rw [same] at records
  rw [records] at passed
  exact ⟨following, records, passed, checked⟩

/-! ### Totals after an upgrade -/

section Counted

variable {phase : FlagPhase}

theorem flagsOf_upgradedEpoch (validator : state.chain.Member) :
    (state.upgradedEpoch phase).flagsOf validator = state.flagsOf validator := by
  simp [FlagEpoch.flagsOf, upgradedEpoch, upgradedVotes]

theorem AtEpochStart.mem_timely (start : state.AtEpochStart) (validator : state.chain.Member) :
    validator ∈ (state.upgradedEpoch phase).timely vote.flag ↔
      state.chain.validators[validator].slashed = false ∧
        hasFlag (state.flagsOf validator) vote.flag = true := by
  rw [FlagEpoch.mem_timely, flagsOf_upgradedEpoch]
  refine and_congr_right fun _ => ⟨And.right, fun set => ⟨start.isActive_of_hasFlag set, set⟩⟩

/-- The next phases count whenever Phase 0 has counted, because there are no more flags than
votes. -/
theorem AtEpochStart.countFlagged_found (start : state.AtEpochStart) (cache : Cache)
    (checked : state.chain.activeTotals.checked = .ok state.chain.activeTotals) {totals : Totals}
    (passed : state.chain.activeTotals.countVotes preset .phase0
      (Array.ofFn (state.recordOf following)) = .ok totals) :
    ∃ counted after,
      state.chain.countFlagged phase state.upgradedVotes cache = .ok counted after ∧
        (state.upgradedEpoch phase).Counted counted.totals := by
  let record (validator : state.chain.Member) : Record :=
    (state.upgradedEpoch phase).record ((state.upgradedEpoch phase).scoreOf validator) validator
  have shown : state.chain.Shows (state.recordOf following) := fun _ => standing_recordOf.1
  have shown' : state.chain.Shows record := fun _ => rfl
  have fewer (category : Category) (validator : state.chain.Member)
      (counts : (!(record validator).slashed &&
        (record validator).attested phase.toPhase category) = true) :
      (!(state.recordOf following validator).slashed &&
        (state.recordOf following validator).attested .phase0 category) = true := by
    obtain ⟨unslashed, attested⟩ := Bool.and_eq_true_iff.mp counts
    have noneYet : state.upgradedVotes.current.getD validator 0 = 0 := by simp [upgradedVotes]
    obtain ⟨vote, rfl, set⟩ := FlagEpoch.exists_vote_of_attested noneYet attested
    rw [flagsOf_upgradedEpoch] at set
    rw [start.attested_of_hasFlag set, standing_recordOf.2]
    exact Bool.and_eq_true_iff.mpr ⟨unslashed, rfl⟩
  obtain ⟨counted, passed'⟩ := shown.countVotes_found shown' passed fewer
  obtain ⟨after, ran⟩ := (state.upgradedEpoch phase).countFlagged_of_countVotes
    Array.size_replicate Array.size_ofFn Array.size_replicate checked passed' cache
  exact ⟨_, after, ran, FlagEpoch.counted_of_countVotes passed'⟩

end Counted

/-- **An upgrade keeps votes.** Let all attestations of a state be of the previous epoch, and let
Phase 0 count them and an upgrade make flags of them. Then only those have a flag whose vote was
counted; and if all attestations were in time for that flag, all of those have it, and the next
phases count the same stake behind it. In the first epoch, which is its own predecessor, nothing is
different. -/
theorem toFlags_keepsVotes (coherent : state.cache.CoherentWith state.chain)
    (start : state.AtEpochStart)
    (counted : state.chain.countPending state.votes state.cache = .ok tally after)
    (upgraded : state.toFlags = .ok post) :
    ∃ record flags, state.KeepsVotes tally post record flags := by
  obtain ⟨cache, rfl⟩ := toFlags_eq_ok coherent upgraded
  obtain ⟨following, records, passed, checked⟩ := countPending_eq_ok coherent start counted
  refine ⟨state.recordOf following, state.flagsOf, records, rfl,
    fun vote validator => start.attested_of_hasFlag,
    fun vote inTime validator => start.hasFlag_eq_attested inTime, fun phase => ?_⟩
  obtain ⟨counted, after, ran, totals⟩ := start.countFlagged_found cache checked passed
  refine ⟨counted, after, ran, fun vote inTime => ?_⟩
  have shown : state.chain.Shows (state.recordOf following) := fun _ => standing_recordOf.1
  rw [totals.attested, shown.attested_countVotes passed]
  refine congrArg state.chain.stake (Finset.ext fun validator => ?_)
  rw [start.mem_timely, Finset.mem_filter_univ, Bool.and_eq_true, Bool.not_eq_true',
    standing_recordOf.2, start.hasFlag_eq_attested inTime]

theorem toFlags_keepsVotes_soleVoter :
    ∃ tally after post,
      soleVoter.chain.countPending soleVoter.votes soleVoter.cache = .ok tally after ∧
        toFlags soleVoter = .ok post ∧
          ∃ record flags, KeepsVotes soleVoter tally post record flags := by
  have succeeds : Step.Result.succeeds
      (soleVoter.chain.countPending soleVoter.votes soleVoter.cache) = true := by
    decide +kernel
  have upgraded : ∃ post, toFlags soleVoter = .ok post := ⟨_, by with_unfolding_all rfl⟩
  obtain ⟨tally, after, counted⟩ := Step.Result.eq_ok_of_succeeds succeeds
  obtain ⟨post, upgraded⟩ := upgraded
  have start : AtEpochStart soleVoter := by
    refine ⟨fun attestation listed => ?_, fun attestation listed => ?_, rfl⟩ <;>
      obtain rfl | rfl := List.mem_pair.mp listed <;> decide
  exact ⟨tally, after, post, counted, upgraded,
    toFlags_keepsVotes soleVoter_coherent start counted upgraded⟩

end PendingState

end BeaconEpoch
