import BeaconEpoch.Proofs.Accounting.Selection
import BeaconEpoch.Proofs.Accounting.Upgrade
import BeaconEpoch.Proofs.Progress.Walk

/-!
# Exact upgrades

An upgrade from Phase 0 succeeds if and only if everything is found that it looks up for the
attestations of the previous epoch, and what it makes of them is fixed by the set that they form.

## Main definitions

* `Chain.Translates`: everything is found that is looked up for an attestation.
* `Chain.Fills`: a lookup makes the shuffles of some epochs known, and nothing else.
* `PendingState.Translation`: what a state is specified to be after its upgrade.
* `PendingState.UpgradesExactly`: when an upgrade succeeds, what it results in, what it depends on,
  and what is left if it fails.

## Main statements

* `Chain.participationFlags_found_iff`: when the flags of an attestation are found.
* `Chain.creditAttestations_fills`: what a cache knows after an upgrade.
* `PendingState.toFlags_eq_ok_iff`: an upgrade and its result, in one equivalence.
* `PendingState.toFlags_exact`: exact upgrades.

## Design notes

* **The cache is part of the result.** Attestations fill it as they are taken in, each with the
  shuffle of its epoch. Of which epochs shuffles are known in the end is a matter of the set of
  attestations, like the flags.
-/

namespace BeaconEpoch

open Step

/-- Flags are given by which of them are set. -/
theorem eq_of_hasFlag {flags other : ParticipationFlags}
    (same : ∀ index, hasFlag flags index = hasFlag other index) : flags = other :=
  UInt8.toNat_inj.mp (Nat.eq_of_testBit_eq same)

/-- Two results in a row are found if the first is and then the second. -/
theorem found_bind_iff {α β : Type} {result : Except Error α} {next : α → Except Error β} :
    (∃ b, result >>= next = .ok b) ↔ ∃ a, result = .ok a ∧ ∃ b, next a = .ok b := by
  cases result with
  | ok a =>
    constructor
    · intro found
      exact ⟨a, rfl, found⟩
    · rintro ⟨_, ⟨⟩, found⟩
      exact found
  | error e =>
    constructor
    · rintro ⟨_, ⟨⟩⟩
    · rintro ⟨_, ⟨⟩, _⟩

theorem PerEpoch.eq_of_get {α : Type} {values other : PerEpoch α}
    (same : ∀ epoch, values.get epoch = other.get epoch) : values = other := by
  cases values
  cases other
  rw [PerEpoch.mk.injEq]
  exact ⟨same .previous, same .current, same .next⟩

namespace Chain

variable {preset : Preset} (chain : Chain preset)

/-! ## What is looked up -/

/-- Everything is found that an upgrade looks up for an attestation: its committee, with a bit for
each member, the epoch that it targets, the block at the start of that epoch, and, if that is the
block that it targets, the block at its slot. -/
structure Translates (attestation : PendingAttestation) : Prop where
  seats : ∃ members, chain.Seats attestation members
  roots : ∃ epoch root, chain.attestationEpoch attestation.data.target.epoch = .ok epoch ∧
    chain.blockRoot epoch = .ok root ∧
    (attestation.data.target.root = root →
      ∃ head, chain.blockRootAtSlot attestation.data.slot = .ok head)

/-- A question makes the shuffles of some epochs known, and nothing else. -/
structure Fills (epochs : Set RelativeEpoch) (cache after : Cache) : Prop where
  filled : ∀ epoch ∈ epochs, ∃ indices,
    chain.shuffledIndices (chain.epochOf epoch) = .ok indices ∧
      after.shuffled.get epoch = some indices
  kept : ∀ epoch ∉ epochs, after.shuffled.get epoch = cache.shuffled.get epoch
  totalActive : after.totalActive = cache.totalActive

/-- The epochs of the committees of some attestations. -/
def epochsOf (attestations : List PendingAttestation) : Set RelativeEpoch :=
  {epoch | ∃ attestation ∈ attestations,
    chain.relativeEpoch (preset.epochAt attestation.data.slot) = .ok epoch}

variable {chain} {attestation : PendingAttestation} {attestations : List PendingAttestation}
  {cache middle after other : Cache}

/-- A check under a condition is made if the condition holds. -/
theorem checkIf_found_iff {condition : Bool} {check : Except Error Bool} :
    (∃ holds, checkIf condition check = .ok holds) ↔
      (condition = true → ∃ holds, check = .ok holds) := by
  cases condition with
  | true => exact ⟨fun found _ => found, fun found => found rfl⟩
  | false => exact ⟨nofun, fun _ => ⟨false, rfl⟩⟩

theorem isBlockRootAtSlot_found_iff {slot : Slot} (root : Root) :
    (∃ holds, chain.isBlockRootAtSlot slot root = .ok holds) ↔
      ∃ head, chain.blockRootAtSlot slot = .ok head := by
  unfold isBlockRootAtSlot
  rw [found_bind_iff]
  exact exists_congr fun head => and_iff_left ⟨_, rfl⟩

/-- The flags of an attestation are found if the roots are that it is held against. -/
theorem participationFlags_found_iff {data : AttestationData} (inclusionDelay : UInt64) :
    (∃ earned, chain.participationFlags data inclusionDelay = .ok earned) ↔
      ∃ epoch root, chain.attestationEpoch data.target.epoch = .ok epoch ∧
        chain.blockRoot epoch = .ok root ∧
        (data.target.root = root → ∃ head, chain.blockRootAtSlot data.slot = .ok head) := by
  unfold participationFlags
  rw [found_bind_iff]
  refine exists_congr fun epoch => ?_
  rw [exists_and_left]
  refine and_congr_right fun _ => ?_
  rw [found_bind_iff]
  unfold isBlockRoot
  cases chain.blockRoot epoch with
  | error e => exact ⟨nofun, nofun⟩
  | ok root =>
    constructor
    · rintro ⟨_, ⟨⟩, found⟩
      obtain ⟨head, checked, -⟩ := found_bind_iff.mp found
      refine ⟨root, rfl, fun right => ?_⟩
      refine (isBlockRootAtSlot_found_iff data.beaconBlockRoot).mp ?_
      exact checkIf_found_iff.mp ⟨head, checked⟩ (beq_iff_eq.mpr right)
    · rintro ⟨_, ⟨⟩, found⟩
      refine ⟨_, rfl, found_bind_iff.mpr ?_⟩
      obtain ⟨head, checked⟩ := checkIf_found_iff.mpr fun right =>
        (isBlockRootAtSlot_found_iff _).mpr (found (beq_iff_eq.mp right))
      exact ⟨head, checked, _, rfl⟩

/-- The flags that an attestation earns are those that are found for it. -/
theorem Translates.hasFlag_earned_iff (translates : chain.Translates attestation) {index : Nat} :
    hasFlag (chain.earned attestation) index = true ↔
      ∃ flags, chain.participationFlags attestation.data attestation.inclusionDelay = .ok flags ∧
        hasFlag flags index = true := by
  obtain ⟨flags, found⟩ :=
    (participationFlags_found_iff attestation.inclusionDelay).mpr translates.roots
  obtain rfl := participationFlags_gives.met_of_eq_ok found
  rw [found]
  constructor
  · intro set
    exact ⟨_, rfl, set⟩
  · rintro ⟨_, ⟨⟩, set⟩
    exact set

/-! ## What becomes known -/

namespace Fills

variable {epochs more : Set RelativeEpoch}

theorem refl (cache : Cache) : chain.Fills ∅ cache cache := ⟨nofun, fun _ _ => rfl, rfl⟩

theorem trans (first : chain.Fills epochs cache middle)
    (second : chain.Fills more middle after) : chain.Fills (epochs ∪ more) cache after where
  filled epoch listed := by
    by_cases again : epoch ∈ more
    · exact second.filled epoch again
    · rw [second.kept epoch again]
      exact first.filled epoch (listed.resolve_right again)
  kept epoch notListed := by
    rw [Set.mem_union, not_or] at notListed
    rw [second.kept epoch notListed.2, first.kept epoch notListed.1]
  totalActive := second.totalActive.trans first.totalActive

/-- What is known afterwards is a matter of what was known before and of the epochs. -/
theorem unique (first : chain.Fills epochs cache after) (second : chain.Fills epochs cache other) :
    after = other := by
  have same (epoch : RelativeEpoch) : after.shuffled.get epoch = other.shuffled.get epoch := by
    by_cases listed : epoch ∈ epochs
    · obtain ⟨indices, shuffled, known⟩ := first.filled epoch listed
      obtain ⟨indices', shuffled', known'⟩ := second.filled epoch listed
      cases shuffled.symm.trans shuffled'
      rw [known, known']
    · rw [first.kept epoch listed, second.kept epoch listed]
  have shuffles := PerEpoch.eq_of_get same
  have totals := first.totalActive.trans second.totalActive.symm
  cases after
  cases other
  cases shuffles
  cases totals
  rfl

end Fills

theorem lookupShuffled_fills {epoch : RelativeEpoch} {indices : Array ValidatorIndex}
    (coherent : cache.CoherentWith chain)
    (ran : chain.lookupShuffled epoch cache = .ok indices after) :
    chain.Fills {epoch} cache after := by
  unfold lookupShuffled at ran
  rw [get_bind_apply] at ran
  cases known : cache.shuffled.get epoch with
  | some found =>
    rw [known] at ran
    cases ran
    refine ⟨?_, fun _ _ => rfl, rfl⟩
    rintro epoch rfl
    exact ⟨_, coherent.shuffled epoch known, known⟩
  | none =>
    rw [known] at ran
    obtain ⟨found, shuffled, rest⟩ := lift_bind_eq_ok_iff.mp ran
    cases rest
    refine ⟨?_, ?_, rfl⟩
    · rintro _ rfl
      exact ⟨_, shuffled, by rw [PerEpoch.get_set, if_pos rfl]⟩
    · intro other distinct
      exact (PerEpoch.get_set ..).trans (if_neg distinct)

/-- The lookup of a committee makes the shuffle of its epoch known. -/
theorem committee_fills {slot : Slot} {index : UInt64} {members : List ValidatorIndex}
    (coherent : cache.CoherentWith chain)
    (ran : chain.committee slot index cache = .ok members after) :
    ∃ epoch, chain.relativeEpoch (preset.epochAt slot) = .ok epoch ∧
      chain.Fills {epoch} cache after := by
  obtain ⟨epoch, near, ran⟩ := lift_bind_eq_ok_iff.mp ran
  obtain ⟨perSlot, middle, counted, ran⟩ := bind_eq_ok_iff.mp ran
  obtain ⟨_, _, looked, kept⟩ := bind_eq_ok_iff.mp counted
  cases kept
  refine ⟨epoch, near, ?_⟩
  have first := lookupShuffled_fills coherent looked
  have still : middle.CoherentWith chain :=
    ((lookupShuffled_answers epoch).eq_ok coherent looked).2
  split at ran
  · -- the shuffle is looked up again for the members, and is known by then
    obtain ⟨indices, last, again, ran⟩ := bind_eq_ok_iff.mp ran
    iterate 7 obtain ⟨_, -, ran⟩ := lift_bind_eq_ok_iff.mp ran
    obtain ⟨-, rfl⟩ := lift_eq_ok_iff.mp ran
    have second := lookupShuffled_fills still again
    rw [← Set.union_self {epoch}]
    exact first.trans second
  · cases ran

theorem epochsOf_cons :
    chain.epochsOf (attestation :: attestations) =
      chain.epochsOf [attestation] ∪ chain.epochsOf attestations := by
  ext epoch
  simp [epochsOf]

theorem epochsOf_congr {others : List PendingAttestation}
    (same : ∀ attestation, attestation ∈ others ↔ attestation ∈ attestations) :
    chain.epochsOf others = chain.epochsOf attestations := by
  ext epoch
  simp only [epochsOf, Set.mem_ofPred_eq, same]

/-- An attestation is credited if everything is found, and fills the cache with its shuffle. -/
theorem creditAttestation_shows {flags found : Array ParticipationFlags}
    (coherent : cache.CoherentWith chain)
    (ran : chain.creditAttestation flags attestation cache = .ok found after) :
    after.CoherentWith chain ∧ chain.Translates attestation ∧
      chain.Fills (chain.epochsOf [attestation]) cache after := by
  obtain ⟨voters, middle, looked, ran⟩ := bind_eq_ok_iff.mp ran
  obtain ⟨earned, flagged, ran⟩ := lift_bind_eq_ok_iff.mp ran
  obtain ⟨-, rfl⟩ := lift_eq_ok_iff.mp ran
  obtain ⟨-, still⟩ := attestingIndices_eq_ok coherent looked
  have seats := (attestingIndices_eq_ok_iff coherent).mp ⟨_, looked⟩
  obtain ⟨members, seats, -⟩ := seats
  refine ⟨still, ⟨⟨members, seats⟩, (participationFlags_found_iff _).mp ⟨earned, flagged⟩⟩, ?_⟩
  obtain ⟨members, between, asked, rest⟩ := bind_eq_ok_iff.mp looked
  obtain ⟨epoch, near, fills⟩ := committee_fills coherent asked
  have epochs : chain.epochsOf [attestation] = {epoch} := by
    ext other
    simp [epochsOf, near, eq_comm]
  rw [epochs]
  split at rest
  · cases rest
    exact fills
  · cases rest

theorem creditAttestations_fills {flags found : Array ParticipationFlags}
    (coherent : cache.CoherentWith chain)
    (ran : attestations.foldlM chain.creditAttestation flags cache = .ok found after) :
    chain.Fills (chain.epochsOf attestations) cache after := by
  induction attestations generalizing flags cache with
  | nil =>
    cases ran
    have nobody : chain.epochsOf [] = ∅ := by simp [epochsOf]
    rw [nobody]
    exact .refl _
  | cons attestation attestations ih =>
    rw [List.foldlM_cons] at ran
    obtain ⟨_, middle, first, rest⟩ := bind_eq_ok_iff.mp ran
    obtain ⟨still, -, fills⟩ := creditAttestation_shows coherent first
    rw [epochsOf_cons]
    exact fills.trans (ih still rest)

/-- Attestations are credited if and only if everything is found that is looked up for them. -/
theorem creditAttestations_found_iff (coherent : cache.CoherentWith chain) :
    (∃ found after, chain.creditAttestations attestations cache = .ok found after) ↔
      ∀ attestation ∈ attestations, chain.Translates attestation := by
  constructor
  · rintro ⟨found, after, ran⟩
    refine forall_of_foldlM ?_ coherent ran
    intro flags attestation cache found after coherent turned
    obtain ⟨still, translates, -⟩ := creditAttestation_shows coherent turned
    exact ⟨still, translates⟩
  · intro translates
    have finds : chain.Finds (fun _ => False) (·.size = chain.validators.size)
        (chain.creditAttestations attestations) := by
      refine creditAttestations_finds_of ?_ ?_
      · intro attestation listed
        exact (translates attestation listed).seats
      · intro attestation listed
        obtain ⟨earned, found⟩ := (participationFlags_found_iff attestation.inclusionDelay).mpr
          (translates attestation listed).roots
        rw [found]
        trivial
    have credited := finds cache coherent
    cases ran : chain.creditAttestations attestations cache with
    | ok found after => exact ⟨found, after, rfl⟩
    | error e after => exact (credited.of_error ran).elim

end Chain

/-! ## Upgrades -/

namespace PendingState

variable {preset : Preset} (state : PendingState preset)

/-- What a state is specified to be after its upgrade: the same chain; flags for the previous epoch
that are united from all attestations that select a validator; and no flags and scores otherwise. -/
structure Translation (post : FlagState preset) : Prop where
  chain : post.chain = state.chain
  size : post.votes.previous.size = state.chain.validators.size
  flags : ∀ (validator : ValidatorIndex) (flags : ParticipationFlags),
    post.votes.previous[validator]? = some flags → ∀ index, hasFlag flags index = true ↔
      ∃ attestation ∈ state.votes.previous, state.chain.Selects attestation validator ∧
        ∃ earned,
          state.chain.participationFlags attestation.data attestation.inclusionDelay = .ok earned ∧
            hasFlag earned index = true
  current : post.votes.current = Array.replicate state.chain.validators.size 0
  inactivityScores : post.votes.inactivityScores = Array.replicate state.chain.validators.size 0

variable {state} {post : FlagState preset}

theorem toFlags_eq_ok_iff_credited :
    state.toFlags = .ok post ↔ ∃ previous cache,
      state.chain.creditAttestations state.votes.previous state.cache = .ok previous cache ∧
        post = {
          chain := state.chain
          votes := {
            previous
            current := Array.replicate state.chain.validators.size 0
            inactivityScores := Array.replicate state.chain.validators.size 0 }
          cache } := by
  simp only [toFlags]
  cases state.chain.creditAttestations state.votes.previous state.cache with
  | ok previous cache =>
    constructor
    · rintro ⟨⟩
      exact ⟨_, _, rfl, rfl⟩
    · rintro ⟨_, _, ⟨⟩, rfl⟩
      rfl
  | error e cache =>
    constructor
    · rintro ⟨⟩
    · rintro ⟨_, _, ⟨⟩, _⟩

theorem toFlags_found_iff (coherent : state.cache.CoherentWith state.chain) :
    (∃ post, state.toFlags = .ok post) ↔
      ∀ attestation ∈ state.votes.previous, state.chain.Translates attestation := by
  rw [← Chain.creditAttestations_found_iff coherent]
  constructor
  · rintro ⟨post, upgraded⟩
    obtain ⟨previous, cache, credited, -⟩ := toFlags_eq_ok_iff_credited.mp upgraded
    exact ⟨previous, cache, credited⟩
  · rintro ⟨previous, cache, credited⟩
    exact ⟨_, toFlags_eq_ok_iff_credited.mpr ⟨previous, cache, credited, rfl⟩⟩

/-- **An upgrade and its result.** What a state is upgraded to is given by its chain, by the flags
that its attestations earn, and by the epochs whose shuffles they make known. -/
theorem toFlags_eq_ok_iff (coherent : state.cache.CoherentWith state.chain) :
    state.toFlags = .ok post ↔
      (∀ attestation ∈ state.votes.previous, state.chain.Translates attestation) ∧
        post.chain = state.chain ∧ post.votes = state.upgradedVotes ∧
        state.chain.Fills (state.chain.epochsOf state.votes.previous) state.cache post.cache := by
  constructor
  · intro upgraded
    refine ⟨(toFlags_found_iff coherent).mp ⟨post, upgraded⟩, ?_⟩
    obtain ⟨previous, cache, credited, rfl⟩ := toFlags_eq_ok_iff_credited.mp upgraded
    have fills := Chain.creditAttestations_fills coherent credited
    rw [Chain.creditAttestations_eq_ok coherent credited]
    exact ⟨rfl, rfl, fills⟩
  · rintro ⟨translates, chain, votes, fills⟩
    -- some state is found, and it can only be the one that is described
    obtain ⟨found, upgraded⟩ := (toFlags_found_iff coherent).mpr translates
    obtain ⟨previous, cache, credited, rfl⟩ := toFlags_eq_ok_iff_credited.mp upgraded
    have same := fills.unique (Chain.creditAttestations_fills coherent credited)
    rw [Chain.creditAttestations_eq_ok coherent credited] at upgraded
    rw [upgraded]
    cases post
    cases chain
    cases votes
    cases same
    rfl

/-! ### Flags -/

theorem hasFlag_flagsOf_iff {validator : state.chain.Member} {index : Nat}
    (translates : ∀ attestation ∈ state.votes.previous, state.chain.Translates attestation) :
    hasFlag (state.flagsOf validator) index = true ↔
      ∃ attestation ∈ state.votes.previous, state.chain.Selects attestation validator ∧
        hasFlag (state.chain.earned attestation) index = true := by
  rw [flagsOf, Chain.hasFlag_credited, List.any_eq_true]
  refine exists_congr fun attestation => ?_
  rw [Chain.mem_votesOf_iff fun attestation listed => (translates attestation listed).seats,
    and_assoc]

/-- Which flags a validator has is a matter of the set of attestations. -/
theorem flagsOf_congr {votes : PendingVotes}
    (same : ∀ attestation, attestation ∈ votes.previous ↔ attestation ∈ state.votes.previous)
    (translates : ∀ attestation ∈ state.votes.previous, state.chain.Translates attestation) :
    PendingState.flagsOf { state with votes } = state.flagsOf := by
  have translates' : ∀ attestation ∈ votes.previous, state.chain.Translates attestation :=
    fun attestation listed => translates attestation ((same attestation).mp listed)
  refine funext fun validator => eq_of_hasFlag fun index => ?_
  rw [Bool.eq_iff_iff, hasFlag_flagsOf_iff translates', hasFlag_flagsOf_iff translates]
  simp only [same]

theorem translation_of_toFlags (coherent : state.cache.CoherentWith state.chain)
    (upgraded : state.toFlags = .ok post) : state.Translation post := by
  obtain ⟨translates, chain, votes, -⟩ := (toFlags_eq_ok_iff coherent).mp upgraded
  constructor
  · exact chain
  · rw [votes]
    exact Array.size_ofFn
  · intro validator flags found index
    rw [votes] at found
    obtain ⟨registered, rfl⟩ := Array.getElem?_eq_some_iff.mp found
    rw [upgradedVotes, Array.size_ofFn] at registered
    have shown : hasFlag (state.flagsOf ⟨validator, registered⟩) index = true ↔ _ :=
      hasFlag_flagsOf_iff translates
    simp only [upgradedVotes, Array.getElem_ofFn]
    rw [shown]
    refine exists_congr fun attestation => and_congr_right fun listed => and_congr_right fun _ => ?_
    exact (translates attestation listed).hasFlag_earned_iff
  · rw [votes]
    rfl
  · rw [votes]
    rfl

/-! ### Walks -/

/-- A walk whose upgrade from Phase 0 fails leaves the state that was to be upgraded. -/
theorem processSlots_of_toFlags_error {config : Config} {target fork : Slot}
    {start : Run (BeaconState preset)} {journal : Array Event} {e : Error}
    (ahead : start.state.slot < target) (scheduled : config.forkSlot? preset .altair = some fork)
    (within : fork ≤ target)
    (reached : BeaconState.reach config fork start = .ok () ⟨.pending state, journal⟩)
    (failed : state.toFlags = .error e) :
    BeaconState.processSlots config target start = .error e ⟨.pending state, journal⟩ := by
  have phase : start.state.phase = .phase0 := (BeaconState.reach_eq_ok reached).2.symm
  have opened : (config.forkSlot? preset FlagPhase.altair.toPhase).filter (· ≤ target) =
      some fork := Option.filter_eq_some_iff.mpr ⟨scheduled, by simpa using within⟩
  have stays : BeaconState.enter .altair ⟨.pending state, journal⟩ =
      .error e ⟨.pending state, journal⟩ := by
    unfold BeaconState.enter
    rw [get_bind_apply, BeaconState.upgrade, failed]
    rfl
  rw [BeaconState.processSlots_of_lt ahead, BeaconState.resume, phase, Phase.later,
    BeaconState.travel_across (.inl ahead) opened, bind_of_ok reached]
  exact bind_of_error stays

/-- When an upgrade from Phase 0 succeeds, what it results in, what it depends on, and what is left
if it fails. -/
structure UpgradesExactly (state : PendingState preset) : Prop where
  /-- It succeeds if and only if everything is found for all attestations of the previous epoch. -/
  succeeds : (∃ post, state.toFlags = .ok post) ↔
    ∀ attestation ∈ state.votes.previous, state.chain.Translates attestation
  result : ∀ post, state.toFlags = .ok post → state.Translation post
  /-- Attestations of the previous epoch matter as a set, those of the current one not at all. -/
  asSet : ∀ votes : PendingVotes,
    (∀ attestation, attestation ∈ votes.previous ↔ attestation ∈ state.votes.previous) →
      ∀ post, toFlags { state with votes } = .ok post ↔ state.toFlags = .ok post
  /-- A walk that gets to the fork with the state, and fails to upgrade it, leaves it as it is. -/
  failure : ∀ (config : Config) (target fork : Slot) (start : Run (BeaconState preset))
    (journal : Array Event) (e : Error), start.state.slot < target →
      config.forkSlot? preset .altair = some fork → fork ≤ target →
      BeaconState.reach config fork start = .ok () ⟨.pending state, journal⟩ →
      state.toFlags = .error e →
        BeaconState.processSlots config target start = .error e ⟨.pending state, journal⟩

/-- **Upgrades are exact.** Let a state of Phase 0 have a coherent cache. Its upgrade succeeds if
and only if for every attestation of the previous epoch the committee is found and has a bit for
each member, and the roots are found that it is held against. Then a validator has a flag if and
only if some attestation that selects it earns that flag, there are no other flags and scores, and
nothing else has changed; and this, with all that is known afterwards, depends on the set of
attestations alone. If a walk fails in the upgrade, then it leaves the state that it has brought to
the fork. -/
theorem toFlags_exact (coherent : state.cache.CoherentWith state.chain) :
    state.UpgradesExactly where
  succeeds := toFlags_found_iff coherent
  result _ := translation_of_toFlags coherent
  asSet votes same post := by
    have translates_iff : (∀ attestation ∈ votes.previous, state.chain.Translates attestation) ↔
        ∀ attestation ∈ state.votes.previous, state.chain.Translates attestation :=
      forall_congr' fun attestation => by rw [same]
    have coherent' : ({ state with votes } : PendingState preset).cache.CoherentWith state.chain :=
      coherent
    rw [toFlags_eq_ok_iff coherent, toFlags_eq_ok_iff coherent', translates_iff,
      Chain.epochsOf_congr same]
    refine and_congr_right fun translates => ?_
    rw [upgradedVotes, upgradedVotes, flagsOf_congr same translates]
  failure _ _ _ _ _ _ := processSlots_of_toFlags_error

/-- A state at the start of the third epoch, with an attestation from beyond the next one. -/
def strayVoter : PendingState .minimal where
  chain := { soleVoter.chain with slot := 16 }
  votes := ⟨[{ lastVote 1 with data := { (lastVote 1).data with slot := 100 } }], []⟩

/-- One state is upgraded, and a walk with another one fails to. -/
theorem toFlags_exact_soleVoter :
    (∃ post, toFlags soleVoter = .ok post ∧ Translation soleVoter post) ∧
      BeaconState.processSlots BeaconState.thirdEpochFork 17 ⟨.pending strayVoter, #[]⟩ =
        .error .epochAfterNext ⟨.pending strayVoter, #[]⟩ := by
  have upgraded : ∃ post, toFlags soleVoter = .ok post := ⟨_, by with_unfolding_all rfl⟩
  obtain ⟨post, upgraded⟩ := upgraded
  refine ⟨⟨post, upgraded, (toFlags_exact soleVoter_coherent).result post upgraded⟩, ?_⟩
  have coherent : strayVoter.cache.CoherentWith strayVoter.chain := .empty _
  have failed : toFlags strayVoter = .error .epochAfterNext := by rfl
  have ahead : (⟨.pending strayVoter, #[]⟩ : Run (BeaconState .minimal)).state.slot < 17 := by
    decide
  have scheduled : BeaconState.thirdEpochFork.forkSlot? .minimal .altair = some 16 := by decide
  refine (toFlags_exact coherent).failure _ 17 16 ⟨.pending strayVoter, #[]⟩ #[] _ ahead scheduled
    (by decide) (BeaconState.reach_of_not_lt ?_) failed
  decide

end PendingState

end BeaconEpoch
