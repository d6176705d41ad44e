import BeaconEpoch.Proofs.Accounting.Stake
import BeaconEpoch.Proofs.Progress.Lookup
import Mathlib.Data.List.MinMax

/-!
# Votes

Attestations are entered one after another for all their voters. What a validator ends up with
depends on the attestations alone that it takes part in.

## Main definitions

* `Chain.votersOf`: the voters of an attestation.
* `Chain.qualifies`: the kinds of votes that an attestation is.
* `Chain.votesOf`: the attestations of some that a validator takes part in.
* `Chain.enter`: a record with attestations entered.
* `Chain.earliest`: the attestation for the previous epoch that was included first.

## Main statements

* `Chain.attestingIndices_eq_ok`, `Chain.hasDuties_of_mem_votersOf`: voters.
* `Chain.slot_eq_of_mem_votersOf`: nobody votes in two slots of an epoch.
* `Chain.foldlM_eq_ok`: a loop over attestations, seen by one validator.
* `Chain.attested_enter`, `Chain.inclusion_enter`: the votes that a record shows, and the inclusion.
* `Chain.countAttestations_eq_ok`: all attestations of two epochs.

## Design notes

* **Voters without a cache.** Committees do not depend on what a coherent cache knows, so the voters
  of an attestation are those that are found with an empty one.
* **Being listed twice changes nothing.** Entering an attestation a second time for the same voter
  has no effect, so nothing has to be known about committees in order to count.
-/

namespace BeaconEpoch

/-! ## Voters -/

/-- The epoch of a slot ends before slots do. -/
theorem Preset.room_of_epochAt (preset : Preset) (slot : Slot) :
    ((preset.epochAt slot).toNat + 1) * preset.slotsPerEpoch.toNat ≤ 2 ^ 64 := by
  have last := slot.toNat_lt
  rw [toNat_epochAt]
  rcases preset.slotsPerEpoch_cases with length | length <;> rw [length] <;> omega

namespace Chain

variable {preset : Preset} (chain : Chain preset)

/-- The voters of an attestation; none if they cannot be found. -/
def votersOf (attestation : PendingAttestation) : List ValidatorIndex :=
  match chain.attestingIndices attestation.data attestation.aggregationBits Cache.empty with
  | .ok voters _ => voters
  | .error _ _ => []

variable {chain} {attestation other : PendingAttestation} {cache after : Cache}

/-- The voters of an attestation are found from every coherent cache, or from none. -/
theorem attestingIndices_eq_ok {voters : List ValidatorIndex}
    (coherent : cache.CoherentWith chain)
    (found : chain.attestingIndices attestation.data attestation.aggregationBits cache =
      .ok voters after) :
    voters = chain.votersOf attestation ∧ after.CoherentWith chain := by
  have answer : chain.HasAnswer
    (chain.attestingIndices attestation.data attestation.aggregationBits) :=
      attestingIndices_hasAnswer ..
  obtain ⟨_, -, afresh⟩ := answer.answers_of_ok coherent found Cache.empty (.empty chain)
  refine ⟨?_, answer.coherent_of_ok coherent found⟩
  rw [votersOf, afresh]
  rfl

/-- Whoever votes is in the committee of the vote. -/
theorem seats_of_mem_votersOf {voter : ValidatorIndex}
    (mem : voter ∈ chain.votersOf attestation) :
    ∃ members, chain.Seats attestation members ∧ voter ∈ members := by
  unfold votersOf at mem
  split at mem
  · rename_i found
    obtain ⟨members, seats, rfl⟩ := (attestingIndices_eq_ok_iff (.empty chain)).mp ⟨_, found⟩
    obtain ⟨_, member, -⟩ := mem_voters_iff.mp mem
    exact ⟨members, seats, List.mem_of_getElem? member⟩
  · cases mem

/-- Whoever votes has duties in the epoch of the vote. -/
theorem hasDuties_of_mem_votersOf {voter : ValidatorIndex}
    (mem : voter ∈ chain.votersOf attestation) :
    chain.HasDuties (preset.epochAt attestation.data.slot) voter := by
  obtain ⟨members, seats, mem⟩ := seats_of_mem_votersOf mem
  exact seats.hasDuties mem

theorem Committees.perSlot_le {epoch : RelativeEpoch} (committees : chain.Committees epoch) :
    committees.perSlot ≤ 64 := by
  have counted := committeeCount_answers committees.shuffled
  rw [committees.counted.unique counted]
  exact (preset.committeesPerSlot_bounds _).2

/-- The committee of a vote is one of the committees of its epoch. -/
theorem Committees.place_of_mem_votersOf {epoch : RelativeEpoch}
    (committees : chain.Committees epoch)
    (room : ((chain.epochOf epoch).toNat + 1) * preset.slotsPerEpoch.toNat ≤ 2 ^ 64)
    (inside : preset.epochAt attestation.data.slot = chain.epochOf epoch) {voter : ValidatorIndex}
    (mem : voter ∈ chain.votersOf attestation) :
    (attestation.data.slot, attestation.data.index) ∈
        preset.places (chain.epochOf epoch) committees.perSlot ∧
      voter ∈ committees.members (attestation.data.slot, attestation.data.index) := by
  obtain ⟨members, ⟨answers, -⟩, member⟩ := seats_of_mem_votersOf mem
  have valid : attestation.data.index.toNat < committees.perSlot := by
    by_contra beyond
    have failed := committees.bounded _ _ inside (Nat.not_lt.mp beyond)
    obtain ⟨_, -, found⟩ := answers Cache.empty (.empty chain)
    obtain ⟨_, -, notFound⟩ := failed Cache.empty (.empty chain)
    cases found.symm.trans notFound
  rw [answers.unique (committees.found _ _ inside valid)] at member
  rw [Preset.mem_places_iff committees.perSlot_le, Preset.mem_slotsOf_iff room]
  exact ⟨⟨inside, valid⟩, member⟩

/-- Nobody votes in two slots of an epoch, because nobody is in two committees of it. -/
theorem slot_eq_of_mem_votersOf (few : chain.validators.size < 2 ^ 40) {voter : ValidatorIndex}
    (same : preset.epochAt attestation.data.slot = preset.epochAt other.data.slot)
    (mem : voter ∈ chain.votersOf attestation) (mem' : voter ∈ chain.votersOf other) :
    attestation.data.slot = other.data.slot := by
  obtain ⟨members, ⟨answers, -⟩, -⟩ := seats_of_mem_votersOf mem
  obtain ⟨_, -, found⟩ := answers Cache.empty (.empty chain)
  obtain ⟨epoch, indices, near, shuffled, -⟩ := committee_eq_ok (.empty chain) found
  have around := epochOf_of_relativeEpoch near
  have room := preset.room_of_epochAt attestation.data.slot
  have active := hasDuties_of_mem_votersOf mem
  rw [← around] at shuffled room active
  obtain ⟨committees⟩ := exists_committees few room shuffled
  have place := committees.place_of_mem_votersOf room around.symm mem
  have place' := committees.place_of_mem_votersOf room (same.symm.trans around.symm) mem'
  exact congrArg Prod.fst ((committees.existsUnique_place active).unique place place')

end Chain

/-! ## Loops over voters and attestations -/

section Loops

variable {α : Type} {count : Nat}

/-- A change of one record in a table, as a table. -/
theorem modify_ofFn (entry : Fin count → α) (voter : ValidatorIndex) (change : α → α) :
    (Array.ofFn entry).modify voter change =
      Array.ofFn fun index => if index.val = voter then change (entry index) else entry index := by
  refine Array.ext (by simp) fun index inside inside' => ?_
  simp [Array.getElem_modify, eq_comm]

/-- The entries of some voters are changed one after another. Each of them is changed once, if to
change it again makes no difference. -/
theorem foldlM_modify_eq_ok {change : α → α} (once : ∀ a, change (change a) = change a)
    {turn : Array α → ValidatorIndex → Except Error (Array α)}
    (turns : ∀ {array voter found}, turn array voter = .ok found →
      found = array.modify voter change)
    {voters : List ValidatorIndex} {entry : Fin count → α} {found : Array α}
    (ran : voters.foldlM turn (Array.ofFn entry) = .ok found) :
    found = Array.ofFn fun index =>
      if index.val ∈ voters then change (entry index) else entry index := by
  induction voters generalizing entry with
  | nil =>
    cases ran
    simp
  | cons voter voters ih =>
    rw [List.foldlM_cons] at ran
    cases first : turn (Array.ofFn entry) voter with
    | error e =>
      rw [first] at ran
      cases ran
    | ok middle =>
      rw [first, turns first, modify_ofFn] at ran
      rw [ih ran]
      refine congrArg Array.ofFn (funext fun index => ?_)
      by_cases here : index.val = voter <;> by_cases later : index.val ∈ voters <;>
        simp [here, later, once]

end Loops

namespace Chain

variable {preset : Preset} (chain : Chain preset)

/-- The attestations of some that a validator takes part in. -/
def votesOf (attestations : List PendingAttestation) (validator : chain.Member) :
    List PendingAttestation :=
  attestations.filter fun attestation => validator.val ∈ chain.votersOf attestation

variable {chain}

theorem votesOf_append (first second : List PendingAttestation) (validator : chain.Member) :
    chain.votesOf (first ++ second) validator =
      chain.votesOf first validator ++ chain.votesOf second validator := List.filter_append ..

/-- **One validator's view of a loop.** If every attestation changes the entries of its voters in
some way, then the entry of a validator is changed by the attestations that it takes part in. -/
theorem foldlM_eq_ok {α : Type} {turn : Array α → PendingAttestation → Lookup (Array α)}
    {change : PendingAttestation → α → α}
    (turns : ∀ {entry : chain.Member → α} {attestation cache found after},
      cache.CoherentWith chain → turn (Array.ofFn entry) attestation cache = .ok found after →
        after.CoherentWith chain ∧ found = Array.ofFn fun validator =>
          if validator.val ∈ chain.votersOf attestation then change attestation (entry validator)
          else entry validator)
    {attestations : List PendingAttestation} {entry : chain.Member → α} {cache after : Cache}
    {found : Array α} (coherent : cache.CoherentWith chain)
    (ran : attestations.foldlM turn (Array.ofFn entry) cache = .ok found after) :
    found = Array.ofFn fun validator =>
      (chain.votesOf attestations validator).foldl (fun a attestation => change attestation a)
        (entry validator) := by
  induction attestations generalizing entry cache with
  | nil =>
    cases ran
    rfl
  | cons attestation attestations ih =>
    rw [List.foldlM_cons] at ran
    obtain ⟨middle, between, first, rest⟩ := Step.bind_eq_ok_iff.mp ran
    obtain ⟨still, rfl⟩ := turns coherent first
    rw [ih still rest]
    refine congrArg Array.ofFn (funext fun validator => ?_)
    unfold votesOf
    by_cases takesPart : validator.val ∈ chain.votersOf attestation
    · simp [takesPart]
    · simp [takesPart]

end Chain

/-! ## What an attestation is worth -/

/-- The kinds of votes that marks stand for. -/
def Marks.counts (marks : Marks) : Category → Bool
  | .currentEpoch => marks.current
  | .currentEpochTarget => marks.currentTarget
  | .previousEpoch => marks.previous
  | .previousEpochTarget => marks.previousTarget
  | .previousEpochHead => marks.previousHead

namespace Chain

variable {preset : Preset} (chain : Chain preset) (attestation : PendingAttestation)

/-- The attestation names the block at the start of the epoch that it targets. -/
def matchesTarget : Bool :=
  match chain.blockRootAtSlot (preset.startSlot attestation.data.target.epoch) with
  | .ok root => attestation.data.target.root == root
  | .error _ => false

/-- The attestation names the block at its slot. -/
def matchesHead : Bool :=
  match chain.blockRootAtSlot attestation.data.slot with
  | .ok root => attestation.data.beaconBlockRoot == root
  | .error _ => false

/-- Whether an attestation is a vote of a kind. -/
def qualifies : Category → Bool
  | .currentEpoch => attestation.data.target.epoch == chain.currentEpoch
  | .currentEpochTarget =>
    attestation.data.target.epoch == chain.currentEpoch && chain.matchesTarget attestation
  | .previousEpoch => attestation.data.target.epoch == chain.previousEpoch
  | .previousEpochTarget =>
    attestation.data.target.epoch == chain.previousEpoch && chain.matchesTarget attestation
  | .previousEpochHead =>
    attestation.data.target.epoch == chain.previousEpoch && chain.matchesTarget attestation &&
      chain.matchesHead attestation

/-- The marks of an attestation, by the kinds of votes that it is. -/
def marksOf : Marks where
  current := chain.qualifies attestation .currentEpoch
  currentTarget := chain.qualifies attestation .currentEpochTarget
  previous := chain.qualifies attestation .previousEpoch
  previousTarget := chain.qualifies attestation .previousEpochTarget
  previousHead := chain.qualifies attestation .previousEpochHead

variable {chain attestation}

theorem counts_marksOf (category : Category) :
    (chain.marksOf attestation).counts category = chain.qualifies attestation category := by
  cases category <;> rfl

theorem checkIf_gives {condition holds : Bool} {check : Except Error Bool}
    (gives : condition = true → Gives holds check) :
    Gives (condition && holds) (checkIf condition check) := by
  cases condition with
  | true => exact gives rfl
  | false => rfl

theorem isBlockRoot_gives {epoch : AttestationEpoch}
    (targeted : attestation.data.target.epoch = chain.epochOf epoch.toRelative) :
    Gives (chain.matchesTarget attestation)
      (chain.isBlockRoot epoch attestation.data.target.root) := by
  unfold isBlockRoot blockRoot matchesTarget
  rw [targeted]
  cases chain.blockRootAtSlot (preset.startSlot (chain.epochOf epoch.toRelative)) with
  | ok root => rfl
  | error e => trivial

theorem isBlockRootAtSlot_gives :
    Gives (chain.matchesHead attestation)
      (chain.isBlockRootAtSlot attestation.data.slot attestation.data.beaconBlockRoot) := by
  unfold isBlockRootAtSlot matchesHead
  cases chain.blockRootAtSlot attestation.data.slot with
  | ok root => rfl
  | error e => trivial

/-- The marks of an attestation are what the specification says of it, if its block roots are found.
-/
theorem marks_gives : Gives (chain.marksOf attestation) (chain.marks attestation) := by
  simp only [marks]
  split
  · trivial
  · have root (epoch : AttestationEpoch) :
        Gives _ (checkIf (attestation.data.target.epoch == chain.epochOf epoch.toRelative)
          (chain.isBlockRoot epoch attestation.data.target.root)) :=
      checkIf_gives fun targeted => isBlockRoot_gives (eq_of_beq targeted)
    refine (root .current).bind ((root .previous).bind ?_)
    exact (checkIf_gives fun _ => isBlockRootAtSlot_gives).bind (.pure rfl)

end Chain

/-! ## Records -/

namespace Record

variable {marks : Marks} {attestation : PendingAttestation} {record : Record}

/-- A record that is marked counts towards what it counted towards before, and towards what the
marks say. -/
theorem attested_mark (category : Category) :
    (record.mark marks attestation).attested .phase0 category =
      (record.attested .phase0 category || marks.counts category) := by
  unfold mark
  dsimp only
  split <;> cases category <;> rfl

/-- Entering an attestation twice is entering it once. -/
theorem mark_mark :
    (record.mark marks attestation).mark marks attestation = record.mark marks attestation := by
  unfold mark
  grind

/-- What attestations do not change: stake, standing and whether to reward or penalize. -/
def standing (record : Record) : Gwei × Bool × Bool :=
  (record.effectiveBalance, record.slashed, record.eligible)

theorem standing_mark : (record.mark marks attestation).standing = record.standing := by
  unfold mark
  dsimp only
  split <;> rfl

/-- The inclusion that a record shows: when, after how long, and by whom. -/
def inclusion (record : Record) : Slot × Slot × UInt64 :=
  (record.inclusionSlot, record.inclusionDistance, record.proposerIndex)

end Record

/-- The inclusion of an attestation: when, after how long, and by whom. -/
def PendingAttestation.inclusion (attestation : PendingAttestation) : Slot × Slot × UInt64 :=
  (attestation.inclusionSlot, attestation.inclusionDelay, attestation.proposerIndex)

theorem Record.inclusion_mark {marks : Marks} {attestation : PendingAttestation} {record : Record} :
    (record.mark marks attestation).inclusion =
      if marks.previous ∧ attestation.inclusionSlot < record.inclusionSlot then
        attestation.inclusion
      else record.inclusion := by
  simp only [mark, Bool.and_eq_true, decide_eq_true_eq]
  split <;> rfl

namespace Chain

variable {preset : Preset} (chain : Chain preset)

/-- A record with attestations entered, one after another. -/
def enter (attestations : List PendingAttestation) (record : Record) : Record :=
  attestations.foldl (fun record attestation => record.mark (chain.marksOf attestation) attestation)
    record

/-- The first of the earliest included attestations for the previous epoch. -/
def earliest (attestations : List PendingAttestation) : Option PendingAttestation :=
  (attestations.filter (chain.qualifies · .previousEpoch)).argmin (·.inclusionSlot.toNat)

variable {chain} {attestations : List PendingAttestation} {record : Record}

/-- Entering one more attestation marks the record once more. -/
theorem enter_concat (attestation : PendingAttestation) :
    chain.enter (attestations ++ [attestation]) record =
      (chain.enter attestations record).mark (chain.marksOf attestation) attestation :=
  List.foldl_concat ..

/-- One more attestation is the earliest one only if it is included before all others; on a tie the
first one stays. -/
theorem earliest_concat (attestation : PendingAttestation) :
    chain.earliest (attestations ++ [attestation]) =
      if chain.qualifies attestation .previousEpoch then
        match chain.earliest attestations with
        | some first =>
          if attestation.inclusionSlot < first.inclusionSlot then some attestation else some first
        | none => some attestation
      else chain.earliest attestations := by
  unfold earliest
  rw [List.filter_append, List.filter_cons, List.filter_nil]
  split
  · rw [List.argmin_concat]
    simp only [UInt64.lt_iff_toNat_lt]
    cases (attestations.filter (chain.qualifies · .previousEpoch)).argmin
      (·.inclusionSlot.toNat) <;> rfl
  · rw [List.append_nil]

theorem standing_enter : (chain.enter attestations record).standing = record.standing := by
  induction attestations using List.reverseRecOn with
  | nil => rfl
  | append_singleton attestations attestation ih => rw [enter_concat, Record.standing_mark, ih]

theorem attested_enter (category : Category) :
    (chain.enter attestations record).attested .phase0 category =
      (record.attested .phase0 category ||
        attestations.any (chain.qualifies · category)) := by
  induction attestations using List.reverseRecOn with
  | nil => simp [enter]
  | append_singleton attestations attestation ih =>
    rw [enter_concat, Record.attested_mark, ih, counts_marksOf, List.any_append, Bool.or_assoc]
    simp

/-- **The earliest inclusion wins.** A record shows the inclusion of the first of the earliest
attestations for the previous epoch, if that is earlier than what it showed before. -/
theorem inclusion_enter :
    (chain.enter attestations record).inclusion =
      match chain.earliest attestations with
      | some first =>
        if first.inclusionSlot < record.inclusionSlot then first.inclusion else record.inclusion
      | none => record.inclusion := by
  induction attestations using List.reverseRecOn with
  | nil => rfl
  | append_singleton attestations attestation ih =>
    have marked : (chain.marksOf attestation).previous =
      chain.qualifies attestation .previousEpoch := rfl
    have slot : (chain.enter attestations record).inclusionSlot =
      (chain.enter attestations record).inclusion.1 := rfl
    rw [enter_concat, Record.inclusion_mark, marked, slot, ih, earliest_concat]
    by_cases qualifies : chain.qualifies attestation .previousEpoch = true
    · rw [if_pos qualifies]
      cases chain.earliest attestations with
      | none => simp [qualifies, Record.inclusion]
      | some first =>
        -- the new one counts if it is earlier than both what was shown and the earliest so far
        simp only [qualifies, true_and, UInt64.lt_iff_toNat_lt]
        split_ifs <;> grind [Record.inclusion, PendingAttestation.inclusion]
    · rw [if_neg qualifies]
      simp [qualifies]

/-! ## All attestations -/

theorem openPending_eq_ok {tally : Tally} {cache after : Cache}
    (opened : chain.openPending cache = .ok tally after) :
    (∃ following : Epoch, following.toNat = chain.previousEpoch.toNat + 1 ∧
        tally.records = Array.ofFn (chain.blankRecord following 0)) ∧
      tally.totals = chain.activeTotals ∧ chain.activeTotals.checked = .ok chain.activeTotals := by
  unfold openPending at opened
  obtain ⟨following, next, rest⟩ := Step.lift_bind_eq_ok_iff.mp opened
  have next := Word.checked_eq_ok_iff.mp next
  obtain ⟨totals, checked, rest⟩ := Step.lift_bind_eq_ok_iff.mp rest
  obtain ⟨rfl, -⟩ := Totals.eq_of_checked_eq_ok checked
  obtain ⟨_, _, cached, rest⟩ := Step.bind_eq_ok_iff.mp rest
  cases rest
  exact ⟨⟨following, next.symm, map_eq_ofFn ..⟩, rfl, checked⟩

theorem attested_blankRecord {following : Epoch} {validator : chain.Member} (category : Category) :
    (chain.blankRecord following 0 validator).attested .phase0 category = false := by
  cases category <;> rfl

/-- One turn of the loop over attestations: the records of its voters are marked, all others stay.
-/
theorem enterAttestation_eq_ok {entry : chain.Member → Record} {attestation : PendingAttestation}
    {cache after : Cache} {found : Array Record} (coherent : cache.CoherentWith chain)
    (ran : chain.enterAttestation (Array.ofFn entry) attestation cache = .ok found after) :
    after.CoherentWith chain ∧ found = Array.ofFn fun validator =>
      if validator.val ∈ chain.votersOf attestation then
        (entry validator).mark (chain.marksOf attestation) attestation
      else entry validator := by
  unfold enterAttestation at ran
  obtain ⟨marks, marked, rest⟩ := Step.lift_bind_eq_ok_iff.mp ran
  obtain rfl := marks_gives.met_of_eq_ok marked
  obtain ⟨voters, _, looked, rest⟩ := Step.bind_eq_ok_iff.mp rest
  obtain ⟨rfl, still⟩ := attestingIndices_eq_ok coherent looked
  obtain ⟨entered, rfl⟩ := Step.lift_eq_ok_iff.mp rest
  refine ⟨still, foldlM_modify_eq_ok (fun _ => Record.mark_mark) (fun turned => ?_) entered⟩
  unfold markVoter at turned
  split at turned
  · cases turned
    rfl
  · cases turned

/-- **Votes are counted.** Every record has exactly the attestations entered that its validator
takes part in, those of the previous epoch first, and totals are counted from these records. -/
theorem countAttestations_eq_ok {votes : PendingVotes} {tally counted : Tally} {cache after : Cache}
    {entry : chain.Member → Record} (coherent : cache.CoherentWith chain)
    (records : tally.records = Array.ofFn entry)
    (ran : chain.countAttestations votes tally cache = .ok counted after) :
    counted.records = (Array.ofFn fun validator =>
        chain.enter (chain.votesOf (votes.previous ++ votes.current) validator) (entry validator)) ∧
      tally.totals.countVotes preset .phase0 counted.records = .ok counted.totals := by
  unfold countAttestations at ran
  rw [records] at ran
  obtain ⟨entered, _, looped, rest⟩ := Step.bind_eq_ok_iff.mp ran
  have same := foldlM_eq_ok enterAttestation_eq_ok coherent looped
  obtain ⟨totals, counted, rest⟩ := Step.lift_bind_eq_ok_iff.mp rest
  cases rest
  exact ⟨same, counted⟩

end Chain

/-! ## A single voter -/

/-- The vote of the only member of the last committee of the first epoch for zero roots. -/
def lastVote (inclusionDelay : UInt64) : PendingAttestation :=
  { (default : PendingAttestation) with
    aggregationBits := [true]
    data := ⟨7, 0, Root.zero, ⟨0, Root.zero⟩, ⟨0, Root.zero⟩⟩
    inclusionDelay }

/-- A state at the end of the second epoch with a single validator, whose vote was included twice.
Its only shuffle is known. -/
def soleVoter : PendingState .minimal where
  chain := { Chain.empty .minimal with
    slot := 15
    validators := #[⟨32000000000, false, 0, 0, farFutureEpoch, farFutureEpoch⟩]
    balances := #[31000000000] }
  votes := ⟨[lastVote 3, lastVote 1], []⟩
  cache := { Cache.empty with shuffled := ⟨some #[0], none, none⟩ }

theorem soleVoter_coherent : soleVoter.cache.CoherentWith soleVoter.chain := by
  have wellFormed : soleVoter.chain.WellFormed :=
    ⟨⟨by decide, by decide⟩, by decide, by decide, by decide⟩
  obtain ⟨indices, shuffled⟩ := Chain.shuffledIndices_found wellFormed .previous
  -- whatever the shuffle does, a single validator stays where it is
  have sole : indices = #[0] := by
    have active : soleVoter.chain.activeIndices (soleVoter.chain.epochOf .previous) = #[0] := by
      decide
    have rearranged := Array.perm_iff_toList_perm.mp (Chain.shuffledIndices_perm shuffled)
    rw [active] at rearranged
    exact Array.toList_inj.mp (List.perm_singleton.mp rearranged)
  exact (Cache.CoherentWith.empty soleVoter.chain).setShuffled (sole ▸ shuffled)

end BeaconEpoch
