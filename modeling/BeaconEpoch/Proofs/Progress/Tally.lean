import BeaconEpoch.Proofs.Progress.Lookup
import BeaconEpoch.Proofs.Range.Epoch

/-!
# Plans that are found

From attestations that fit, an epoch of Phase 0 finds a plan with one record and one delta per
validator. An epoch of Altair or later does so from one entry per validator in all votes, unless an
inactivity score outgrows its word. An upgrade finds one entry per validator from attestations that
fit.

## Main definitions

* `RecordsFit`: one record per validator, with proposers of the registry.
* `Plan.Fits`: a plan for a registry.
* `FlagVotes.Fit`: one entry per validator in all votes.

## Main statements

* `Chain.countAttestations_finds`: votes are counted.
* `Chain.planPending_finds`, `Chain.planFlags_finds`: plans.
* `Chain.creditAttestations_finds`: votes that become flags.

## Design notes

* **The allowed errors are a parameter.** Where nothing can fail a result is sound for every choice
  of allowed errors, so it can stand next to one that may fail.
-/

namespace BeaconEpoch

/-- One record per validator, each of which names a proposer of the registry. -/
structure RecordsFit (count : Nat) (records : Array Record) : Prop where
  size : records.size = count
  proposers : ∀ record ∈ records, record.proposerIndex.toNat < count

/-! ## Attestations -/

section Attestations

variable {preset : Preset} {chain : Chain preset} {attestation : PendingAttestation}
  {epoch : AttestationEpoch} {allowed : Error → Prop}

/-- An attestation for an epoch fits that epoch, also if the epoch has two names. -/
theorem PendingAttestation.Fits.of_target (wellFormed : chain.WellFormed)
    (fits : attestation.Fits chain epoch) {epoch' : AttestationEpoch}
    (target : attestation.data.target.epoch = chain.epochOf epoch'.toRelative) :
    attestation.Fits chain epoch' :=
  fits.later wellFormed rfl rfl (UInt64.le_refl _) (target.symm.trans fits.target)

theorem PendingAttestation.Fits.marks_found (wellFormed : chain.WellFormed)
    (fits : attestation.Fits chain epoch) :
    Sound allowed (fun _ => True) (chain.marks attestation) := by
  simp only [Chain.marks]
  rw [if_neg fits.delayed]
  have root (epoch' : AttestationEpoch)
      (targeted : (attestation.data.target.epoch == chain.epochOf epoch'.toRelative) = true) :
      Sound allowed (fun _ => True)
        (chain.isBlockRoot epoch' attestation.data.target.root) :=
    (fits.of_target wellFormed (eq_of_beq targeted)).isBlockRoot_found wellFormed _
  refine (Chain.checkIf_sound (root .current)).bind fun currentTarget _ => ?_
  refine (Chain.checkIf_sound (root .previous)).bind fun previousTarget _ => ?_
  refine (Chain.checkIf_sound fun _ => fits.isBlockRootAtSlot_found wellFormed _).bind ?_
  exact fun previousHead _ => .pure trivial

end Attestations

theorem Record.proposerIndex_mark (marks : Marks) (attestation : PendingAttestation)
    (record : Record) :
    (record.mark marks attestation).proposerIndex = record.proposerIndex ∨
      (record.mark marks attestation).proposerIndex = attestation.proposerIndex := by
  simp only [Record.mark]
  split
  · exact .inr rfl
  · exact .inl rfl

/-- A registry with a validator in it has a first one. -/
theorem RecordsFit.of_zero {records : Array Record} {count : Nat} (size : records.size = count)
    (zero : ∀ record ∈ records, record.proposerIndex = 0) : RecordsFit count records := by
  refine ⟨size, fun record listed => ?_⟩
  rw [zero record listed, ← size]
  exact Array.size_pos_of_mem listed

theorem RecordsFit.mark {count : Nat} {records : Array Record} (fit : RecordsFit count records)
    (marks : Marks) {attestation : PendingAttestation}
    (proposer : attestation.proposerIndex.toNat < count) (voter : ValidatorIndex) :
    RecordsFit count (records.modify voter (Record.mark marks attestation)) where
  size := Array.size_modify.trans fit.size
  proposers record mem := by
    obtain ⟨index, inside, rfl⟩ := Array.getElem_of_mem mem
    have inside : index < records.size := Nat.lt_of_lt_of_eq inside Array.size_modify
    have old := fit.proposers _ (Array.getElem_mem inside)
    rw [Array.getElem_modify]
    split
    · rcases Record.proposerIndex_mark marks attestation records[index] with kept | named
      · rwa [kept]
      · rwa [named]
    · exact old

theorem markVoters_found {allowed : Error → Prop} {count : Nat} {records : Array Record}
    (fit : RecordsFit count records) (marks : Marks) {attestation : PendingAttestation}
    (proposer : attestation.proposerIndex.toNat < count) {voters : List ValidatorIndex}
    (registered : ∀ voter ∈ voters, voter < count) :
    Sound allowed (RecordsFit count) (markVoters marks attestation records voters) := by
  refine Sound.foldlM_list _ fit fun records voter listed fit => ?_
  unfold markVoter
  rw [if_pos (fit.size ▸ registered voter listed)]
  exact fit.mark marks proposer voter

namespace Chain

variable {preset : Preset} {chain : Chain preset} {allowed : Error → Prop}

theorem enterAttestation_finds (wellFormed : chain.WellFormed) {attestation : PendingAttestation}
    {epoch : AttestationEpoch} (fits : attestation.Fits chain epoch) {records : Array Record}
    (fit : RecordsFit chain.validators.size records) :
    chain.Finds allowed (RecordsFit chain.validators.size)
      (chain.enterAttestation records attestation) := by
  refine (Step.Sound.lift (fits.marks_found wellFormed)).bind fun marks _ => ?_
  obtain ⟨members, seats⟩ := fits.seats wellFormed
  have found : chain.Finds allowed (· = voters attestation.aggregationBits members) _ :=
    seats.attestingIndices.finds rfl
  refine found.bind ?_
  rintro _ rfl
  exact .lift (markVoters_found fit marks fits.proposer fun voter => seats.registered)

theorem countAttestations_finds (wellFormed : chain.WellFormed) {votes : PendingVotes}
    (previous : ∀ attestation ∈ votes.previous, attestation.Fits chain .previous)
    (current : ∀ attestation ∈ votes.current, attestation.Fits chain .current) {tally : Tally}
    (opened : tally.Opened chain) (fit : RecordsFit chain.validators.size tally.records) :
    chain.Finds allowed
      (fun tally => tally.Counted chain ∧ RecordsFit chain.validators.size tally.records)
      (chain.countAttestations votes tally) := by
  have entered : chain.Finds allowed (RecordsFit chain.validators.size)
      ((votes.previous ++ votes.current).foldlM chain.enterAttestation tally.records) := by
    refine Step.Sound.foldlM _ fit fun records attestation listed fit => ?_
    rcases List.mem_append.mp listed with listed | listed
    · exact enterAttestation_finds wellFormed (previous attestation listed) fit
    · exact enterAttestation_finds wellFormed (current attestation listed) fit
  refine entered.bind fun records fit => ?_
  rw [opened.totals]
  refine (Step.Sound.lift (countVotes_sound wellFormed.toBounded .phase0 fit.size)).bind ?_
  exact fun totals counted => .pure ⟨⟨fit.size, counted⟩, fit⟩

/-- Nobody has included anything when the books are opened. -/
theorem openPending_proposers :
    Step.Sound (fun _ => True) (fun _ => True)
      (fun tally => ∀ record ∈ tally.records, record.proposerIndex = 0) chain.openPending := by
  refine (Step.Sound.any _).bind fun following _ => ?_
  refine (Step.Sound.any _).bind fun totals _ => ?_
  refine (Step.Sound.any _).bind fun _ _ => .pure ?_
  intro record listed
  obtain ⟨validator, -, rfl⟩ := Array.mem_map.mp listed
  rfl

end Chain

/-! ## Deltas -/

theorem Config.proposerRewards_found {allowed : Error → Prop} (config : Config) (preset : Preset)
    {tally : Tally} {count : Nat} (fit : RecordsFit count tally.records) :
    Sound allowed (·.size = count) (config.proposerRewards preset tally) := by
  have start : (Array.replicate tally.records.size (0 : Gwei)).size = count :=
    Array.size_replicate.trans fit.size
  refine Sound.foldlM _ start fun rewards record listed size => ?_
  simp only [Config.creditProposer]
  rw [if_pos (size ▸ fit.proposers record listed)]
  split
  · exact Array.size_modify.trans size
  · exact size

namespace Chain

variable {preset : Preset} {chain : Chain preset} {allowed : Error → Prop}

theorem epochDeltas_found (config : Config) {tally : Tally} {count : Nat}
    (moderate : tally.totals.Moderate) (fit : RecordsFit count tally.records) :
    Sound allowed (·.size = count) (chain.epochDeltas config tally) := by
  refine (chain.pendingDeltas_sound config moderate).bind fun deltas size => ?_
  refine (config.proposerRewards_found preset fit).bind fun rewards size' => .pure ?_
  rw [Array.size_zipWith, size, size', fit.size, Nat.min_self]

end Chain

/-! ## Plans -/

/-- A plan for a registry: one record and one delta per validator, and one new score, if there are
new scores. -/
structure Plan.Fits (count : Nat) (plan : Plan) : Prop where
  records : plan.tally.records.size = count
  deltas : plan.deltas.size = count
  scores : ∀ scores ∈ plan.scores, scores.size = count

namespace Chain

variable {preset : Preset} {chain : Chain preset} {allowed : Error → Prop}

/-- **The plan of Phase 0 is found.** Attestations that fit have found voters and roots when they
were entered, and proposers that get their share. -/
theorem planPending_finds (wellFormed : chain.WellFormed) (config : Config) {votes : PendingVotes}
    (previous : ∀ attestation ∈ votes.previous, attestation.Fits chain .previous)
    (current : ∀ attestation ∈ votes.current, attestation.Fits chain .current) :
    chain.Finds allowed (Plan.Fits chain.validators.size)
      (chain.planPending config false votes) := by
  have goOn : chain.Finds allowed (fun _ => True) (liftM (checkCancelled false)) :=
    .lift trivial
  refine goOn.bind fun _ _ => ?_
  refine ((openPending_finds wellFormed.toBounded).and openPending_proposers).bind ?_
  rintro tally ⟨opened, fresh⟩
  refine goOn.bind fun _ _ => ?_
  have fit := RecordsFit.of_zero opened.size fresh
  refine (countAttestations_finds wellFormed previous current opened fit).bind ?_
  rintro tally ⟨counted, fit⟩
  refine goOn.bind fun _ _ => ?_
  have deltas : Sound allowed (·.size = tally.records.size) (chain.epochDeltas config tally) := by
    rw [fit.size]
    exact epochDeltas_found config counted.totals.moderate fit
  refine (Step.Sound.lift (dueDeltas_sound deltas Array.size_map)).bind fun deltas size => ?_
  exact goOn.bind fun _ _ => .pure ⟨fit.size, size.trans fit.size, nofun⟩

end Chain

/-! ### Flags -/

/-- One entry per validator in every list of votes. -/
structure FlagVotes.Fit (count : Nat) (votes : FlagVotes) : Prop where
  previous : votes.previous.size = count
  current : votes.current.size = count
  inactivityScores : votes.inactivityScores.size = count

theorem size_withScores {records : Array Record} {scores : Option (Array InactivityScore)}
    {count : Nat} (size : records.size = count) (sizes : ∀ new ∈ scores, new.size = count) :
    (withScores records scores).size = count := by
  cases scores with
  | none => exact size
  | some new =>
    simp only [withScores]
    rw [Array.size_zipWith, size, sizes new rfl, Nat.min_self]

namespace Chain

variable {preset : Preset} {chain : Chain preset}

/-- New scores are found unless one has outgrown its word. -/
theorem nextScores_found (chain : Chain preset) (config : Config)
    {scores : Array InactivityScore} {records : Array Record}
    (sizes : records.size = scores.size) :
    Sound Error.IsOutgrown (fun found => ∀ new ∈ found, new.size = records.size)
      (chain.nextScores config scores records) := by
  unfold nextScores
  rw [if_pos sizes]
  split
  · exact nofun
  split
  · exact .inr ⟨_, rfl⟩
  · rintro _ ⟨⟩
    rw [Array.size_zipWith, ← sizes, Nat.min_self]

/-- The records of an epoch show the scores that it starts from. -/
theorem openFlags_scores (scores : Array InactivityScore) :
    Step.Sound (fun _ => True) (fun _ => True)
      (fun tally => ∀ record ∈ tally.records, record.inactivityScore ∈ scores)
      (chain.openFlags scores) := by
  unfold openFlags
  split
  · refine (Step.Sound.any _).bind fun totals _ => (Step.Sound.any _).bind fun _ _ => .pure ?_
    intro record listed
    obtain ⟨index, inside, rfl⟩ := Array.getElem_of_mem listed
    rw [Array.getElem_zipWith]
    exact Array.getElem_mem _
  · exact .throw trivial

end Chain

theorem countFlags_scores (preset : Preset) (phase : Phase) (votes : FlagVotes) {tally : Tally}
    {scores : Array InactivityScore}
    (shown : ∀ record ∈ tally.records, record.inactivityScore ∈ scores) :
    Sound (fun _ => True) (fun tally => ∀ record ∈ tally.records, record.inactivityScore ∈ scores)
      (countFlags preset phase votes tally) := by
  simp only [countFlags]
  split
  · refine (Sound.any _).bind fun totals _ => .pure fun record listed => ?_
    obtain ⟨index, inside, rfl⟩ := Array.getElem_of_mem listed
    have small : index < tally.records.size := by
      rw [Array.size_zipWith] at inside
      omega
    have kept := shown _ (Array.getElem_mem small)
    rwa [Array.getElem_zipWith]
  · trivial

namespace Chain

variable {preset : Preset} {chain : Chain preset}

/-- The plan of Altair and later is found whenever new scores are. -/
theorem planFlags_finds_of_scores {allowed : Error → Prop}
    {post : Option (Array InactivityScore) → Prop} (bounded : chain.Bounded) (config : Config)
    (phase : Phase) {votes : FlagVotes} (fit : votes.Fit chain.validators.size)
    (scored : ∀ records : Array Record, records.size = votes.inactivityScores.size →
      (∀ record ∈ records, record.inactivityScore ∈ votes.inactivityScores) →
        Sound allowed (fun found => (∀ new ∈ found, new.size = records.size) ∧ post found)
          (chain.nextScores config votes.inactivityScores records)) :
    chain.Finds allowed (fun plan => plan.Fits chain.validators.size ∧ post plan.scores)
      (chain.planFlags config phase false votes) := by
  have goOn : chain.Finds allowed (fun _ => True) (liftM (checkCancelled false)) :=
    .lift trivial
  refine goOn.bind fun _ _ => ?_
  refine ((openFlags_finds bounded fit.inactivityScores.symm).and (openFlags_scores _)).bind ?_
  rintro tally ⟨opened, shown⟩
  refine goOn.bind fun _ _ => ?_
  have sizes : votes.previous.size = tally.records.size ∧
      votes.current.size = tally.records.size := by
    rw [opened.size]
    exact ⟨fit.previous, fit.current⟩
  refine ((Step.Sound.lift (countFlags_found bounded phase opened sizes)).and
    (.lift (countFlags_scores preset phase votes shown))).bind ?_
  rintro tally ⟨counted, shown⟩
  refine goOn.bind fun _ _ => ?_
  have scored := scored tally.records (counted.size.trans fit.inactivityScores.symm) shown
  refine (Step.Sound.lift scored).bind fun scores ⟨sizes, met⟩ => ?_
  rw [counted.size] at sizes
  have size := size_withScores counted.size sizes
  refine (Step.Sound.lift (dueDeltas_sound (flagDeltas_sound config phase ?_) ?_)).bind ?_
  · exact counted.totals.moderate
  · exact Array.size_map
  · exact fun deltas size' => .pure ⟨⟨size, size'.trans size, sizes⟩, met⟩

/-- **The plan of Altair and later is found** unless an inactivity score has outgrown its word. -/
theorem planFlags_finds (bounded : chain.Bounded) (config : Config) (phase : Phase)
    {votes : FlagVotes} (fit : votes.Fit chain.validators.size) :
    chain.Finds Error.IsOutgrown (Plan.Fits chain.validators.size)
      (chain.planFlags config phase false votes) := by
  have scored (records : Array Record) (sizes : records.size = votes.inactivityScores.size) :
      Sound Error.IsOutgrown (fun found => (∀ new ∈ found, new.size = records.size) ∧ True)
        (chain.nextScores config votes.inactivityScores records) :=
    (chain.nextScores_found config sizes).mono fun _ met => ⟨met, trivial⟩
  exact (planFlags_finds_of_scores bounded config phase fit fun records sizes _ =>
    scored records sizes).mono fun _ => And.left

end Chain

/-! ## Votes that become flags -/

theorem addFlags_found {allowed : Error → Prop} (earned : ParticipationFlags)
    {flags : Array ParticipationFlags} {count : Nat} (size : flags.size = count)
    {voters : List ValidatorIndex} (registered : ∀ voter ∈ voters, voter < count) :
    Sound allowed (·.size = count) (addFlags earned flags voters) := by
  refine Sound.foldlM_list _ size fun flags voter listed size => ?_
  rw [if_pos (size ▸ registered voter listed)]
  exact Array.size_modify.trans size

section Credit

variable {preset : Preset} {chain : Chain preset} {attestation : PendingAttestation}
  {epoch : AttestationEpoch} {allowed : Error → Prop}

/-- An upgrade finds out by itself which of the two epochs an attestation is for. In the first
epoch, which is its own predecessor, it may find the other one. -/
theorem PendingAttestation.Fits.attestationEpoch_found (wellFormed : chain.WellFormed)
    (fits : attestation.Fits chain epoch) :
    Sound allowed (attestation.Fits chain)
      (chain.attestationEpoch attestation.data.target.epoch) := by
  obtain ⟨before, near⟩ := epoch_bounds chain epoch
  rw [← fits.target] at before near
  have reached : attestation.data.target.epoch ≤ chain.currentEpoch :=
    UInt64.le_iff_toNat_le.mpr before
  have distance := UInt64.toNat_sub_of_le _ _ reached
  simp only [Chain.attestationEpoch]
  rw [if_neg (UInt64.not_lt.mpr reached)]
  split
  · rename_i zero
    refine fits.of_target wellFormed (UInt64.toNat_inj.mp ?_)
    rw [zero, UInt64.toNat_zero] at distance
    simp only [AttestationEpoch.toRelative, Chain.epochOf]
    omega
  split
  · rename_i one
    refine fits.of_target wellFormed (UInt64.toNat_inj.mp ?_)
    rw [one, UInt64.toNat_one] at distance
    simp only [AttestationEpoch.toRelative, Chain.epochOf]
    rw [Chain.toNat_previousEpoch]
    omega
  · rename_i zero one
    rw [← UInt64.toNat_inj, UInt64.toNat_zero] at zero
    rw [← UInt64.toNat_inj, UInt64.toNat_one] at one
    omega

theorem PendingAttestation.Fits.participationFlags_found (wellFormed : chain.WellFormed)
    (fits : attestation.Fits chain epoch) (inclusionDelay : UInt64) :
    Sound allowed (fun _ => True) (chain.participationFlags attestation.data inclusionDelay) := by
  refine (fits.attestationEpoch_found wellFormed).bind fun epoch fits => ?_
  refine (fits.isBlockRoot_found wellFormed _).bind fun target _ => ?_
  refine (Chain.checkIf_sound fun _ => fits.isBlockRootAtSlot_found wellFormed _).bind ?_
  exact fun head _ => .pure trivial

/-- Attestations are credited if there is a bit for each member of their committees, and if the
flags are found that they earn. -/
theorem Chain.creditAttestations_finds_of {attestations : List PendingAttestation}
    (seats : ∀ attestation ∈ attestations, ∃ members, chain.Seats attestation members)
    (earned : ∀ attestation ∈ attestations, Sound allowed (fun _ => True)
      (chain.participationFlags attestation.data attestation.inclusionDelay)) :
    chain.Finds allowed (·.size = chain.validators.size)
      (chain.creditAttestations attestations) := by
  refine Step.Sound.foldlM _ Array.size_replicate fun flags attestation listed size => ?_
  obtain ⟨members, seats⟩ := seats attestation listed
  have found : chain.Finds allowed (· = voters attestation.aggregationBits members) _ :=
    seats.attestingIndices.finds rfl
  refine found.bind ?_
  rintro _ rfl
  refine (Step.Sound.lift (earned attestation listed)).bind fun flag _ => ?_
  exact .lift (addFlags_found flag size fun voter => seats.registered)

theorem Chain.creditAttestations_finds (wellFormed : chain.WellFormed)
    {attestations : List PendingAttestation}
    (fit : ∀ attestation ∈ attestations, attestation.Fits chain epoch) :
    chain.Finds allowed (·.size = chain.validators.size)
      (chain.creditAttestations attestations) := by
  refine creditAttestations_finds_of ?_ ?_
  · intro attestation listed
    exact (fit attestation listed).seats wellFormed
  · intro attestation listed
    exact (fit attestation listed).participationFlags_found wellFormed _

end Credit

end BeaconEpoch
