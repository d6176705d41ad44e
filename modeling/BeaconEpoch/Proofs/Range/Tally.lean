import BeaconEpoch.Inactivity
import BeaconEpoch.Proofs.Range.Lookup

/-!
# Ranges of tallies

Votes are counted into one record per validator and into bounded totals, whatever the votes say.

## Main definitions

* `Tally.Opened`, `Tally.Counted`: the tallies of a chain before and after its votes are counted.

## Main statements

* `Chain.openPending_finds`, `Chain.openFlags_finds`: the books are opened.
* `Chain.countAttestations_asks`, `Chain.countFlags_sound`: votes are counted.
* `Chain.creditAttestations_asks`: votes become flags.
-/

namespace BeaconEpoch

/-- One record per validator, and the active stake of the chain. -/
structure Tally.Opened {preset : Preset} (chain : Chain preset) (tally : Tally) : Prop where
  size : tally.records.size = chain.validators.size
  totals : tally.totals = chain.activeTotals

/-- One record per validator, and totals that are bounded. -/
structure Tally.Counted {preset : Preset} (chain : Chain preset) (tally : Tally) : Prop where
  size : tally.records.size = chain.validators.size
  totals : tally.totals.Bounded preset

namespace Chain

variable {preset : Preset} {chain : Chain preset}

/-! ## Opening -/

section Opening

variable {allowed : Error → Prop}

/-- Few validators have an active stake that fits, and caching it is refused for no other reason. -/
theorem cacheActiveTotals_finds (bounded : chain.Bounded) :
    chain.Finds allowed (fun _ => True)
      (chain.cacheTotalActive chain.activeTotals.activeCurrent) :=
  (cacheActiveTotals_answers (activeTotals_fit bounded.few)).finds trivial

/-- The books of a Phase 0 epoch are opened without fail: the epoch before the current one lies at
most halfway up the range of epochs, so the one after it exists. -/
theorem openPending_finds (bounded : chain.Bounded) :
    chain.Finds allowed (Tally.Opened chain) chain.openPending := by
  have early : chain.previousEpoch.toNat ≤ 2 ^ 63 := toNat_epochOf_le .previous
  refine (Step.Sound.lift (Word.checked_sound (by omega))).bind ?_
  intro following _
  rw [activeTotals_fit bounded.few]
  refine (cacheActiveTotals_finds bounded).bind fun _ _ => .pure ⟨?_, rfl⟩
  exact Array.size_map

/-- Books with flags are opened without fail when there is a score for each validator. -/
theorem openFlags_finds (bounded : chain.Bounded) {scores : Array InactivityScore}
    (sizes : chain.validators.size = scores.size) :
    chain.Finds allowed (Tally.Opened chain) (chain.openFlags scores) := by
  unfold openFlags
  rw [if_pos sizes, activeTotals_fit bounded.few]
  refine (cacheActiveTotals_finds bounded).bind fun _ _ => .pure ⟨?_, rfl⟩
  show (Array.zipWith ..).size = _
  rw [Array.size_zipWith, ← sizes, Nat.min_self]

end Opening

/-- Books with another number of scores are refused, and this is the input's fault. -/
theorem openFlags_asks (bounded : chain.Bounded) (scores : Array InactivityScore) :
    chain.Asks (Tally.Opened chain) (chain.openFlags scores) := by
  by_cases sizes : chain.validators.size = scores.size
  · exact openFlags_finds bounded sizes
  · unfold openFlags
    rw [if_neg sizes]
    exact .throw nofun

/-! ## Attestations -/

/-- What an attestation is worth depends on block roots, and what can go wrong in looking those up
is up to the input. -/
theorem marks_sound (attestation : PendingAttestation) :
    Sound Error.AccusesInput (fun _ => True) (chain.marks attestation) := by
  simp only [marks]
  split
  · exact nofun
  · refine (checkIf_sound fun _ => isBlockRoot_sound _ _).bind fun currentTarget _ => ?_
    refine (checkIf_sound fun _ => isBlockRoot_sound _ _).bind ?_
    intro previousTarget _
    refine (checkIf_sound fun _ => isBlockRootAtSlot_sound _ _).bind ?_
    exact fun previousHead _ => .pure trivial

end Chain

/-- Marking voters adds no record. A voter without one is an error of the input. -/
theorem markVoters_sound (marks : Marks) (attestation : PendingAttestation) {count : Nat}
    {records : Array Record} (size : records.size = count) (voters : List ValidatorIndex) :
    Sound Error.AccusesInput (·.size = count) (markVoters marks attestation records voters) := by
  refine Sound.foldlM_list _ size fun records voter _ size => ?_
  unfold markVoter
  split
  · exact Array.size_modify.trans size
  · exact nofun

namespace Chain

variable {preset : Preset} {chain : Chain preset}

/-- Attestations are entered one by one, each of them keeping one record per validator, and the
totals are taken at the end; these are bounded whoever has voted. -/
theorem countAttestations_asks (bounded : chain.Bounded) (votes : PendingVotes) {tally : Tally}
    (opened : tally.Opened chain) :
    chain.Asks (Tally.Counted chain) (chain.countAttestations votes tally) := by
  have entered : chain.Asks (fun records => records.size = chain.validators.size)
      ((votes.previous ++ votes.current).foldlM chain.enterAttestation tally.records) := by
    refine Step.Sound.foldlM _ opened.size fun records attestation _ size => ?_
    refine (Step.Sound.lift (marks_sound attestation)).bind ?_
    intro marks _
    refine (attestingIndices_asks bounded _ _).bind ?_
    intro voters _
    exact .lift (markVoters_sound marks attestation size voters)
  refine entered.bind ?_
  intro records size
  rw [opened.totals]
  refine (Step.Sound.lift (countVotes_sound bounded .phase0 size)).bind ?_
  intro totals counted
  exact .pure ⟨size, counted⟩

/-! ## Flags -/

/-- Flags for every validator are counted without fail. -/
theorem countFlags_found {allowed : Error → Prop} (bounded : chain.Bounded) (phase : Phase)
    {votes : FlagVotes} {tally : Tally} (opened : tally.Opened chain)
    (sizes : votes.previous.size = tally.records.size ∧
      votes.current.size = tally.records.size) :
    Sound allowed (Tally.Counted chain) (countFlags preset phase votes tally) := by
  have size (read : Record → ParticipationFlags × ParticipationFlags → Record) :
      (tally.records.zipWith read (votes.previous.zip votes.current)).size =
        chain.validators.size := by
    rw [Array.size_zipWith, Array.size_zip, sizes.1, sizes.2, Nat.min_self, Nat.min_self,
      opened.size]
  simp only [countFlags]
  rw [if_pos sizes, opened.totals]
  exact (countVotes_sound bounded phase (size _)).bind
    fun totals counted => .pure ⟨size _, counted⟩

/-- Whatever flags there are, counting them goes wrong at most through their number. -/
theorem countFlags_sound (bounded : chain.Bounded) (phase : Phase) (votes : FlagVotes)
    {tally : Tally} (opened : tally.Opened chain) :
    Sound Error.AccusesInput (Tally.Counted chain) (countFlags preset phase votes tally) := by
  by_cases sizes : votes.previous.size = tally.records.size ∧
      votes.current.size = tally.records.size
  · exact countFlags_found bounded phase opened sizes
  · simp only [countFlags]
    rw [if_neg sizes]
    exact nofun

/-- Scores are raised by a bias that the configuration gives, so a score that leaves its range is
the input's fault. -/
theorem nextScores_sound (config : Config) (scores : Array InactivityScore)
    (records : Array Record) :
    Sound Error.AccusesInput (fun _ => True) (chain.nextScores config scores records) := by
  unfold nextScores
  split
  · trivial
  · split
    · split
      · exact nofun
      · trivial
    · exact nofun

/-! ## Votes that become flags -/

/-- Flags that are earned rest on the same lookups of block roots. -/
theorem participationFlags_sound (data : AttestationData) (inclusionDelay : UInt64) :
    Sound Error.AccusesInput (fun _ => True) (chain.participationFlags data inclusionDelay) := by
  refine (attestationEpoch_sound _).bind ?_
  intro epoch _
  refine (isBlockRoot_sound _ _).bind ?_
  intro target _
  exact (checkIf_sound fun _ => isBlockRootAtSlot_sound _ _).bind fun head _ => .pure trivial

/-- A voter beyond the flags is an error of the input. -/
theorem addFlags_sound (earned : ParticipationFlags) (flags : Array ParticipationFlags)
    (voters : List ValidatorIndex) :
    Sound Error.AccusesInput (fun _ => True) (addFlags earned flags voters) := by
  refine Sound.foldlM_list _ trivial fun flags voter _ _ => ?_
  split
  · trivial
  · exact nofun

/-- Votes become flags one attestation at a time, and each turn can only fail through the
attestation. -/
theorem creditAttestations_asks (bounded : chain.Bounded)
    (attestations : List PendingAttestation) :
    chain.Asks (fun _ => True) (chain.creditAttestations attestations) := by
  refine Step.Sound.foldlM _ trivial fun flags attestation _ _ => ?_
  refine (attestingIndices_asks bounded _ _).bind ?_
  intro voters _
  refine (Step.Sound.lift (participationFlags_sound _ _)).bind ?_
  intro earned _
  exact .lift (addFlags_sound earned flags voters)

end Chain

end BeaconEpoch
