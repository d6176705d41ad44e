import BeaconEpoch.Proofs.Accounting.Stake
import BeaconEpoch.Proofs.Step
import BeaconEpoch.Tally.Basic

/-!
# Opened books

The books of an epoch are opened in two ways: for votes that are kept as attestations, and for votes
that are kept as flags. Both go once over the registry and find the same, except for scores, and in
the first epoch for those who may withdraw.

## Main definitions

* `Chain.openWith`: books that are opened with some records.
* `Chain.OpenedAlike`: how the records of the two compare.
* `Cache.knowing`: the cache that knows the active stake of the current epoch, and nothing else.

## Main statements

* `Chain.openPending_eq`, `Chain.openFlags_eq`: both ways open books with records of the registry.
* `Chain.openWith_empty`, `Chain.lookupTotalActive_empty`: what a cache comes to know.
* `Chain.openedAlike`: the records of the two.
* `Chain.openings_agree`: all of it.

## Design notes

* **The first epoch is its own predecessor.** So the epoch after the previous one is the current one
  everywhere but there, and a validator may withdraw in either way at the same time.
-/

namespace BeaconEpoch

/-- The cache that knows the active stake of the current epoch, and nothing else. -/
def Cache.knowing (total : GweiSum) : Cache :=
  { Cache.empty with totalActive := { Cache.empty.totalActive with current := some total } }

/-- A record with another inactivity score. -/
def Record.scored (record : Record) (score : InactivityScore) : Record :=
  { record with inactivityScore := score }

/-- Totals without votes are the active stake of both epochs. -/
theorem Totals.eq_of_attested_eq_zero {totals : Totals}
    (blank : ∀ category, totals.attested category = 0) :
    totals = { activeCurrent := totals.active .current, activePrevious := totals.active .previous }
    := by
  obtain ⟨⟩ := totals
  have zero := And.intro (blank .currentEpoch) (blank .currentEpochTarget)
  have zero' := And.intro (blank .previousEpoch)
    (And.intro (blank .previousEpochTarget) (blank .previousEpochHead))
  simp only [attested] at zero zero'
  simp [active, zero, zero']

namespace Chain

variable {preset : Preset} (chain : Chain preset)

/-- Books that are opened with some records: active stake is added up and made known. -/
def openWith (records : Array Record) : Lookup Tally := do
  let totals ← chain.activeTotals.checked
  chain.cacheTotalActive totals.activeCurrent
  return { records, totals }

/-- The epoch after the previous one. -/
def followingEpoch : Epoch :=
  Word.exact (chain.previousEpoch.toNat + 1) (by
    have previous := chain.toNat_previousEpoch
    have current := chain.toNat_currentEpoch_lt
    omega)

/-! ## Both ways -/

theorem openPending_eq :
    chain.openPending = chain.openWith (Array.ofFn (chain.blankRecord chain.followingEpoch 0)) := by
  have following : Word.checked (chain.previousEpoch.toNat + 1) = .ok chain.followingEpoch :=
    Word.checked_eq_ok_iff.mpr (Word.toNat_exact _).symm
  simp only [openPending]
  rw [following]
  exact congrArg chain.openWith (map_eq_ofFn ..)

theorem openFlags_eq {scores : Array InactivityScore}
    (sizes : chain.validators.size = scores.size) :
    chain.openFlags scores = chain.openWith (Array.ofFn fun validator : chain.Member =>
      chain.blankRecord chain.currentEpoch (scores.getD validator 0) validator) := by
  unfold openFlags
  rw [if_pos sizes]
  have records : chain.validators.zipWith (fun validator score =>
      Record.ofValidator chain.previousEpoch chain.currentEpoch
        (validator.withdrawableEpoch ≤ chain.currentEpoch) score validator) scores =
      Array.ofFn fun validator : chain.Member =>
        chain.blankRecord chain.currentEpoch (scores.getD validator 0) validator := by
    refine Array.ext (by simp [sizes]) fun index inside inside' => ?_
    rw [Array.size_ofFn, sizes] at inside'
    simp [blankRecord, inside']
  simp only [records]
  rfl

/-! ## What is added up -/

/-- The active stake of both epochs is added up, and nothing else. -/
theorem activeTotals_eq : chain.activeTotals =
    { activeCurrent := ∑ validator ∈ chain.activeIn chain.currentEpoch, chain.stakeOf validator
      activePrevious :=
        ∑ validator ∈ chain.activeIn chain.previousEpoch, chain.stakeOf validator } := by
  have active (epoch : AttestationEpoch) := (chain.active_activeTotals epoch).trans
    (chain.foldl_active_eq_sum _)
  rw [Totals.eq_of_attested_eq_zero chain.attested_activeTotals, active .current,
    active .previous]
  rfl

/-! ## What becomes known -/

/-- Books that are opened from an empty cache make the active stake known, unless it is no sum. -/
theorem openWith_empty (records : Array Record) :
    chain.openWith records Cache.empty =
      if chain.activeTotals.fits then
        .ok { records, totals := chain.activeTotals }
          (Cache.knowing (chain.totalActive chain.currentEpoch))
      else .error .arithmeticOverflow Cache.empty := by
  unfold openWith Totals.checked
  rw [totalActive_currentEpoch]
  split <;> rfl

/-- The scan of a lookup finds what becomes known when books are opened. -/
theorem lookupTotalActive_empty (fits : chain.activeTotals.fits = true) :
    chain.lookupTotalActive Cache.empty =
      .ok (chain.totalActive chain.currentEpoch)
        (Cache.knowing (chain.totalActive chain.currentEpoch)) := by
  have small : chain.totalActive chain.currentEpoch < GweiSum.bound := by
    simp only [Totals.fits, Bool.and_eq_true, decide_eq_true_eq] at fits
    rw [totalActive_currentEpoch]
    exact Nat.max_lt.mpr ⟨by cases preset <;> decide, fits.1.1⟩
  have found : GweiSum.checked (chain.totalActive chain.currentEpoch) =
      .ok (chain.totalActive chain.currentEpoch) := GweiSum.checked_eq_ok_iff.mpr ⟨small, rfl⟩
  show (liftM (GweiSum.checked (chain.totalActive chain.currentEpoch)) >>= _ : Lookup GweiSum)
    Cache.empty = _
  rw [found]
  rfl

/-! ## Records -/

/-- How the records of both ways compare. Past the first epoch they differ in scores only. In the
first epoch they differ besides in whether the validators may withdraw that may do so in the
second. -/
structure OpenedAlike (scores : Array InactivityScore) (pending flagged : Array Record) : Prop where
  size_pending : pending.size = chain.validators.size
  size_flagged : flagged.size = chain.validators.size
  pastGenesis : chain.currentEpoch ≠ genesisEpoch →
    flagged = pending.zipWith Record.scored scores
  atGenesis : chain.currentEpoch = genesisEpoch → ∀ validator : chain.Member,
    ∃ record record', pending[validator]? = some record ∧ flagged[validator]? = some record' ∧
      record' = { record.scored (scores.getD validator 0) with
        withdrawable := record'.withdrawable } ∧
      (record'.withdrawable ≠ record.withdrawable ↔
        chain.validators[validator].withdrawableEpoch = 1)

theorem toNat_followingEpoch :
    chain.followingEpoch.toNat = chain.currentEpoch.toNat - 1 + 1 := by
  rw [followingEpoch, Word.toNat_exact, toNat_previousEpoch]

theorem openedAlike {scores : Array InactivityScore}
    (sizes : chain.validators.size = scores.size) :
    chain.OpenedAlike scores (Array.ofFn (chain.blankRecord chain.followingEpoch 0))
      (Array.ofFn fun validator : chain.Member =>
        chain.blankRecord chain.currentEpoch (scores.getD validator 0) validator) where
  size_pending := Array.size_ofFn
  size_flagged := Array.size_ofFn
  pastGenesis past := by
    have same : chain.followingEpoch = chain.currentEpoch := by
      rw [ne_eq, ← UInt64.toNat_inj, genesisEpoch, UInt64.toNat_zero] at past
      rw [← UInt64.toNat_inj, toNat_followingEpoch]
      omega
    rw [same]
    exact ((congrArg (Array.zipWith Record.scored _) (eq_ofFn_getD sizes.symm 0)).trans
      (zipWith_ofFn _ (chain.blankRecord chain.currentEpoch 0) _)).symm
  atGenesis genesis validator := by
    have second : chain.followingEpoch = 1 := by
      rw [← UInt64.toNat_inj, toNat_followingEpoch, genesis]
      rfl
    refine ⟨chain.blankRecord 1 0 validator,
      chain.blankRecord genesisEpoch (scores.getD validator 0) validator, ?_, ?_, rfl, ?_⟩
    · simp [second]
    · simp [genesis]
    simp only [blankRecord, Record.ofValidator, ne_eq, decide_eq_decide, UInt64.le_iff_toNat_le,
      ← UInt64.toNat_inj, genesisEpoch, UInt64.toNat_zero, UInt64.toNat_one]
    omega

/-- **Books are opened alike.** From an empty cache and with one inactivity score per validator,
the books that are opened for flags have the records of those that are opened for attestations, with
the scores entered; only in the first epoch they differ besides, for the validators that may
withdraw in the second. Both have the active stake of both epochs as their totals and no votes, and
leave the cache that knows the active stake of the current epoch, as a lookup would find and leave
it. Books are opened unless their sums are too large, which takes more validators than a word can
number; then both ways fail alike. -/
theorem openings_agree (chain : Chain preset) {scores : Array InactivityScore}
    (sizes : chain.validators.size = scores.size) :
    (∀ pending after, chain.openPending Cache.empty = .ok pending after →
      ∃ flagged total,
        chain.openFlags scores Cache.empty = .ok flagged after ∧
        chain.OpenedAlike scores pending.records flagged.records ∧
        flagged.totals = pending.totals ∧
        pending.totals =
          { activeCurrent :=
              ∑ validator ∈ chain.activeIn chain.currentEpoch, chain.stakeOf validator
            activePrevious :=
              ∑ validator ∈ chain.activeIn chain.previousEpoch, chain.stakeOf validator } ∧
        after = Cache.knowing total ∧
        chain.lookupTotalActive Cache.empty = .ok total after) ∧
    (∀ e after, chain.openPending Cache.empty = .error e after →
      chain.openFlags scores Cache.empty = .error e after) ∧
    (chain.validators.size < 2 ^ 64 →
      ∃ pending after, chain.openPending Cache.empty = .ok pending after) := by
  rw [openPending_eq, openFlags_eq chain sizes, openWith_empty, openWith_empty]
  by_cases fits : chain.activeTotals.fits = true
  · rw [if_pos fits, if_pos fits]
    refine ⟨?_, ?_, fun _ => ⟨_, _, rfl⟩⟩
    · rintro _ _ ⟨⟩
      exact ⟨_, _, rfl, chain.openedAlike sizes, rfl, chain.activeTotals_eq, rfl,
        chain.lookupTotalActive_empty fits⟩
    · rintro _ _ ⟨⟩
  · rw [if_neg fits, if_neg fits]
    refine ⟨?_, fun _ _ failed => failed, fun few => absurd ?_ fits⟩
    · rintro _ _ ⟨⟩
    have checked := activeTotals_fit few
    by_contra large
    rw [Totals.checked, if_neg large] at checked
    cases checked

/-- A chain at some slot with a validator that may withdraw in the second epoch and one that may
not. -/
def earlyLeaver (slot : Slot) : Chain .minimal :=
  { empty .minimal with
    slot
    validators := #[⟨32000000000, false, 0, 0, 1, 1⟩,
      ⟨17000000000, false, 0, 0, farFutureEpoch, farFutureEpoch⟩] }

/-- In the first epoch the records of the first validator differ, in the second none do. -/
theorem openings_agree_earlyLeaver :
    (earlyLeaver 0).validators.size = #[3, 4].size ∧
      (∃ pending flagged after record record',
        (earlyLeaver 0).openPending Cache.empty = .ok pending after ∧
        (earlyLeaver 0).openFlags #[3, 4] Cache.empty = .ok flagged after ∧
        flagged.totals = pending.totals ∧
        pending.records[0]? = some record ∧ flagged.records[0]? = some record' ∧
        record'.withdrawable ≠ record.withdrawable) ∧
      (∃ pending flagged after,
        (earlyLeaver 8).openPending Cache.empty = .ok pending after ∧
        (earlyLeaver 8).openFlags #[3, 4] Cache.empty = .ok flagged after ∧
        flagged.records = pending.records.zipWith Record.scored #[3, 4]) := by
  refine ⟨by decide, ?first, ?second⟩
  case first =>
    have sizes : (earlyLeaver 0).validators.size = (#[3, 4] : Array InactivityScore).size := by
      decide
    obtain ⟨agree, -, found⟩ := openings_agree (earlyLeaver 0) sizes
    obtain ⟨pending, after, opened⟩ := found (by decide)
    obtain ⟨flagged, total, opened', alike, totals, -⟩ := agree pending after opened
    obtain ⟨record, record', own, own', -, differ⟩ :=
      alike.atGenesis (by decide) ⟨0, by decide⟩
    exact ⟨pending, flagged, after, record, record', opened, opened', totals, own, own',
      differ.mpr rfl⟩
  case second =>
    have sizes : (earlyLeaver 8).validators.size = (#[3, 4] : Array InactivityScore).size := by
      decide
    obtain ⟨agree, -, found⟩ := openings_agree (earlyLeaver 8) sizes
    obtain ⟨pending, after, opened⟩ := found (by decide)
    obtain ⟨flagged, total, opened', alike, -⟩ := agree pending after opened
    exact ⟨pending, flagged, after, opened, opened', alike.pastGenesis (by decide)⟩

end Chain

end BeaconEpoch
