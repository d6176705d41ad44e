import BeaconEpoch.Proofs.Comparison.Votes
import BeaconEpoch.Proofs.Reward.Issuance

/-!
# Merit in Phase 0

A record with more votes, or with the same votes included earlier, earns no less and loses no more,
and neither does anybody else whose vote it adds stake to.

## Main definitions

* `Record.Outdoes`: a record with more votes, and with no later an inclusion.

## Main statements

* `Record.Outdoes.pendingVotes`: the votes that count for one record count for the other.
* `Chain.pendingReward_le_of_outdoes`, `Chain.pendingPenalty_le_of_outdoes`: what two records earn
  and lose.
* `Chain.merit_pays`: all records.

## Design notes

* **Amounts are compared before they are cut off.** Both deltas are cut off at the end of a word, so
  that what holds of the numbers holds of the words.
* **One formula takes the place of another in a leak.** The share of stake does not matter then, and
  what a missing target costs comes on top of a penalty that nobody escapes.
-/

namespace BeaconEpoch

/-! ## Better records -/

/-- The second record has at least the votes of the first one, and if another delay was noted then
it is one that is not longer. No delay at all is not a short one. -/
structure Record.Outdoes (better record : Record) : Prop extends better.KeenerThan record where
  distance : better.inclusionDistance = record.inclusionDistance ∨
    better.inclusionDistance ≠ 0 ∧ better.inclusionDistance ≤ record.inclusionDistance

/-- More votes for the previous epoch, and a shorter delay, make a record that outdoes another. -/
theorem Record.outdoes_with (record : Record) (attester target head : Bool) {distance : Slot}
    (earlier : distance = record.inclusionDistance ∨
      distance ≠ 0 ∧ distance ≤ record.inclusionDistance) :
    Record.Outdoes { record with
      previousAttester := record.previousAttester || attester
      previousTargetAttester := record.previousTargetAttester || target
      previousHeadAttester := record.previousHeadAttester || head
      inclusionDistance := distance } record := by
  refine ⟨⟨rfl, rfl, rfl, rfl, ?_, UInt64.le_refl _⟩, earlier⟩
  intro phase category voted
  cases category <;> cases phase <;> simp_all [Record.attested]

/-- Everything in a list is related to something in a list that is related to it. -/
theorem exists_related {α β : Type} {related : α → β → Prop} {list : List α} {other : List β}
    (each : List.Forall₂ related list other) {a : α} (listed : a ∈ list) :
    ∃ b, related a b ∧ b ∈ other := by
  induction each with
  | nil => cases listed
  | cons first _ rest =>
    rcases List.mem_cons.mp listed with rfl | later
    · exact ⟨_, first, List.mem_cons_self⟩
    · obtain ⟨b, found, listed'⟩ := rest later
      exact ⟨b, found, List.mem_cons_of_mem _ listed'⟩

namespace Record.Outdoes

variable {record better : Record} {totals more : Totals}

/-- A vote that counts for a record counts for one that outdoes it, with no less stake behind it. -/
theorem pendingVotes (outdoes : better.Outdoes record) (stake : totals.MoreVotes more) :
    List.Forall₂ (fun vote vote' => (vote.1 = true → vote'.1 = true) ∧ vote.2 ≤ vote'.2)
      (record.pendingVotes totals) (better.pendingVotes more) := by
  have counts (category : Category) :
      (record.attested .phase0 category && !record.slashed) = true →
        (better.attested .phase0 category && !better.slashed) = true := by
    intro voted
    rw [outdoes.slashed]
    rw [Bool.and_eq_true] at voted ⊢
    exact ⟨outdoes.attested .phase0 category voted.1, voted.2⟩
  exact .cons ⟨counts .previousEpoch, stake.attested .previousEpoch⟩
    (.cons ⟨counts .previousEpochTarget, stake.attested .previousEpochTarget⟩
      (.cons ⟨counts .previousEpochHead, stake.attested .previousEpochHead⟩ .nil))

end Record.Outdoes

/-! ## Amounts -/

namespace Chain

variable {preset : Preset} {chain : Chain preset} {config : Config} {totals more : Totals}
  {record better : Record} {baseReward : Gwei}

theorem voteAmount_mono {attested attested' : GweiSum}
    (active : more.activeCurrent = totals.activeCurrent) (stake : attested ≤ attested') :
    chain.voteAmount totals baseReward attested ≤ chain.voteAmount more baseReward attested' := by
  unfold voteAmount
  rw [active]
  split
  · exact Nat.le_refl _
  · exact Nat.div_le_div_right (Nat.mul_le_mul_left _ (Nat.div_le_div_right stake))

/-- A vote that is included earlier earns no less, and one that is added earns something. -/
theorem inclusionAmount_le_of_outdoes (outdoes : better.Outdoes record) :
    chain.inclusionAmount baseReward record ≤ chain.inclusionAmount baseReward better := by
  unfold inclusionAmount
  rw [outdoes.slashed]
  cases voted : record.previousAttester && !record.slashed with
  | false => exact Nat.zero_le _
  | true =>
    rw [Bool.and_eq_true] at voted
    have voted' : better.previousAttester = true :=
      outdoes.attested .phase0 .previousEpoch voted.1
    rw [voted', voted.2]
    simp only [Bool.and_self, if_true]
    obtain same | ⟨included, earlier⟩ := outdoes.distance
    · rw [same]
    · refine Nat.div_le_div_left (UInt64.le_iff_toNat_le.mp earlier) ?_
      exact Nat.pos_of_ne_zero fun zero => included (UInt64.toNat_inj.mp zero)

/-- Who misses the target with more votes misses it with fewer. -/
theorem leakAmount_le_of_outdoes (outdoes : better.Outdoes record) :
    chain.leakAmount baseReward better ≤ chain.leakAmount baseReward record := by
  have missed := outdoes.missedTarget
  unfold Record.missedTarget at missed
  unfold leakAmount
  rw [outdoes.effectiveBalance]
  split
  · refine Nat.add_le_add_left ?_ _
    cases missed' : !better.previousTargetAttester || better.slashed with
    | false => exact Nat.zero_le _
    | true => rw [missed missed']
  · exact Nat.le_refl _

section Records

variable (outdoes : better.Outdoes record) (stake : totals.MoreVotes more)

include outdoes stake

/-- Base rewards depend on stake that is the same. -/
theorem pendingBaseReward_of_outdoes :
    config.pendingBaseReward preset more better =
      config.pendingBaseReward preset totals record := by
  simp only [Config.pendingBaseReward, outdoes.effectiveBalance, stake.activeCurrent]

/-- A better record earns no less. -/
theorem pendingReward_le_of_outdoes :
    chain.pendingReward config totals record ≤ chain.pendingReward config more better := by
  unfold pendingReward
  rw [pendingBaseReward_of_outdoes outdoes stake]
  generalize config.pendingBaseReward preset totals record = baseReward
  have votes : List.Forall₂ (· ≤ ·)
      ((record.pendingVotes totals).map fun vote =>
        if vote.1 then chain.voteAmount totals baseReward vote.2 else 0)
      ((better.pendingVotes more).map fun vote =>
        if vote.1 then chain.voteAmount more baseReward vote.2 else 0) := by
    rw [List.forall₂_map_left_iff, List.forall₂_map_right_iff]
    refine (outdoes.pendingVotes stake).imp ?_
    rintro vote vote' ⟨counts, le⟩
    split
    · rename_i voted
      rw [if_pos (counts voted)]
      exact voteAmount_mono stake.activeCurrent le
    · exact Nat.zero_le _
  exact Nat.add_le_add votes.sum_le_sum (inclusionAmount_le_of_outdoes outdoes)

/-- A better record loses no more. -/
theorem pendingPenalty_le_of_outdoes :
    chain.pendingPenalty config more better ≤ chain.pendingPenalty config totals record := by
  unfold pendingPenalty
  rw [pendingBaseReward_of_outdoes outdoes stake]
  generalize config.pendingBaseReward preset totals record = baseReward
  have votes : List.Forall₂ (· ≥ ·)
      ((record.pendingVotes totals).map fun vote => if vote.1 then 0 else baseReward.toNat)
      ((better.pendingVotes more).map fun vote => if vote.1 then 0 else baseReward.toNat) := by
    rw [List.forall₂_map_left_iff, List.forall₂_map_right_iff]
    refine (outdoes.pendingVotes stake).imp ?_
    rintro vote vote' ⟨counts, -⟩
    split
    · rename_i voted
      rw [if_pos (counts voted)]
    · split
      · exact Nat.zero_le _
      · exact Nat.le_refl _
  exact Nat.add_le_add votes.flip.sum_le_sum (leakAmount_le_of_outdoes outdoes)

/-- If the products of a better record fit, then so do those of the other one. -/
theorem ProductsFit.of_outdoes (fits : chain.ProductsFit config more better) :
    chain.ProductsFit config totals record := by
  intro eligible active normal vote listed counts
  rw [← outdoes.eligible] at eligible
  rw [← stake.activeCurrent] at active
  obtain ⟨vote', listed', counts', le⟩ : ∃ vote' ∈ better.pendingVotes more,
      (vote.1 = true → vote'.1 = true) ∧ vote.2 ≤ vote'.2 := by
    obtain ⟨vote', related, listed'⟩ := exists_related (outdoes.pendingVotes stake) listed
    exact ⟨vote', listed', related⟩
  have fits := fits eligible active normal vote' listed' (counts' counts)
  rw [pendingBaseReward_of_outdoes outdoes stake] at fits
  exact Nat.lt_of_le_of_lt (Nat.mul_le_mul_left _ (Nat.div_le_div_right le)) fits

end Records

/-! ## All records -/

/-- **Merit pays.** Let the second of two tallies have at least the stake of the first behind every
vote and the same active stake, and let each of its records outdo the one in the same place: it has
more votes, or an inclusion that is not later. If the products formed for the second tally fit their
sums, then both have deltas for all records, in a leak and outside of one, and by the second ones
every validator earns no less and loses no more. -/
theorem merit_pays (config : Config) {tally better : Tally}
    (stake : tally.totals.MoreVotes better.totals)
    (records : List.Forall₂ (fun record record' => record'.Outdoes record)
      tally.records.toList better.records.toList)
    (fit : ∀ record ∈ better.records, chain.ProductsFit config better.totals record) :
    ∃ lower higher, chain.pendingDeltas config tally = .ok lower ∧
      chain.pendingDeltas config better = .ok higher ∧
      lower.size = tally.records.size ∧
      List.Forall₂ (fun delta delta' =>
          delta.reward ≤ delta'.reward ∧ delta'.penalty ≤ delta.penalty)
        lower.toList higher.toList := by
  have fit' : ∀ record ∈ tally.records, chain.ProductsFit config tally.totals record := by
    intro record listed
    obtain ⟨record', outdoes, listed'⟩ := exists_related records (Array.mem_toList_iff.mpr listed)
    exact (fit record' (Array.mem_toList_iff.mp listed')).of_outdoes outdoes stake
  refine ⟨_, _, pendingDeltas_eq fit', pendingDeltas_eq fit, Array.size_map, ?_⟩
  rw [Array.toList_map, Array.toList_map, List.forall₂_map_left_iff, List.forall₂_map_right_iff]
  refine records.imp fun record record' outdoes => ?_
  rw [outdoes.eligible, stake.activeCurrent]
  split
  · exact ⟨UInt64.le_refl _, UInt64.le_refl _⟩
  · exact ⟨Word.saturate_le_saturate (pendingReward_le_of_outdoes outdoes stake),
      Word.saturate_le_saturate (pendingPenalty_le_of_outdoes outdoes stake)⟩

/-- The records of `threeVoters`, had the second one voted for the head and been included at once,
and had the slashed one voted for the target. -/
def keenVoters : Tally where
  records := threeVoters.records.mapIdx fun index record =>
    match index with
    | 1 => { record with previousHeadAttester := true, inclusionDistance := 1 }
    | 2 => { record with previousTargetAttester := true }
    | _ => record
  totals := { threeVoters.totals with previousHeadAttested := 49000000000 }

theorem merit_pays_keenVoters :
    threeVoters.totals.MoreVotes keenVoters.totals ∧
      List.Forall₂ (fun record record' => record'.Outdoes record)
        threeVoters.records.toList keenVoters.records.toList ∧
      (∀ record ∈ keenVoters.records,
        inSecondEpoch.ProductsFit Config.minimal keenVoters.totals record) ∧
      ∃ lower higher,
        inSecondEpoch.pendingDeltas Config.minimal threeVoters = .ok lower ∧
        inSecondEpoch.pendingDeltas Config.minimal keenVoters = .ok higher ∧
        List.Forall₂ (fun delta delta' =>
            delta.reward ≤ delta'.reward ∧ delta'.penalty ≤ delta.penalty)
          lower.toList higher.toList ∧
        (lower.zip higher).map (fun (delta, delta') =>
          (decide (delta.reward < delta'.reward), decide (delta'.penalty < delta.penalty))) =
            #[(true, false), (true, true), (false, false)] := by
  have stake : threeVoters.totals.MoreVotes keenVoters.totals :=
    ⟨rfl, by rintro (_ | _ | _ | _ | _) <;> decide⟩
  have records : List.Forall₂ (fun record record' : Record => record'.Outdoes record)
      threeVoters.records.toList keenVoters.records.toList :=
    .cons (threeVoters.records[0].outdoes_with false false false (.inl rfl))
      (.cons (threeVoters.records[1].outdoes_with false false true (.inr (by decide)))
        (.cons (threeVoters.records[2].outdoes_with false true false (.inl rfl)) .nil))
  have fit : ∀ record ∈ keenVoters.records,
      inSecondEpoch.ProductsFit Config.minimal keenVoters.totals record := by
    unfold ProductsFit
    decide +kernel
  obtain ⟨lower, higher, found, found', -, paid⟩ := merit_pays Config.minimal stake records fit
  have gains : (match inSecondEpoch.pendingDeltas Config.minimal threeVoters,
      inSecondEpoch.pendingDeltas Config.minimal keenVoters with
    | .ok lower, .ok higher => (lower.zip higher).map fun (delta, delta') =>
        (decide (delta.reward < delta'.reward), decide (delta'.penalty < delta.penalty))
    | _, _ => #[]) = #[(true, false), (true, true), (false, false)] := by decide +kernel
  rw [found, found'] at gains
  exact ⟨stake, records, fit, lower, higher, found, found', paid, gains⟩

end Chain

end BeaconEpoch
