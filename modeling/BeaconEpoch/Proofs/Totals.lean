import BeaconEpoch.Tally.Basic

/-!
# Laws of totals

What the sums of an epoch add up to, and how large they can get.

## Main definitions

* `Totals.active`: the active stake of an epoch.
* `Totals.Within`: totals that do not exceed a bound on active stake and one on votes.

## Main statements

* `Chain.totalActive_epochOf`: the active stake of two epochs that is counted in one pass is the
  active stake of either epoch.
* `Totals.attested_addRecord`: one record adds its stake once to every kind of vote it counts for.
* `Chain.activeTotals_within`, `Totals.Within.addVotes`: sums are bounded by the number of summands.
* `Chain.activeTotals_fit`, `Chain.countVotes_fit`: sums are found.
-/

namespace BeaconEpoch

/-! ## Active stake -/

/-- The active stake of an epoch whose votes still count. -/
def Totals.active (totals : Totals) : AttestationEpoch → GweiSum
  | .previous => totals.activePrevious
  | .current => totals.activeCurrent

namespace Chain

variable {preset : Preset} (chain : Chain preset)

theorem active_activeTotals (epoch : AttestationEpoch) :
    chain.activeTotals.active epoch =
      (chain.validators.filter (·.isActive (chain.epochOf epoch.toRelative))).foldl
        (· + ·.effectiveBalance.toNat) 0 := by
  rw [Array.foldl_filter]
  cases epoch
  all_goals
    refine (Array.foldl_hom (Totals.active · _) fun totals validator => ?_).symm
    by_cases previous : validator.isActive chain.previousEpoch = true <;>
      by_cases current : validator.isActive chain.currentEpoch = true <;>
      simp [previous, current, AttestationEpoch.toRelative, epochOf, Totals.addActive,
        Totals.active]

/-- The active stake found in one pass over the registry, raised to one increment, is the one that
is looked up. -/
theorem totalActive_epochOf (epoch : AttestationEpoch) :
    chain.totalActive (chain.epochOf epoch.toRelative) =
      max preset.effectiveBalanceIncrement (chain.activeTotals.active epoch) := by
  rw [active_activeTotals, totalActive]

theorem totalActive_currentEpoch :
    chain.totalActive chain.currentEpoch =
      max preset.effectiveBalanceIncrement chain.activeTotals.activeCurrent :=
  chain.totalActive_epochOf .current

end Chain

/-! ## Votes -/

namespace Totals

theorem attested_addAttested (totals : Totals) (counted category : Category) (amount : Gwei) :
    (totals.addAttested counted amount).attested category =
      totals.attested category + if counted = category then amount.toNat else 0 := by
  cases counted <;> cases category <;> simp [addAttested, attested]

/-- Every kind of vote is listed once, so a record counts once for each. -/
theorem count_all (category : Category) : Category.all.count category = 1 := by
  cases category <;> rfl

theorem attested_addRecord (phase : Phase) (totals : Totals) (record : Record)
    (category : Category) :
    (addRecord phase totals record).attested category =
      totals.attested category +
        if !record.slashed && record.attested phase category then record.effectiveBalance.toNat
        else 0 := by
  have listed : ∀ (categories : List Category) (totals : Totals),
      (categories.foldl (fun totals category =>
        if record.attested phase category then totals.addAttested category record.effectiveBalance
        else totals) totals).attested category =
      totals.attested category + categories.count category *
        if record.attested phase category then record.effectiveBalance.toNat else 0 := by
    intro categories
    induction categories with
    | nil => simp
    | cons counted categories ih =>
      intro totals
      rw [List.foldl_cons, ih, List.count_cons]
      by_cases equal : counted = category
      · subst equal
        split
        · simp only [attested_addAttested, if_true, beq_self_eq_true, Nat.add_mul, Nat.one_mul]
          rw [Nat.add_assoc, Nat.add_comm (_ * _)]
        · simp
      · split <;> simp [attested_addAttested, equal]
  unfold addRecord
  split
  · simp_all
  · rw [listed, count_all]
    simp_all

theorem active_addRecord (phase : Phase) (totals : Totals) (record : Record) :
    (addRecord phase totals record).activeCurrent = totals.activeCurrent ∧
      (addRecord phase totals record).activePrevious = totals.activePrevious := by
  unfold addRecord
  split
  · exact ⟨rfl, rfl⟩
  · refine List.foldlRecOn _ _ (motive := fun (counted : Totals) =>
      counted.activeCurrent = totals.activeCurrent ∧
        counted.activePrevious = totals.activePrevious) ⟨rfl, rfl⟩ fun counted kept category _ => ?_
    split
    · cases category <;> exact kept
    · exact kept

/-- Counting votes leaves the active stake alone. -/
theorem active_addVotes (phase : Phase) (records : Array Record) (totals : Totals) :
    (totals.addVotes phase records).activeCurrent = totals.activeCurrent ∧
      (totals.addVotes phase records).activePrevious = totals.activePrevious := by
  refine Array.foldl_induction (motive := fun _ (counted : Totals) =>
    counted.activeCurrent = totals.activeCurrent ∧
      counted.activePrevious = totals.activePrevious) ⟨rfl, rfl⟩ fun index counted kept => ?_
  rw [(active_addRecord ..).1, (active_addRecord ..).2]
  exact kept

/-! ## Bounds -/

/-- A check of totals passes them on as they are, and their active stake is a sum. -/
theorem eq_of_checked_eq_ok {totals counted : Totals} (passed : totals.checked = .ok counted) :
    counted = totals ∧ totals.activeCurrent < GweiSum.bound := by
  unfold checked at passed
  split at passed
  · rename_i small
    cases passed
    simp only [fits, Bool.and_eq_true, decide_eq_true_eq] at small
    exact ⟨rfl, small.1.1⟩
  · cases passed

/-- Active stake is within one bound, and the stake behind votes within another. -/
structure Within (totals : Totals) (active voted : Nat) : Prop where
  activeCurrent : totals.activeCurrent ≤ active
  activePrevious : totals.activePrevious ≤ active
  attested : ∀ category, totals.attested category ≤ voted

namespace Within

variable {totals : Totals} {active voted bound : Nat}

theorem mono (within : totals.Within active voted) (activeLe : active ≤ bound)
    (votedLe : voted ≤ bound) : totals.Within bound bound :=
  ⟨Nat.le_trans within.activeCurrent activeLe, Nat.le_trans within.activePrevious activeLe,
    fun category => Nat.le_trans (within.attested category) votedLe⟩

theorem addRecord (phase : Phase) (record : Record) (within : totals.Within active voted) :
    (totals.addRecord phase record).Within active (voted + 2 ^ 64) where
  activeCurrent := by
    rw [(active_addRecord ..).1]
    exact within.activeCurrent
  activePrevious := by
    rw [(active_addRecord ..).2]
    exact within.activePrevious
  attested category := by
    rw [attested_addRecord]
    refine Nat.add_le_add (within.attested category) ?_
    split
    · exact Nat.le_of_lt record.effectiveBalance.toNat_lt
    · exact Nat.zero_le _

/-- Every record adds less than the largest word to every total. -/
theorem addVotes (phase : Phase) (records : Array Record) (within : totals.Within active voted) :
    (totals.addVotes phase records).Within active (voted + records.size * 2 ^ 64) := by
  refine Array.foldl_induction
    (motive := fun index (counted : Totals) => counted.Within active (voted + index * 2 ^ 64))
    (by simpa using within) fun index counted smaller => ?_
  have larger := smaller.addRecord phase records[index]
  rwa [Nat.add_assoc, ← Nat.succ_mul] at larger

/-- Totals within a bound that is itself a sum pass the check. -/
theorem checked (within : totals.Within bound bound) (small : bound < GweiSum.bound) :
    totals.checked = .ok totals := by
  refine if_pos ?_
  simp only [fits, Bool.and_eq_true, decide_eq_true_eq, List.all_eq_true]
  exact ⟨⟨Nat.lt_of_le_of_lt within.activeCurrent small,
    Nat.lt_of_le_of_lt within.activePrevious small⟩,
    fun category _ => Nat.lt_of_le_of_lt (within.attested category) small⟩

theorem floor {preset : Preset} (within : totals.Within bound bound)
    (enough : preset.effectiveBalanceIncrement ≤ bound) :
    (totals.floor preset).Within bound bound where
  activeCurrent := Nat.max_le.mpr ⟨enough, within.activeCurrent⟩
  activePrevious := Nat.max_le.mpr ⟨enough, within.activePrevious⟩
  attested category := by
    have attested := within.attested category
    cases category <;> exact Nat.max_le.mpr ⟨enough, attested⟩

end Within

end Totals

/-- A validator adds its stake at most once to the total of either epoch. -/
theorem Chain.activeTotals_within {preset : Preset} (chain : Chain preset) :
    chain.activeTotals.Within (chain.validators.size * 2 ^ 64) 0 := by
  refine Array.foldl_induction
    (motive := fun index (counted : Totals) => counted.Within (index * 2 ^ 64) 0)
    ?_ fun index counted smaller => ?_
  · refine ⟨Nat.zero_le _, Nat.zero_le _, fun category => ?_⟩
    cases category <;> exact Nat.le_refl 0
  · have stake := chain.validators[index].effectiveBalance.toNat_lt
    have keep : ∀ total : Nat, total ≤ index * 2 ^ 64 → total ≤ (index + 1) * 2 ^ 64 := by omega
    have add : ∀ total : Nat, total ≤ index * 2 ^ 64 →
        total + chain.validators[index].effectiveBalance.toNat ≤ (index + 1) * 2 ^ 64 := by omega
    constructor
    · split
      · split <;> exact add _ smaller.activeCurrent
      · split <;> exact keep _ smaller.activeCurrent
    · split <;> split
      · exact add _ smaller.activePrevious
      · exact keep _ smaller.activePrevious
      · exact add _ smaller.activePrevious
      · exact keep _ smaller.activePrevious
    · intro category
      have attested := smaller.attested category
      split <;> split <;> cases category <;> exact attested

namespace Chain

variable {preset : Preset} {chain : Chain preset} (few : chain.validators.size < 2 ^ 64)

include few

/-- No sum of stake is too large, unless there are more validators than a word can number. -/
theorem activeTotals_fit : chain.activeTotals.checked = .ok chain.activeTotals :=
  (chain.activeTotals_within.mono (Nat.le_refl _) (Nat.zero_le _)).checked
    (Nat.mul_lt_mul_of_pos_right few (Nat.two_pow_pos 64))

/-- Votes are counted on one record per validator, so that their stake is not too large either. -/
theorem countVotes_fit (phase : Phase) {records : Array Record}
    (size : records.size = chain.validators.size) :
    chain.activeTotals.countVotes preset phase records =
      .ok ((chain.activeTotals.addVotes phase records).floor preset) := by
  have voted : 0 + records.size * 2 ^ 64 ≤ chain.validators.size * 2 ^ 64 :=
    Nat.le_of_eq (by rw [size, Nat.zero_add])
  have within := (chain.activeTotals_within.addVotes phase records).mono (Nat.le_refl _) voted
  unfold Totals.countVotes
  rw [within.checked (Nat.mul_lt_mul_of_pos_right few (Nat.two_pow_pos 64))]
  rfl

end Chain

end BeaconEpoch
