import BeaconEpoch.Reward

/-!
# Burned base rewards

A base reward is scaled to the length of a slot and loses a quarter. Both steps round down, and the
result is cut off at the largest word.

## Main definitions

* `burned`: what is left of a base reward before it is cut off.
* `burnChecked`: the burn with every step checked.

## Main statements

* `burnChecked_eq`: no step leaves the range of a sum.
* `burned_le`, `le_burned_succ`: rounding twice costs at most one unit.
* `burned_add_le`, `burned_le_add`: splitting a reward costs at most two units.
* `burn_accurate`: all of it, for every reward and every length of slots.

## Design notes

* **A product, not two factors.** What is burned depends on the reward and the length of a slot only
  by way of their product, so its laws speak of one number. The factor of the burn is three quarters
  of a twelfth, that is a sixteenth.
-/

namespace BeaconEpoch

/-- What is left of a base reward times the length of a slot, before it is cut off. -/
def burned (product : Nat) : Nat := product / referenceSecondsPerSlot * 3 / 4

/-- The burn of a base reward with every step checked. -/
def burnChecked (baseReward : Gwei) (secondsPerSlot : PositiveWord) : Except Error Gwei := do
  let product ← GweiSum.checked (baseReward.toNat * secondsPerSlot.val.toNat)
  let scaled ← quotient product referenceSecondsPerSlot
  let tripled ← GweiSum.checked (scaled * 3)
  return Word.saturate (← quotient tripled 4)

/-! ## Rounding -/

variable {product more first second : Nat}

theorem burned_mono (le : product ≤ more) : burned product ≤ burned more :=
  Nat.div_le_div_right (Nat.mul_le_mul_right 3 (Nat.div_le_div_right le))

/-- The burn takes at least fifteen of sixteen parts of the product. -/
theorem burned_le : burned product ≤ product / 16 := by
  unfold burned referenceSecondsPerSlot
  omega

/-- Rounding twice takes at most one unit more than rounding once. -/
theorem le_burned_succ : product / 16 ≤ burned product + 1 := by
  unfold burned referenceSecondsPerSlot
  omega

/-- Two parts of a product are worth no more than the whole. -/
theorem burned_add_le : burned first + burned second ≤ burned (first + second) := by
  unfold burned referenceSecondsPerSlot
  omega

/-- Two parts of a product lose at most one unit for each of the two steps that round. -/
theorem burned_le_add : burned (first + second) ≤ burned first + burned second + 2 := by
  unfold burned referenceSecondsPerSlot
  omega

/-! ## Words -/

variable {baseReward : Gwei} {secondsPerSlot : PositiveWord}

theorem toNat_burn : (burn baseReward secondsPerSlot).toNat =
    min (burned (baseReward.toNat * secondsPerSlot.val.toNat)) Word.max.toNat :=
  Word.toNat_saturate _

/-- A burn that is not cut off is what is left. -/
theorem toNat_burn_of_le
    (fits : burned (baseReward.toNat * secondsPerSlot.val.toNat) ≤ Word.max.toNat) :
    (burn baseReward secondsPerSlot).toNat =
      burned (baseReward.toNat * secondsPerSlot.val.toNat) :=
  toNat_burn.trans (Nat.min_eq_left fits)

/-- **No step leaves the range of a sum.** The product of two words is one, and scaling it down
makes more room than the factor of three needs. -/
theorem burnChecked_eq (baseReward : Gwei) (secondsPerSlot : PositiveWord) :
    burnChecked baseReward secondsPerSlot = .ok (burn baseReward secondsPerSlot) := by
  let product := baseReward.toNat * secondsPerSlot.val.toNat
  have small : product < GweiSum.bound :=
    GweiSum.mul_lt_bound baseReward.toNat_lt secondsPerSlot.val.toNat_lt
  have tripled : product / referenceSecondsPerSlot * 3 < GweiSum.bound := by
    unfold referenceSecondsPerSlot
    omega
  unfold burnChecked
  rw [GweiSum.checked_eq_ok_iff.mpr ⟨small, rfl⟩]
  show (GweiSum.checked (product / referenceSecondsPerSlot * 3) >>= fun tripled =>
    quotient tripled 4 >>= fun left => pure (Word.saturate left)) = _
  rw [GweiSum.checked_eq_ok_iff.mpr ⟨tripled, rfl⟩]
  rfl

theorem burn_mono {reward : Gwei} {seconds : PositiveWord}
    (le : baseReward.toNat * secondsPerSlot.val.toNat ≤ reward.toNat * seconds.val.toNat) :
    burn baseReward secondsPerSlot ≤ burn reward seconds := by
  rw [UInt64.le_iff_toNat_le, toNat_burn, toNat_burn]
  have grown := burned_mono le
  omega

/-- Splitting a reward into two takes at most two units, as long as nothing is cut off. -/
theorem burn_split {whole first second : Gwei} (split : whole.toNat = first.toNat + second.toNat)
    (fits : burned (whole.toNat * secondsPerSlot.val.toNat) ≤ Word.max.toNat) :
    (burn first secondsPerSlot).toNat + (burn second secondsPerSlot).toNat ≤
        (burn whole secondsPerSlot).toNat ∧
      (burn whole secondsPerSlot).toNat ≤
        (burn first secondsPerSlot).toNat + (burn second secondsPerSlot).toNat + 2 := by
  have parts : whole.toNat * secondsPerSlot.val.toNat =
      first.toNat * secondsPerSlot.val.toNat + second.toNat * secondsPerSlot.val.toNat := by
    rw [split, Nat.add_mul]
  have smaller (part : Gwei) (le : part.toNat ≤ whole.toNat) :
      burned (part.toNat * secondsPerSlot.val.toNat) ≤ Word.max.toNat :=
    Nat.le_trans (burned_mono (Nat.mul_le_mul_right _ le)) fits
  rw [toNat_burn_of_le fits, toNat_burn_of_le (smaller first (by omega)),
    toNat_burn_of_le (smaller second (by omega)), parts]
  exact ⟨burned_add_le, burned_le_add⟩

/-- **The burn is safe and accurate.** For every base reward and every length of slots no step
leaves the range of a sum, and a larger reward or a longer slot leaves no less. What is left before
it is cut off is a sixteenth of the product, rounded down, or one unit less; so it is no more than
the reward for slots of up to sixteen seconds. It is cut off exactly if it is larger than the
largest word. If it is not, the two parts of a reward leave together as much as the whole, or up to
two units less. -/
theorem burn_accurate (baseReward : Gwei) (secondsPerSlot : PositiveWord) :
    let product := baseReward.toNat * secondsPerSlot.val.toNat
    burnChecked baseReward secondsPerSlot = .ok (burn baseReward secondsPerSlot) ∧
    (∀ larger : Gwei, baseReward ≤ larger →
      burn baseReward secondsPerSlot ≤ burn larger secondsPerSlot) ∧
    (∀ longer : PositiveWord, secondsPerSlot.val ≤ longer.val →
      burn baseReward secondsPerSlot ≤ burn baseReward longer) ∧
    product / 16 ≤ burned product + 1 ∧ burned product ≤ product / 16 ∧
    (secondsPerSlot.val ≤ 16 →
      burned product ≤ baseReward.toNat ∧ burn baseReward secondsPerSlot ≤ baseReward) ∧
    (burn baseReward secondsPerSlot).toNat = min (burned product) Word.max.toNat ∧
    ((burn baseReward secondsPerSlot).toNat ≠ burned product ↔
      Word.max.toNat < burned product) ∧
    (∀ first second : Gwei, baseReward.toNat = first.toNat + second.toNat →
      burned product ≤ Word.max.toNat →
      (burn first secondsPerSlot).toNat + (burn second secondsPerSlot).toNat ≤
          (burn baseReward secondsPerSlot).toNat ∧
        (burn baseReward secondsPerSlot).toNat ≤
          (burn first secondsPerSlot).toNat + (burn second secondsPerSlot).toNat + 2) := by
  intro product
  refine ⟨burnChecked_eq .., fun larger le => ?_, fun longer le => ?_, le_burned_succ, burned_le,
    fun short => ?_, toNat_burn, ?_, fun first second => burn_split⟩
  · exact burn_mono (Nat.mul_le_mul_right _ (UInt64.le_iff_toNat_le.mp le))
  · exact burn_mono (Nat.mul_le_mul_left _ (UInt64.le_iff_toNat_le.mp le))
  · have seconds : secondsPerSlot.val.toNat ≤ 16 := UInt64.le_iff_toNat_le.mp short
    have bounded : product ≤ 16 * baseReward.toNat := by
      rw [Nat.mul_comm 16]
      exact Nat.mul_le_mul_left _ seconds
    have left : burned product ≤ baseReward.toNat :=
      Nat.le_trans burned_le (Nat.div_le_of_le_mul bounded)
    refine ⟨left, ?_⟩
    rw [UInt64.le_iff_toNat_le, toNat_burn]
    exact Nat.le_trans (Nat.min_le_left ..) left
  · rw [toNat_burn]
    show min (burned product) _ ≠ burned product ↔ _
    omega

/-- Both parts of a reward of 36 are burned to nothing, and the two units of the whole are lost. -/
theorem burn_accurate_lostUnits :
    let second : PositiveWord := ⟨1, by decide⟩
    (burn 36 second).toNat = 2 ∧ (burn 23 second).toNat = 0 ∧ (burn 13 second).toNat = 0 ∧
      burnChecked 36 second = .ok (burn 36 second) ∧
      burn 36 second ≤ burn 37 second ∧ burn 36 second ≤ burn 36 ⟨10, by decide⟩ ∧
      burn 36 second ≤ 36 ∧
      (burn 36 second).toNat ≤ (burn 23 second).toNat + (burn 13 second).toNat + 2 := by
  intro second
  obtain ⟨safe, larger, longer, -, -, short, -, -, split⟩ := burn_accurate 36 second
  exact ⟨by decide, by decide, by decide, safe, larger 37 (by decide),
    longer ⟨10, by decide⟩ (by decide), (short (by decide)).2,
    (split 23 13 (by decide) (by decide)).2⟩

end BeaconEpoch
