import BeaconEpoch.Error
import BeaconEpoch.Natural

/-!
# Quantities

The numbers that accounting works on, and the two ways in which arithmetic on them ends: at the
nearest representable value, or in an error.

## Main definitions

* `Slot`, `Epoch`, `Gwei`, `InactivityScore`: words of 64 bits.
* `GweiSum`: a sum of amounts, kept below `GweiSum.bound`.
* `Word.saturate`, `Word.addSat`, `Word.subSat`, `Word.mulSat`: arithmetic that stops at the ends of
  a word.
* `Word.exact`, `GweiSum.exact`: a value that comes with a proof that it fits.
* `Word.checked`, `Word.difference`, `GweiSum.checked`, `quotient`: the value, or an error when
  there is none that fits.
* `isqrt`: the integer square root.

## Design notes

* **Words for what is stored, naturals for what is computed.** A formula is evaluated in `Nat`, and
  the place where its value has to fit a word or a sum names the rule: saturate, prove or check.
-/

namespace BeaconEpoch

/-- A time slot, counted from genesis. -/
abbrev Slot := UInt64

/-- An epoch: a fixed number of consecutive slots. -/
abbrev Epoch := UInt64

/-- An amount of stake, in billionths of a coin. -/
abbrev Gwei := UInt64

/-- How long a validator has been missing, in units of the score bias. -/
abbrev InactivityScore := UInt64

/-- A word other than zero. -/
abbrev PositiveWord := { w : UInt64 // w ≠ 0 }

/-- A position in the validator registry. -/
abbrev ValidatorIndex := Nat

/-- A sum of amounts of arbitrarily many validators. -/
abbrev GweiSum := Nat

/-- The first slot. -/
def genesisSlot : Slot := 0

/-- The first epoch. -/
def genesisEpoch : Epoch := 0

/-- The last slot, which stands for "never". -/
def farFutureSlot : Slot := 18446744073709551615

/-- The last epoch, which stands for "never". -/
def farFutureEpoch : Epoch := 18446744073709551615

/-! ## Words -/

namespace Word

/-- The largest word. -/
def max : UInt64 := 18446744073709551615

/-- The word nearest to `n`: `n` itself, or the largest word. -/
def saturate (n : Nat) : UInt64 :=
  if n < 2 ^ 64 then UInt64.ofNat n else max

/-- The word that is `n`, which is known to fit. -/
def exact (n : Nat) (fits : n < 2 ^ 64) : UInt64 := UInt64.ofNatLT n fits

/-- The word that is `n`. -/
def checked (n : Nat) : Except Error UInt64 :=
  if n < 2 ^ 64 then .ok (UInt64.ofNat n) else .error .arithmeticOverflow

/-- The difference, as long as the second word is not the larger one. -/
def difference (a b : UInt64) : Except Error UInt64 :=
  if b ≤ a then .ok (a - b) else .error .arithmeticOverflow

/-- The sum, or the largest word. -/
def addSat (a b : UInt64) : UInt64 := saturate (a.toNat + b.toNat)

/-- The product, or the largest word. -/
def mulSat (a b : UInt64) : UInt64 := saturate (a.toNat * b.toNat)

/-- The difference, or zero. -/
def subSat (a b : UInt64) : UInt64 := if b ≤ a then a - b else 0

theorem toNat_max : max.toNat = 2 ^ 64 - 1 := rfl

theorem toNat_ofNat {n : Nat} (fits : n < 2 ^ 64) : (UInt64.ofNat n).toNat = n := by
  rw [UInt64.toNat_ofNat']
  exact Nat.mod_eq_of_lt fits

@[simp] theorem toNat_exact {n : Nat} (fits : n < 2 ^ 64) : (exact n fits).toNat = n :=
  UInt64.toNat_ofNatLT ..

/-- Saturation cuts off at the largest word. -/
@[simp] theorem toNat_saturate (n : Nat) : (saturate n).toNat = min n (2 ^ 64 - 1) := by
  unfold saturate
  split
  · rw [toNat_ofNat (by assumption)]
    omega
  · rw [toNat_max]
    omega

@[simp] theorem toNat_addSat (a b : UInt64) :
    (addSat a b).toNat = min (a.toNat + b.toNat) (2 ^ 64 - 1) := toNat_saturate _

@[simp] theorem toNat_mulSat (a b : UInt64) :
    (mulSat a b).toNat = min (a.toNat * b.toNat) (2 ^ 64 - 1) := toNat_saturate _

@[simp] theorem toNat_subSat (a b : UInt64) : (subSat a b).toNat = a.toNat - b.toNat := by
  unfold subSat
  split
  · rename_i le
    exact UInt64.toNat_sub_of_le _ _ le
  · rename_i lt
    rw [UInt64.le_iff_toNat_le] at lt
    simp
    omega

theorem difference_eq_ok {a b : UInt64} (le : b ≤ a) : difference a b = .ok (a - b) := if_pos le

/-- A number passes the check as the word that it is, if it is one. -/
theorem checked_eq_ok_iff {n : Nat} {w : UInt64} : checked n = .ok w ↔ n = w.toNat := by
  unfold checked
  have := w.toNat_lt
  constructor
  · intro h
    split at h
    · cases h
      rw [toNat_ofNat (by assumption)]
    · cases h
  · rintro rfl
    rw [if_pos this]
    simp

end Word

/-! ## Sums -/

namespace GweiSum

/-- The number of sums that can be told apart: the values of 128 bits. -/
def bound : Nat := 2 ^ 128

/-- The sum nearest to `n`: `n` itself, or the largest sum. -/
def saturate (n : Nat) : GweiSum := min n (bound - 1)

/-- The sum that is `n`, which is known to fit. -/
def exact (n : Nat) (_fits : n < bound) : GweiSum := n

/-- The sum that is `n`. -/
def checked (n : Nat) : Except Error GweiSum :=
  if n < bound then .ok n else .error .arithmeticOverflow

@[simp] theorem exact_eq {n : Nat} (fits : n < bound) : exact n fits = n := rfl

theorem bound_eq : bound = 2 ^ 128 := rfl

/-- A product of two words is a sum. -/
theorem mul_lt_bound {a b : Nat} (left : a < 2 ^ 64) (right : b < 2 ^ 64) : a * b < bound :=
  Nat.lt_of_lt_of_eq (Nat.mul_lt_mul'' left right) (by rw [bound_eq, ← Nat.pow_add])

theorem checked_eq_ok_iff {n m : Nat} : checked n = .ok m ↔ n < bound ∧ n = m := by
  unfold checked
  split <;> simp [*]

end GweiSum

/-! ## Division -/

/-- The quotient, rounded down, as long as there is something to divide by. -/
def quotient (n divisor : Nat) : Except Error Nat :=
  if divisor = 0 then .error .arithmeticOverflow else .ok (n / divisor)

/-! ## Square root -/

/-- Raises `root` by the powers of two below `2 ^ bits`, largest first, as long as its square stays
within `n`. -/
def sqrtFrom (n : Nat) : (bits : Nat) → (root : Nat) → Nat
  | 0, root => root
  | bits + 1, root =>
    let next := root + 2 ^ bits
    sqrtFrom n bits (if next * next ≤ n then next else root)

/-- The integer square root: the largest number whose square is at most `n`. -/
def isqrt (n : Nat) : Nat := sqrtFrom n (n.log2 / 2 + 1) 0

/-- Each bit keeps the root between two bounds that it halves the distance of. -/
theorem sqrtFrom_bounds (n bits root : Nat) (lower : root * root ≤ n)
    (upper : n < (root + 2 ^ bits) * (root + 2 ^ bits)) :
    sqrtFrom n bits root * sqrtFrom n bits root ≤ n ∧
      n < (sqrtFrom n bits root + 1) * (sqrtFrom n bits root + 1) := by
  induction bits generalizing root with
  | zero => exact ⟨lower, by simpa [sqrtFrom] using upper⟩
  | succ bits ih =>
    simp only [sqrtFrom]
    have double : 2 ^ (bits + 1) = 2 ^ bits + 2 ^ bits := by rw [Nat.pow_succ]; omega
    split
    · rename_i le
      exact ih _ le (by rwa [Nat.add_assoc, ← double])
    · rename_i lt
      exact ih _ lower (Nat.lt_of_not_le lt)

/-- The root is the largest number whose square does not exceed the argument. -/
theorem isqrt_bounds (n : Nat) :
    isqrt n * isqrt n ≤ n ∧ n < (isqrt n + 1) * (isqrt n + 1) := by
  refine sqrtFrom_bounds n _ 0 (by simp) ?_
  simp only [Nat.zero_add]
  calc
    n < 2 ^ (n.log2 + 1) := Nat.lt_log2_self
    _ ≤ 2 ^ (n.log2 / 2 + 1 + (n.log2 / 2 + 1)) := Nat.pow_le_pow_right (by decide) (by omega)
    _ = _ := Nat.pow_add ..

end BeaconEpoch
