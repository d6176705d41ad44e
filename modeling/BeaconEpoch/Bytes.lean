import BeaconEpoch.Natural

/-!
# Numbers as bytes

Little-endian numbers: the lowest byte comes first.

## Main definitions

* `littleEndian`: a number as a fixed count of bytes.
* `ofLittleEndian`: the number of some bytes.
-/

namespace BeaconEpoch

/-- The lowest `count` bytes of a number, lowest first. -/
def littleEndian : (count : Nat) → (n : Nat) → List UInt8
  | 0, _ => []
  | count + 1, n => UInt8.ofNat n :: littleEndian count (n / 256)

/-- The number whose bytes these are, lowest first. -/
def ofLittleEndian : List UInt8 → Nat
  | [] => 0
  | byte :: bytes => byte.toNat + 256 * ofLittleEndian bytes

@[simp] theorem length_littleEndian (count n : Nat) : (littleEndian count n).length = count := by
  induction count generalizing n with
  | zero => rfl
  | succ count ih => simp [littleEndian, ih]

/-- Digits to the base 256 are the number again, as far as they reach. -/
theorem ofLittleEndian_littleEndian (count n : Nat) :
    ofLittleEndian (littleEndian count n) = n % 256 ^ count := by
  induction count generalizing n with
  | zero => simp [littleEndian, ofLittleEndian, Nat.mod_one]
  | succ count ih =>
    rw [littleEndian, ofLittleEndian, ih, Nat.pow_succ', Nat.mod_mul]
    rfl

/-- A bit of a number is a bit of the byte that it lies in, eight bits to a byte. -/
theorem testBit_ofLittleEndian (bytes : List UInt8) (place : Nat) :
    (ofLittleEndian bytes).testBit place =
      (bytes.getD (place / 8) 0).toNat.testBit (place % 8) := by
  induction bytes generalizing place with
  | nil => simp [ofLittleEndian]
  | cons byte bytes ih =>
    have split : ofLittleEndian (byte :: bytes) = 2 ^ 8 * ofLittleEndian bytes + byte.toNat :=
      Nat.add_comm ..
    rw [split, Nat.testBit_two_pow_mul_add _ byte.toNat_lt]
    by_cases first : place < 8
    · rw [if_pos first, Nat.div_eq_of_lt first, Nat.mod_eq_of_lt first]
      rfl
    · have later : place / 8 = (place - 8) / 8 + 1 := by omega
      have same : place % 8 = (place - 8) % 8 := by omega
      rw [if_neg first, ih, later, same]
      rfl

end BeaconEpoch
