import BeaconEpoch.Bytes

/-!
# Bit lists

Bits as bytes, earlier bits lower and in earlier bytes. The first bit may stand at any position of
the first byte.

## Main definitions

* `Bitlist.toNat`, `Bitlist.ofNat`: bits as a number, the first bit lowest.
* `Bitlist.toBytes`, `Bitlist.ofBytes?`: bits as bytes, filled up with zeros on both sides.

Reading gives back what was written (`Bitlist.ofBytes?_toBytes`).
-/

namespace BeaconEpoch.Bitlist

/-- The number whose binary digits these are, lowest first. -/
def toNat : List Bool → Nat
  | [] => 0
  | bit :: bits => bit.toNat + 2 * toNat bits

/-- The lowest binary digits of a number, lowest first. -/
def ofNat : (count : Nat) → (n : Nat) → List Bool
  | 0, _ => []
  | count + 1, n => n.testBit 0 :: ofNat count (n / 2)

/-- The number of bytes that hold so many bits. -/
def byteCount (bits : Nat) : Nat := (bits + 7) / 8

/-- The bytes that hold some bits, from a position of the first byte on. -/
def toBytes (first : Nat) (bits : List Bool) : List UInt8 :=
  littleEndian (byteCount (first + bits.length)) (2 ^ first * toNat bits)

/-- The bits that some bytes hold from a position of the first byte on, if they hold so many. -/
def ofBytes? (first count : Nat) (bytes : List UInt8) : Option (List Bool) :=
  if first + count ≤ 8 * bytes.length then
    some (ofNat count (ofLittleEndian bytes / 2 ^ first))
  else none

theorem toNat_lt (bits : List Bool) : toNat bits < 2 ^ bits.length := by
  induction bits with
  | nil => simp [toNat]
  | cons bit bits ih =>
    have := bit.toNat_lt
    rw [toNat, List.length_cons, Nat.pow_succ]
    omega

/-- A bit list is the binary expansion of a number, of a given length. -/
theorem ofNat_toNat (bits : List Bool) : ofNat bits.length (toNat bits) = bits := by
  induction bits with
  | nil => rfl
  | cons bit bits ih =>
    have half : (bit.toNat + 2 * toNat bits) / 2 = toNat bits := by
      have := bit.toNat_lt
      omega
    have low : (bit.toNat + 2 * toNat bits).testBit 0 = bit := by
      cases bit <;> simp [Nat.testBit_zero, Nat.add_mod]
    rw [toNat, List.length_cons, ofNat, half, low, ih]

theorem length_toBytes (first : Nat) (bits : List Bool) :
    (toBytes first bits).length = byteCount (first + bits.length) :=
  length_littleEndian ..

/-- Bits are read back from bytes, wherever in the first byte they start. -/
theorem ofBytes?_toBytes (first : Nat) (bits : List Bool) :
    ofBytes? first bits.length (toBytes first bits) = some bits := by
  have enough : first + bits.length ≤ 8 * byteCount (first + bits.length) := by
    simp only [byteCount]; omega
  have fits : 2 ^ first * toNat bits < 256 ^ byteCount (first + bits.length) := calc
    2 ^ first * toNat bits < 2 ^ first * 2 ^ bits.length :=
      Nat.mul_lt_mul_of_pos_left (toNat_lt bits) (Nat.two_pow_pos first)
    _ = 2 ^ (first + bits.length) := (Nat.pow_add 2 first bits.length).symm
    _ ≤ 2 ^ (8 * byteCount (first + bits.length)) := Nat.pow_le_pow_right (by decide) enough
    _ = 256 ^ byteCount (first + bits.length) := Nat.pow_mul 2 8 _
  rw [ofBytes?, length_toBytes, if_pos enough, toBytes, ofLittleEndian_littleEndian,
    Nat.mod_eq_of_lt fits, Nat.mul_div_cancel_left _ (Nat.two_pow_pos first), ofNat_toNat]

end BeaconEpoch.Bitlist
