/-!
# Hexadecimal text

Bytes as pairs of hexadecimal digits.

## Main definitions

* `Hex.encode`: two small digits per byte.
* `Hex.decode?`: the bytes of an even number of digits, small or capital.

Reading gives back what was written (`Hex.decode?_encode`).
-/

namespace BeaconEpoch.Hex

/-- The digit of a number below sixteen. -/
def digit (n : Nat) : Char :=
  if n < 10 then Char.ofNat (48 + n) else Char.ofNat (87 + n)

/-- The number of a digit. -/
def value? (c : Char) : Option Nat :=
  let n := c.toNat
  if 48 ≤ n ∧ n ≤ 57 then some (n - 48)
  else if 97 ≤ n ∧ n ≤ 102 then some (n - 87)
  else if 65 ≤ n ∧ n ≤ 70 then some (n - 55)
  else none

/-- The digits of some bytes, high half first. -/
def encode (bytes : List UInt8) : List Char :=
  bytes.flatMap fun byte => [digit (byte.toNat / 16), digit (byte.toNat % 16)]

/-- The bytes of some digits. -/
def decode? : List Char → Option (List UInt8)
  | [] => some []
  | [_] => none
  | high :: low :: rest => do
    let high ← value? high
    let low ← value? low
    let bytes ← decode? rest
    return UInt8.ofNat (16 * high + low) :: bytes

theorem value?_digit : ∀ n < 16, value? (digit n) = some n := by decide

/-- Bytes are read back from their digits. -/
theorem decode?_encode (bytes : List UInt8) : decode? (encode bytes) = some bytes := by
  induction bytes with
  | nil => rfl
  | cons byte bytes ih =>
    have lt := byte.toNat_lt
    have high := value?_digit (byte.toNat / 16) (by omega)
    have low := value?_digit (byte.toNat % 16) (by omega)
    have whole : UInt8.ofNat (16 * (byte.toNat / 16) + byte.toNat % 16) = byte := by
      rw [Nat.div_add_mod]
      exact UInt8.ofNat_toNat
    change (do
      let high ← value? (digit (byte.toNat / 16))
      let low ← value? (digit (byte.toNat % 16))
      let bytes ← decode? (encode bytes)
      return UInt8.ofNat (16 * high + low) :: bytes) = some (byte :: bytes)
    rw [high, low, ih]
    exact congrArg (fun b => some (b :: bytes)) whole

end BeaconEpoch.Hex
