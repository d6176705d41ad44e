import BeaconEpoch.Hex
import BeaconEpoch.Natural

/-!
# Numerals

Natural numbers as digits, most significant digit first.

## Main definitions

* `Numeral.read?`: the number of some digits in a base up to sixteen.
* `Numeral.decimal?`: the number of a decimal numeral without leading zeros.
* `Numeral.word?`: a number that fits a word.

The numeral that is written for a number is read back as this number (`Numeral.decimal?_toDigits`).
-/

namespace BeaconEpoch.Numeral

/-- The number of some digits after which one more follows. -/
def extend? (base n : Nat) (digit : Char) : Option Nat := do
  let value ← Hex.value? digit
  if value < base then some (base * n + value) else none

/-- The number of some digits in a base. There has to be a digit. -/
def read? (base : Nat) (digits : List Char) : Option Nat :=
  if digits.isEmpty then none else digits.foldlM (extend? base) 0

/-- The number of a decimal numeral. A zero in front is refused unless it is the only digit. -/
def decimal? (digits : List Char) : Option Nat :=
  if digits.head? = some '0' ∧ digits ≠ ['0'] then none else read? 10 digits

/-- The word that is `n`. -/
def word? (n : Nat) : Option UInt64 := if n < 2 ^ 64 then some (UInt64.ofNat n) else none

theorem extend?_digitChar {n digit : Nat} (lt : digit < 10) :
    extend? 10 n digit.digitChar = some (10 * n + digit) := by
  have : ∀ d < 10, Hex.value? d.digitChar = some d := by decide
  simp [extend?, this digit lt, lt]

/-- Horner's scheme undoes the digits. -/
theorem foldlM_toDigits (n : Nat) : (Nat.toDigits 10 n).foldlM (extend? 10) 0 = some n := by
  induction n using Nat.strongRecOn with
  | ind n ih =>
    rw [Nat.toDigits_eq_if (by decide)]
    split
    · rename_i lt
      simp [extend?_digitChar lt]
    · have lt : n % 10 < 10 := Nat.mod_lt _ (by decide)
      rw [List.foldlM_append, ih (n / 10) (by omega)]
      simp [extend?_digitChar lt]
      omega

theorem head?_toDigits {n : Nat} (pos : n ≠ 0) : (Nat.toDigits 10 n).head? ≠ some '0' := by
  induction n using Nat.strongRecOn with
  | ind n ih =>
    rw [Nat.toDigits_eq_if (by decide)]
    split
    · rename_i lt
      have : ∀ d < 10, d ≠ 0 → d.digitChar ≠ '0' := by decide
      simpa using this n lt pos
    · have some := Option.isSome_iff_ne_none.mpr (mt List.head?_eq_none_iff.mp
        (Nat.toDigits_ne_nil (n := n / 10) (b := 10)))
      rw [List.head?_append, Option.or_of_isSome some]
      exact ih (n / 10) (by omega) (by omega)

/-- A number is read back from its decimal digits. -/
theorem decimal?_toDigits (n : Nat) : decimal? (Nat.toDigits 10 n) = some n := by
  by_cases zero : n = 0
  · subst zero
    decide
  · rw [decimal?, if_neg (fun h => head?_toDigits zero h.1), read?,
      if_neg (by simp [Nat.toDigits_ne_nil])]
    exact foldlM_toDigits n

theorem word?_toNat (w : UInt64) : word? w.toNat = some w := by
  simp [word?, w.toNat_lt]

end BeaconEpoch.Numeral
