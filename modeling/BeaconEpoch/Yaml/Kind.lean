import BeaconEpoch.Numeral

/-!
# Kinds of scalars

What a text stands for where nothing else says so: nothing, a truth value, a number, or itself.

## Main definitions

* `isNull`, `isTruth`: the words for nothing and for truth values.
* `numeral?`, `isWhole`, `isWide`: whole numbers, of 64 bits and of more.
* `isReal`: numbers with a fraction or an exponent that are not too large.
-/

namespace BeaconEpoch.Yaml

/-! ## Words -/

/-- Whether a text is a word for nothing. -/
def isNull (text : String) : Bool := ["null", "Null", "NULL", "~"].contains text

/-- Whether a text is a word for a truth value. -/
def isTruth (text : String) : Bool :=
  ["true", "True", "TRUE", "false", "False", "FALSE"].contains text

/-! ## Whole numbers -/

/-- The number of a numeral without a sign: decimal, or after `0x`, `0o` or `0b` in another base. -/
def magnitude? : List Char → Option Nat
  | '0' :: 'x' :: digits => Numeral.read? 16 digits
  | '0' :: 'o' :: digits => Numeral.read? 8 digits
  | '0' :: 'b' :: digits => Numeral.read? 2 digits
  | digits => Numeral.decimal? digits

/-- The number of a numeral. A plus sign may stand in front. -/
def numeral? : List Char → Option Nat
  | '+' :: digits => magnitude? digits
  | digits => magnitude? digits

/-- Whether a text is a numeral that fits 64 bits, signed or not. -/
def isWhole : List Char → Bool
  | '-' :: digits => (magnitude? digits).any (· ≤ 2 ^ 63)
  | digits => (numeral? digits).any (· < 2 ^ 64)

/-- Whether a text is a numeral that fits 128 bits, signed or not, but not 64. -/
def isWide : List Char → Bool
  | '-' :: digits => (magnitude? digits).any fun n => 2 ^ 63 < n && n ≤ 2 ^ 127
  | digits => (numeral? digits).any fun n => 2 ^ 64 ≤ n && n < 2 ^ 128

/-! ## Other numbers -/

/-- The least magnitude that is beyond all numbers with an exponent of eleven bits and 53 digits,
after rounding. -/
def realLimit : Nat := 2 ^ 1024 - 2 ^ 970

/-- Whether `n * 10 ^ up / 10 ^ down` is below the limit. A number without as many digits as `down`
is below one, and one with more zeros than the limit has digits is beyond it. -/
def isBelowLimit (n up down : Nat) : Bool :=
  n == 0 || (if down ≤ up then up - down ≤ 309 && n * 10 ^ (up - down) < realLimit
    else (Nat.toDigits 10 n).length ≤ down - up || n < realLimit * 10 ^ (down - up))

/-- The powers of ten by which an exponent moves the point to the right and to the left. An exponent
may be left out, but needs a digit. -/
def exponent? : List Char → Option (Nat × Nat)
  | [] => some (0, 0)
  | mark :: rest =>
    if mark == 'e' || mark == 'E' then
      match rest with
      | '-' :: digits => (Numeral.read? 10 digits).map (0, ·)
      | '+' :: digits => (Numeral.read? 10 digits).map (·, 0)
      | digits => (Numeral.read? 10 digits).map (·, 0)
    else none

/-- Whether a text is a decimal number without a sign that is not too large. A point may stand
anywhere, but not alone. -/
def isDecimal (text : List Char) : Bool :=
  let whole := text.takeWhile Char.isDigit
  let (fraction, rest) := match text.drop whole.length with
    | '.' :: rest => (rest.takeWhile Char.isDigit, rest.dropWhile Char.isDigit)
    | rest => ([], rest)
  match Numeral.read? 10 (whole ++ fraction), exponent? rest with
  | some n, some (up, down) => isBelowLimit n up (down + fraction.length)
  | _, _ => false

/-- Whether a text is a number that may have a fraction and an exponent, or a word for an infinite
one or for none. -/
def isReal (text : String) : Bool :=
  [".inf", ".Inf", ".INF", "+.inf", "+.Inf", "+.INF", "-.inf", "-.Inf", "-.INF", ".nan", ".NaN",
    ".NAN"].contains text ||
  match text.toList with
  | '+' :: digits => isDecimal digits
  | '-' :: digits => isDecimal digits
  | digits => isDecimal digits

end BeaconEpoch.Yaml
