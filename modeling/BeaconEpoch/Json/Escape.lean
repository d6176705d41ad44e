import BeaconEpoch.Hex

/-!
# Escaped text

The characters between the quotes of a JSON string.

## Main definitions

* `Escape.encode`: quotes, backslashes and control characters as escapes, all else as it is.
* `Escape.decode?`: the characters that are meant.
* `Escape.isWritten`: whether each escape is one, whatever the escapes mean together.

Reading gives back what was written (`Escape.decode?_encode`).
-/

namespace BeaconEpoch.Json.Escape

/-- The escapes of two characters: the letter after the backslash, and what is meant. -/
def short : List (Char × Char) :=
  [('"', '"'), ('\\', '\\'), ('/', '/'), ('b', '\x08'), ('f', '\x0c'), ('n', '\n'), ('r', '\r'),
    ('t', '\t')]

/-- The character that a backslash and a letter stand for. -/
def short? (letter : Char) : Option Char := (short.find? (·.1 == letter)).map (·.2)

/-- The number of four hexadecimal digits. -/
def unit? (a b c d : Char) : Option Nat := do
  return 4096 * (← Hex.value? a) + 256 * (← Hex.value? b) + 16 * (← Hex.value? c) + (← Hex.value? d)

/-- One character as it is written. -/
def encodeChar (c : Char) : List Char :=
  if c = '"' ∨ c = '\\' then ['\\', c]
  else if c.toNat < 32 then
    ['\\', 'u', '0', '0', Hex.digit (c.toNat / 16), Hex.digit (c.toNat % 16)]
  else [c]

/-- The characters of a text as they are written. -/
def encode (text : List Char) : List Char := text.flatMap encodeChar

/-- The text that some characters stand for. Control characters have to be escaped. A character
beyond the first 65536 may be written as two escapes, a high half and a low half; a half alone is no
character. -/
def decode? : List Char → Option (List Char)
  | [] => some []
  | '\\' :: 'u' :: a :: b :: c :: d :: rest => do
    let unit ← unit? a b c d
    if 0xD800 ≤ unit ∧ unit < 0xDC00 then
      match rest with
      | '\\' :: 'u' :: a :: b :: c :: d :: rest => do
        let low ← unit? a b c d
        if 0xDC00 ≤ low ∧ low < 0xE000 then
          (decode? rest).map
            (Char.ofNat (0x10000 + 0x400 * (unit - 0xD800) + (low - 0xDC00)) :: ·)
        else none
      | _ => none
    else if 0xDC00 ≤ unit ∧ unit < 0xE000 then none
    else (decode? rest).map (Char.ofNat unit :: ·)
  | '\\' :: letter :: rest => do
    let c ← short? letter
    (decode? rest).map (c :: ·)
  | c :: rest => if c.toNat < 32 ∨ c = '\\' then none else (decode? rest).map (c :: ·)

/-- Whether some characters can stand between quotes: no control characters, and each backslash
begins an escape. Halves of characters count as escapes, also alone. -/
def isWritten : List Char → Bool
  | [] => true
  | '\\' :: 'u' :: a :: b :: c :: d :: rest => (unit? a b c d).isSome && isWritten rest
  | '\\' :: letter :: rest => (short? letter).isSome && isWritten rest
  | c :: rest => 32 ≤ c.toNat && c != '\\' && isWritten rest

theorem decode?_encodeChar (c : Char) (rest : List Char) :
    decode? (encodeChar c ++ rest) = (decode? rest).map (c :: ·) := by
  unfold encodeChar
  split
  · rename_i special
    rcases special with rfl | rfl <;> simp [decode?, short?, short]
  · rename_i plain
    simp only [not_or] at plain
    split
    · rename_i control
      have high := Hex.value?_digit (c.toNat / 16) (by omega)
      have low := Hex.value?_digit (c.toNat % 16) (by omega)
      have zero : Hex.value? '0' = some 0 := by decide
      have unit : unit? '0' '0' (Hex.digit (c.toNat / 16)) (Hex.digit (c.toNat % 16)) =
          some c.toNat := by
        simp [unit?, zero, high, low]
        omega
      rw [show (['\\', 'u', '0', '0', Hex.digit (c.toNat / 16), Hex.digit (c.toNat % 16)] ++ rest) =
        '\\' :: 'u' :: '0' :: '0' :: Hex.digit (c.toNat / 16) :: Hex.digit (c.toNat % 16) :: rest
        from rfl, decode?, unit]
      simp [show ¬ 0xD800 ≤ c.toNat by omega, show ¬ 0xDC00 ≤ c.toNat by omega]
    · rename_i visible
      simp [decode?, plain, visible]

theorem decode?_encode (text : List Char) : decode? (encode text) = some text := by
  induction text with
  | nil => simp [encode, decode?]
  | cons c text ih =>
    rw [encode, List.flatMap_cons, decode?_encodeChar]
    rw [encode] at ih
    rw [ih]
    rfl

end BeaconEpoch.Json.Escape
