import BeaconEpoch.Hex
import BeaconEpoch.Yaml.Gap

/-!
# Quoted scalars

## Main definitions

* `Quoted.short`, `Quoted.code?`: what stands for one character after a backslash.
* `Quoted.single?`, `Quoted.double?`: the text up to a quote, and what follows it.
-/

namespace BeaconEpoch.Yaml.Quoted

/-- The character with a code. -/
def character? (code : Nat) : Option Char :=
  if code.isValidChar then some (Char.ofNat code) else none

/-- The number of some hexadecimal digits. -/
def code? (digits : List Char) : Option Nat :=
  digits.foldlM (fun code digit => (Hex.value? digit).map (16 * code + ·)) 0

/-- The escapes of two characters: the letter after the backslash, and what is meant. -/
def short : List (Char × Char) :=
  [('0', '\x00'), ('a', '\x07'), ('b', '\x08'), ('t', '\t'), ('\t', '\t'), ('n', '\n'),
    ('v', '\x0b'), ('f', '\x0c'), ('r', '\r'), ('e', '\x1b'), (' ', ' '), ('"', '"'), ('/', '/'),
    ('\\', '\\'), ('N', '\x85'), ('_', '\xa0'), ('L', '\u2028'), ('P', '\u2029')]

/-- A text with more in front of it, if there is one. -/
def after (text : List Char) : Option (List Char × List Char) → Option (List Char × List Char) :=
  Option.map fun (more, rest) => (text ++ more, rest)

/-- The text after a gap up to a single quote, and what follows it. A quote inside is written twice.
No line starts with a marker. -/
def singleIn : Gap → List Char → Option (List Char × List Char)
  | _, [] => none
  | gap, '\'' :: '\'' :: rest => after (gap.text ++ ['\'']) (singleIn {} rest)
  | gap, '\'' :: rest => some (gap.text, rest)
  | gap, c :: rest =>
    if isBreak c && atAnyMarker rest then none
    else if isBlank c || isBreak c then singleIn (gap.add c) rest
    else after (gap.text ++ [c]) (singleIn {} rest)

/-- The text after a gap up to a double quote, and what follows it, with escapes. A break after a
backslash does not count, nor do the blanks behind it. -/
def doubleIn : Gap → List Char → Option (List Char × List Char)
  | _, [] => none
  | gap, '"' :: rest => some (gap.text, rest)
  | gap, '\\' :: 'x' :: a :: b :: rest => do
    let c ← character? (← code? [a, b])
    after (gap.text ++ [c]) (doubleIn {} rest)
  | gap, '\\' :: 'u' :: a :: b :: c :: d :: rest => do
    let c ← character? (← code? [a, b, c, d])
    after (gap.text ++ [c]) (doubleIn {} rest)
  | gap, '\\' :: 'U' :: a :: b :: c :: d :: e :: f :: g :: h :: rest => do
    let c ← character? (← code? [a, b, c, d, e, f, g, h])
    after (gap.text ++ [c]) (doubleIn {} rest)
  | gap, '\\' :: letter :: rest =>
    if isBreak letter then
      if atAnyMarker rest then none else after gap.text (doubleIn { isEscaped := true } rest)
    else do
      let (_, c) ← short.find? (·.1 == letter)
      after (gap.text ++ [c]) (doubleIn {} rest)
  | gap, c :: rest =>
    if isBreak c && atAnyMarker rest then none
    else if isBlank c || isBreak c then doubleIn (gap.add c) rest
    else after (gap.text ++ [c]) (doubleIn {} rest)

/-- The text up to a single quote, and what follows it. -/
def single? : List Char → Option (List Char × List Char) := singleIn {}

/-- The text up to a double quote, and what follows it. -/
def double? : List Char → Option (List Char × List Char) := doubleIn {}

end BeaconEpoch.Yaml.Quoted
