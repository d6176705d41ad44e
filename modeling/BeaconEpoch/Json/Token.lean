import BeaconEpoch.Json.Basic
import BeaconEpoch.Json.Escape

/-!
# JSON tokens

## Main definitions

* `Mark`, `Token`: a bracket, comma or colon; a mark or a scalar.
* `Token.characters`: a token as text.
* `Scan`, `Scan.step`: where reading stands within a token, and one more character.
* `Token.scan?`: the tokens of a text.

## Design notes

* **A word ends where something else starts.** Literals and numbers are read as the longest run of
  characters that are neither blank nor a mark nor a quote, and only then looked at.
-/

namespace BeaconEpoch.Json

/-- The characters that stand between scalars. -/
inductive Mark
  | openArray
  | closeArray
  | openObject
  | closeObject
  | comma
  | colon
deriving DecidableEq, Repr

namespace Mark

/-- All marks. -/
def all : List Mark := [openArray, closeArray, openObject, closeObject, comma, colon]

/-- The character of a mark. -/
def character : Mark → Char
  | openArray => '['
  | closeArray => ']'
  | openObject => '\x7b'
  | closeObject => '\x7d'
  | comma => ','
  | colon => ':'

/-- The mark with this character. -/
def ofChar? (c : Char) : Option Mark := all.find? (·.character == c)

theorem ofChar?_character (mark : Mark) : ofChar? mark.character = some mark := by
  cases mark <;> decide

end Mark

/-! ## Scalars -/

namespace Scalar

/-- Whether some characters are an exponent, or nothing. -/
def isExponent : List Char → Bool
  | [] => true
  | e :: rest =>
    let digits := match rest with
      | '+' :: digits => digits
      | '-' :: digits => digits
      | digits => digits
    (e == 'e' || e == 'E') && !digits.isEmpty && digits.all Char.isDigit

/-- Whether some characters are a fraction and an exponent, or one of them, or nothing. -/
def isFraction : List Char → Bool
  | '.' :: rest => (rest.head?.any Char.isDigit) && isExponent (rest.dropWhile Char.isDigit)
  | rest => isExponent rest

/-- Whether some characters are a number: a sign, digits without a leading zero, a fraction and an
exponent, of which only the digits have to be there. -/
def isNumber (word : List Char) : Bool :=
  let unsigned := match word with
    | '-' :: unsigned => unsigned
    | unsigned => unsigned
  (Numeral.decimal? (unsigned.takeWhile Char.isDigit)).isSome &&
    isFraction (unsigned.dropWhile Char.isDigit)

/-- The scalar that a word is. -/
def ofWord? (word : List Char) : Option Scalar :=
  match Numeral.decimal? word with
  | some n => some (.nat n)
  | none =>
    match String.ofList word with
    | "null" => some .null
    | "true" => some (.bool true)
    | "false" => some (.bool false)
    | written => if isNumber word then some (.number written) else none

/-- The text whose characters, as they are written, stand between two quotes. -/
def ofWritten? (written : List Char) : Option Scalar :=
  match Escape.decode? written with
  | some value => some (.text (String.ofList value))
  | none => if Escape.isWritten written then some (.unpaired (String.ofList written)) else none

/-- A scalar as it is written. -/
def characters : Scalar → List Char
  | null => "null".toList
  | bool true => "true".toList
  | bool false => "false".toList
  | nat n => Nat.toDigits 10 n
  | number written => written.toList
  | text value => '"' :: Escape.encode value.toList ++ ['"']
  | unpaired written => '"' :: written.toList ++ ['"']

end Scalar

/-! ## Tokens -/

/-- A mark or a scalar. -/
inductive Token
  | mark (mark : Mark)
  | scalar (value : Scalar)
deriving DecidableEq, Repr

/-- A token as it is written. -/
def Token.characters : Token → List Char
  | .mark m => [m.character]
  | .scalar value => value.characters

/-- The blanks between tokens. -/
def isBlank (c : Char) : Bool := c == ' ' || c == '\n' || c == '\r' || c == '\t'

/-- Where reading stands. What was read of a token comes last character first. -/
inductive Scan
  /-- Between two tokens. -/
  | blank
  /-- In a literal or a number. -/
  | word (read : List Char)
  /-- In a text. -/
  | text (read : List Char)
  /-- In a text, after a backslash. -/
  | escape (read : List Char)
deriving Inhabited

namespace Scan

/-- What was read so far: the token that is being read, and the tokens before it, last one first. -/
abbrev Progress := Scan × List Token

/-- Reads a character between two tokens. -/
def start (tokens : List Token) (c : Char) : Progress :=
  if isBlank c then (blank, tokens)
  else if c = '"' then (text [], tokens)
  else match Mark.ofChar? c with
    | some mark => (blank, .mark mark :: tokens)
    | none => (word [c], tokens)

/-- Whether a character ends a word. -/
def endsWord (c : Char) : Bool := isBlank c || c == '"' || (Mark.ofChar? c).isSome

/-- Reads one more character. -/
def step : Progress → Char → Option Progress
  | (blank, tokens), c => some (start tokens c)
  | (word read, tokens), c =>
    if endsWord c then do
      let value ← Scalar.ofWord? read.reverse
      return start (.scalar value :: tokens) c
    else some (word (c :: read), tokens)
  | (text read, tokens), c =>
    if c = '"' then do
      let value ← Scalar.ofWritten? read.reverse
      return (blank, .scalar value :: tokens)
    else if c = '\\' then some (escape (c :: read), tokens)
    else some (text (c :: read), tokens)
  | (escape read, tokens), c => some (text (c :: read), tokens)

/-- The tokens at the end of a text. -/
def finish : Progress → Option (List Token)
  | (blank, tokens) => some tokens.reverse
  | (word read, tokens) => do
    let value ← Scalar.ofWord? read.reverse
    return (.scalar value :: tokens).reverse
  | (text _, _) => none
  | (escape _, _) => none

end Scan

/-- The tokens of a text. -/
def Token.scan? (text : List Char) : Option (List Token) := do
  Scan.finish (← text.foldlM Scan.step (.blank, []))

end BeaconEpoch.Json
