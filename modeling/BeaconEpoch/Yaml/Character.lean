/-!
# Characters of a YAML text

## Main definitions

* `isBlank`, `isBreak`, `isPrintable`, `isNameChar`: kinds of characters.
* `unifyBreaks`: a text with one character for each break.
* `atGap`, `atMarker`: whether a text goes on with a gap, or with a marker around a document.

## Design notes

* **A break is one character.** A text is rewritten once, before anything else looks at it, so that
  every reader may go character by character.
-/

namespace BeaconEpoch.Yaml

/-- Whether a character is a space or a tab. -/
def isBlank (c : Char) : Bool := c == ' ' || c == '\t'

/-- Whether a character ends a line. -/
def isBreak (c : Char) : Bool :=
  c == '\n' || c == '\r' || c == '\x85' || c == '\u2028' || c == '\u2029'

/-- Whether a text may hold a character: control characters are out, except for tabs and breaks. -/
def isPrintable (c : Char) : Bool :=
  isBlank c || isBreak c || (0x20 ≤ c.toNat && c.toNat ≤ 0x7e)
    || (0xa0 ≤ c.toNat && c.toNat ≤ 0xd7ff) || (0xe000 ≤ c.toNat && c.toNat ≤ 0xfffd)
    || 0x10000 ≤ c.toNat

/-- Whether a character may stand in the name of an anchor, a directive or a handle. Only letters
and digits of ASCII may. -/
def isNameChar (c : Char) : Bool := c.isAlphanum || c == '-' || c == '_'

/-- A text with one character for each break. The separators of lines and paragraphs stay what they
are, and every other break becomes a line feed. -/
def unifyBreaks : List Char → List Char
  | [] => []
  | '\r' :: '\n' :: rest => '\n' :: unifyBreaks rest
  | c :: rest => (if c == '\r' || c == '\x85' then '\n' else c) :: unifyBreaks rest

/-- Whether a text is at an end or goes on with a blank or a break. -/
def atGap (text : List Char) : Bool := text.head?.all fun c => isBlank c || isBreak c

/-- Whether a text goes on with three signs that nothing touches. At the start of a line they are a
marker. -/
def atMarker (sign : Char) (text : List Char) : Bool :=
  text.take 3 == [sign, sign, sign] && atGap (text.drop 3)

/-- Whether a text goes on with a marker of either kind. -/
def atAnyMarker (text : List Char) : Bool := atMarker '-' text || atMarker '.' text

end BeaconEpoch.Yaml
