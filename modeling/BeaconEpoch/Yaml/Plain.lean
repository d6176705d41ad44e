import BeaconEpoch.Yaml.Gap

/-!
# Plain scalars

Scalars that stand without quotes.

## Main definitions

* `Plain.starts`: whether a text starts like a plain scalar.
* `Plain.endsWord`, `Plain.endsAfter`: where a plain scalar ends.
* `Plain.read?`: the plain scalar at the start of a text.

## Design notes

* **Only a colon, a comment or the depth of a line ends a plain scalar.** In brackets the signs of
  brackets do so too, but no line is too far left.
-/

namespace BeaconEpoch.Yaml.Plain

/-- The signs that stand for brackets and between their parts. -/
def bracketSigns : List Char := [',', '[', ']', '\x7b', '\x7d']

/-- The signs with which no plain scalar starts. -/
def startSigns : List Char :=
  bracketSigns ++ ['#', '&', '*', '!', '|', '>', '\'', '"', '%', '@', '\x60']

/-- Whether a text starts like a plain scalar: with no sign, and with a hyphen only if something
touches it. A question mark or a colon needs the same, and starts none in brackets. -/
def starts (inBrackets : Bool) : List Char → Bool
  | [] => false
  | c :: rest =>
    if c == '-' then !atGap rest
    else if c == '?' || c == ':' then !inBrackets && !atGap rest
    else !(isBlank c || isBreak c || startSigns.contains c)

/-- Whether a plain scalar ends before a text, wherever the text stands. -/
def endsWord (inBrackets : Bool) : List Char → Bool
  | [] => true
  | c :: rest => (c == ':' && atGap rest) || (inBrackets && bracketSigns.contains c)

/-- Whether a text in brackets goes on with a colon that touches a sign. -/
def clashes (inBrackets : Bool) : List Char → Bool
  | ':' :: next :: _ => inBrackets && (next == '?' || bracketSigns.contains next)
  | _ => false

/-- Whether a plain scalar ends before a text that follows a gap. -/
def endsAfter (inBrackets : Bool) (indent : Nat) (gap : Gap) (text : List Char) : Bool :=
  text.head? == some '#' ||
    (gap.isBroken &&
      ((!inBrackets && gap.depth < indent) || (gap.depth == 0 && atAnyMarker text)))

/-- The rest of a plain scalar after a gap, whether a gap over a line follows it, and what comes
then. A tab must not stand where the depth of a line is measured. -/
def readIn (inBrackets : Bool) (indent : Nat) :
    Gap → List Char → Option (List Char × Bool × List Char)
  | gap, [] => some ([], gap.isBroken, [])
  | gap, c :: rest =>
    if c == '\t' && gap.isBroken && gap.depth < indent then none
    else if isBlank c || isBreak c then readIn inBrackets indent (gap.add c) rest
    else if !gap.isEmpty && endsAfter inBrackets indent gap (c :: rest) then
      some ([], gap.isBroken, c :: rest)
    else if clashes inBrackets (c :: rest) then none
    else if endsWord inBrackets (c :: rest) then some ([], gap.isBroken, c :: rest)
    else (readIn inBrackets indent {} rest).map fun (text, isBroken, rest) =>
      (gap.text ++ c :: text, isBroken, rest)

/-- The plain scalar at the start of a text, whether a gap over a line follows it, and what comes
then. Its lines have to be at least `indent` deep. -/
def read? (inBrackets : Bool) (indent : Nat) (text : List Char) :
    Option (List Char × Bool × List Char) :=
  readIn inBrackets indent {} text

end BeaconEpoch.Yaml.Plain
