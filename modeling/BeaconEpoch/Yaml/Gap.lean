import BeaconEpoch.Yaml.Character

/-!
# Gaps in scalars

The blanks and breaks between two words of a scalar, and what they count as.

## Main definitions

* `foldBreaks`: what some breaks in a row count as.
* `Gap`, `Gap.add`, `Gap.text`: a gap, one more character of it, and what it counts as.
-/

namespace BeaconEpoch.Yaml

/-- What some breaks in a row count as. A line feed alone counts as a space, and before other breaks
as nothing. -/
def foldBreaks : List Char → List Char
  | ['\n'] => [' ']
  | '\n' :: breaks => breaks
  | breaks => breaks

/-- A gap: blanks and breaks in a row. -/
structure Gap where
  /-- Whether the gap starts with a break after a backslash. That break does not count. -/
  isEscaped : Bool := false
  /-- The blanks before the first break. -/
  blanks : List Char := []
  /-- The breaks that count. -/
  breaks : List Char := []
  /-- The number of blanks after the last break. -/
  depth : Nat := 0
deriving Inhabited

namespace Gap

/-- The gap with one more blank or break in it. -/
def add (gap : Gap) (c : Char) : Gap :=
  if isBreak c then { gap with breaks := gap.breaks ++ [c], depth := 0 }
  else if gap.isEscaped || !gap.breaks.isEmpty then { gap with depth := gap.depth + 1 }
  else { gap with blanks := gap.blanks ++ [c] }

/-- Whether there is nothing in the gap. -/
def isEmpty (gap : Gap) : Bool := !gap.isEscaped && gap.blanks.isEmpty && gap.breaks.isEmpty

/-- Whether the gap goes over a line. -/
def isBroken (gap : Gap) : Bool := !gap.breaks.isEmpty

/-- What the gap counts as. Blanks around breaks do not count. -/
def text (gap : Gap) : List Char :=
  if gap.isEscaped then gap.breaks
  else if gap.breaks.isEmpty then gap.blanks
  else foldBreaks gap.breaks

end Gap

end BeaconEpoch.Yaml
