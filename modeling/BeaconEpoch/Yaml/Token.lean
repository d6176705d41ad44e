import BeaconEpoch.Yaml.Tag

/-!
# YAML tokens

## Main definitions

* `Style`: the ways to write a scalar.
* `Token`: what a text consists of, without blanks and comments.

## Design notes

* **Depth becomes brackets.** Where a line is deeper than the ones around it, a token says that a
  block starts, and another one says where it ends. A key without a sign gets a token in front, too.
-/

namespace BeaconEpoch.Yaml

/-- The ways to write a scalar: without quotes, in quotes, or as the lines of a block, which are
kept or folded. -/
inductive Style
  | plain
  | quoted
  | literal
  | folded
deriving DecidableEq, Repr, Inhabited

/-- What a text consists of. -/
inductive Token
  | directive (directive : Directive)
  | documentStart
  | documentEnd
  /-- A sequence starts, whose items stand one below the other. -/
  | sequenceBlock
  /-- A mapping starts, whose keys stand one below the other. -/
  | mappingBlock
  /-- A block ends. -/
  | blockEnd
  | openSequence
  | closeSequence
  | openMapping
  | closeMapping
  | comma
  /-- An item of a block follows. -/
  | item
  /-- A key follows. -/
  | key
  /-- A value follows. -/
  | value
  /-- The next node has a number. -/
  | anchor (number : Nat)
  /-- The node with a number stands here. -/
  | reference (number : Nat)
  | tag (tag : Tag.Shorthand)
  | scalar (style : Style) (text : String)
deriving DecidableEq, Repr, Inhabited

end BeaconEpoch.Yaml
