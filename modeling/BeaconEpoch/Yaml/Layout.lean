import BeaconEpoch.Yaml.BlockScalar
import BeaconEpoch.Yaml.Plain
import BeaconEpoch.Yaml.Quoted
import BeaconEpoch.Yaml.Token

/-!
# Layout

How the lines of a text and their depths become tokens.

## Main definitions

* `Position`: a place in a text.
* `Candidate`: a place where a key may have begun.
* `Layout`: where reading stands, and what is known of the text before.
* `Layout.skipGap`, `Layout.step?`, `Layout.finish?`: to the next token, over it, and at the end.
* `Token.ofText?`: the tokens of a text.

## Design notes

* **A key shows itself late.** Only the colon behind it tells that something was a key. So the place
  where one may have begun is kept, and the token for it is put there afterwards. A key has to end
  on the line on which it begins, after at most 1024 characters.
* **Where a key would be all that is possible, it is required.** That is so for whatever stands as
  deep as the keys of the block around it.
-/

namespace BeaconEpoch.Yaml

/-! ## Places -/

/-- A place in a text. -/
structure Position where
  /-- The number of characters before it. -/
  index : Nat := 0
  /-- The number of lines before it. -/
  line : Nat := 0
  /-- The number of characters before it on its line. -/
  column : Nat := 0
deriving DecidableEq, Repr, Inhabited

namespace Position

/-- The place behind a character. -/
def next (position : Position) (c : Char) : Position :=
  if isBreak c then { index := position.index + 1, line := position.line + 1, column := 0 }
  else { position with index := position.index + 1, column := position.column + 1 }

/-- The place behind some characters. -/
def past (position : Position) (text : List Char) : Position := text.foldl next position

end Position

/-- A place where a key may have begun. -/
structure Candidate where
  /-- The number of tokens before it. -/
  tokens : Nat
  /-- Where it is. -/
  position : Position
  /-- Whether nothing but a key is possible there. -/
  isRequired : Bool
deriving DecidableEq, Repr, Inhabited

namespace Candidate

/-- The most characters that a key may have. -/
def maxLength : Nat := 1024

/-- Whether a place is too far behind for the key to end there. -/
def isPassed (candidate : Candidate) (position : Position) : Bool :=
  candidate.position.line < position.line ||
    candidate.position.index + maxLength < position.index

/-- A candidate that may be given up. A key that is required is not given up. -/
def drop? (candidate : Option Candidate) : Option (Option Candidate) :=
  if candidate.any (·.isRequired) then none else some none

/-- A candidate as it counts at a place. -/
def keep? (position : Position) (candidate : Option Candidate) : Option (Option Candidate) :=
  if candidate.any (·.isPassed position) then drop? candidate else some candidate

end Candidate

/-! ## Layouts -/

/-- Where reading stands, and what is known of the text before. -/
structure Layout where
  /-- The text that is still to be read. -/
  rest : List Char
  /-- Where it begins. -/
  position : Position := {}
  /-- The tokens so far, last one first. -/
  tokens : List Token := []
  /-- The columns of the open blocks, innermost first. -/
  blocks : List Nat := []
  /-- Where a key may have begun. -/
  candidate : Option Candidate := none
  /-- Where a key may have begun outside each of the open brackets, innermost first. -/
  outer : List (Option Candidate) := []
  /-- Whether a key may begin here. -/
  mayStartKey : Bool := true
  /-- The names of the anchors so far and their numbers. -/
  anchors : List (String × Nat) := []
deriving Inhabited

namespace Layout

/-- Whether a bracket is open. -/
def inBrackets (layout : Layout) : Bool := !layout.outer.isEmpty

/-- How deep a line has to be to belong to what the innermost block holds. -/
def indent (layout : Layout) : Nat := (layout.blocks.head?.map (· + 1)).getD 0

/-- The layout with a token more. -/
def push (token : Token) (layout : Layout) : Layout :=
  { layout with tokens := token :: layout.tokens }

/-- The layout at the start of a rest of its text. -/
def moveTo (rest : List Char) (layout : Layout) : Layout :=
  let passed := layout.rest.take (layout.rest.length - rest.length)
  { layout with rest, position := layout.position.past passed }

/-- The layout behind some more characters. -/
def skip (count : Nat) (layout : Layout) : Layout := layout.moveTo (layout.rest.drop count)

/-! ### Blocks and keys -/

/-- Closes the blocks that are deeper than a column, or all of them. In brackets depth means
nothing. -/
def closeBlocks (column : Option Nat) (layout : Layout) : Layout :=
  if layout.inBrackets then layout
  else
    let isClosed (block : Nat) : Bool := column.all (· < block)
    let closed := layout.blocks.takeWhile isClosed
    { layout with
      blocks := layout.blocks.drop closed.length
      tokens := List.replicate closed.length .blockEnd ++ layout.tokens }

/-- Whether something at a column starts a block. -/
def startsBlock (column : Nat) (layout : Layout) : Bool :=
  !layout.inBrackets && layout.blocks.head?.all (· < column)

/-- Opens a block at the column where reading stands, unless there is one already. -/
def openBlock (token : Token) (layout : Layout) : Layout :=
  if layout.startsBlock layout.position.column then
    { layout.push token with blocks := layout.position.column :: layout.blocks }
  else layout

/-- Gives up the place where a key may have begun. -/
def dropCandidate? (layout : Layout) : Option Layout := do
  return { layout with candidate := ← Candidate.drop? layout.candidate }

/-- Remembers that a key may begin here. -/
def saveCandidate? (layout : Layout) : Option Layout := do
  if layout.mayStartKey then
    let layout ← layout.dropCandidate?
    let isRequired := !layout.inBrackets && layout.blocks.head? == some layout.position.column
    return { layout with candidate := some {
      tokens := layout.tokens.length, position := layout.position, isRequired } }
  else return layout

/-- Gives up the places where a key can have begun no longer. -/
def keepCandidates? (layout : Layout) : Option Layout := do
  return { layout with
    candidate := ← Candidate.keep? layout.position layout.candidate
    outer := ← layout.outer.mapM (Candidate.keep? layout.position) }

/-- Puts the token for a key to where the key began. -/
def insertKey (candidate : Candidate) (layout : Layout) : Layout :=
  let column := candidate.position.column
  let newer := layout.tokens.length - candidate.tokens
  let before := layout.tokens.drop newer
  let (before, blocks) :=
    if layout.startsBlock column then (.mappingBlock :: before, column :: layout.blocks)
    else (before, layout.blocks)
  { layout with tokens := layout.tokens.take newer ++ .key :: before, blocks }

/-! ### Signs -/

/-- Reads a percent sign at the start of a line, and the line. -/
def directive? (layout : Layout) : Option Layout := do
  let layout ← (layout.closeBlocks none).dropCandidate?
  let (directive, rest) ← Directive.read? (layout.rest.drop 1)
  let rest ← match BlockScalar.afterRemark rest with
    | [] => some []
    | c :: below => if isBreak c then some below else none
  return { (layout.push (.directive directive)).moveTo rest with mayStartKey := false }

/-- Reads a marker. -/
def marker? (token : Token) (layout : Layout) : Option Layout := do
  let layout ← (layout.closeBlocks none).dropCandidate?
  return { (layout.push token).skip 3 with mayStartKey := false }

/-- Reads a bracket that opens. It may be the start of a key. -/
def open? (token : Token) (layout : Layout) : Option Layout := do
  let layout ← layout.saveCandidate?
  return { (layout.push token).skip 1 with
    candidate := none, outer := layout.candidate :: layout.outer, mayStartKey := true }

/-- Reads a bracket that closes. -/
def close? (token : Token) (layout : Layout) : Option Layout := do
  let layout ← layout.dropCandidate?
  return { (layout.push token).skip 1 with
    candidate := layout.outer.head?.join, outer := layout.outer.drop 1, mayStartKey := false }

/-- Reads a comma. -/
def comma? (layout : Layout) : Option Layout := do
  let layout ← layout.dropCandidate?
  return { (layout.push .comma).skip 1 with mayStartKey := true }

/-- Reads a hyphen in front of an item. -/
def item? (layout : Layout) : Option Layout := do
  guard (layout.inBrackets || layout.mayStartKey)
  let layout ← (layout.openBlock .sequenceBlock).dropCandidate?
  return { (layout.push .item).skip 1 with mayStartKey := true }

/-- Reads a question mark in front of a key. -/
def key? (layout : Layout) : Option Layout := do
  guard (layout.inBrackets || layout.mayStartKey)
  let layout ← (layout.openBlock .mappingBlock).dropCandidate?
  return { (layout.push .key).skip 1 with mayStartKey := !layout.inBrackets }

/-- Reads a colon in front of a value. A key that shows itself by it is not the start of another
one. -/
def value? (layout : Layout) : Option Layout := do
  match layout.candidate with
  | some candidate =>
    let layout := layout.insertKey candidate
    return { (layout.push .value).skip 1 with candidate := none, mayStartKey := false }
  | none =>
    guard (layout.inBrackets || layout.mayStartKey)
    let layout := layout.openBlock .mappingBlock
    return { (layout.push .value).skip 1 with mayStartKey := !layout.inBrackets }

/-! ### Names -/

/-- The name behind a sign, and what follows it. Few signs may touch a name. -/
def name? (text : List Char) : Option (String × List Char) :=
  let name := text.takeWhile isNameChar
  let rest := text.drop name.length
  if !name.isEmpty &&
      (atGap rest || rest.head?.any ['?', ':', ',', ']', '\x7d', '%', '@', '\x60'].contains) then
    some (String.ofList name, rest)
  else none

/-- Reads an anchor. Its number is how many names there are in front of it; a name that was given
before gets a new number. -/
def anchor? (layout : Layout) : Option Layout := do
  let layout ← layout.saveCandidate?
  let (name, rest) ← name? (layout.rest.drop 1)
  let number := layout.anchors.length
  return { (layout.push (.anchor number)).moveTo rest with
    anchors := (name, number) :: layout.anchors.filter (·.1 != name), mayStartKey := false }

/-- Reads a reference. There has to be an anchor of its name. -/
def reference? (layout : Layout) : Option Layout := do
  let layout ← layout.saveCandidate?
  let (name, rest) ← name? (layout.rest.drop 1)
  let number ← layout.anchors.lookup name
  return { (layout.push (.reference number)).moveTo rest with mayStartKey := false }

/-- Reads a tag. In brackets a comma may touch it. -/
def tag? (layout : Layout) : Option Layout := do
  let layout ← layout.saveCandidate?
  let (tag, rest) ← Tag.Shorthand.read? (layout.rest.drop 1)
  guard (atGap rest || (layout.inBrackets && rest.head? == some ','))
  return { (layout.push (.tag tag)).moveTo rest with mayStartKey := false }

/-! ### Scalars -/

/-- Reads a quoted scalar. -/
def quoted? (read : List Char → Option (List Char × List Char)) (layout : Layout) :
    Option Layout := do
  let layout ← layout.saveCandidate?
  let (text, rest) ← read (layout.rest.drop 1)
  let token := Token.scalar .quoted (String.ofList text)
  return { (layout.push token).moveTo rest with mayStartKey := false }

/-- Reads a plain scalar. On a new line behind it a key may begin. -/
def plain? (layout : Layout) : Option Layout := do
  let layout ← layout.saveCandidate?
  let (text, isBroken, rest) ← Plain.read? layout.inBrackets layout.indent layout.rest
  let token := Token.scalar .plain (String.ofList text)
  return { (layout.push token).moveTo rest with mayStartKey := isBroken }

/-- Reads a block scalar. Behind it a key may begin. -/
def block? (style : Style) (layout : Layout) : Option Layout := do
  let layout ← layout.dropCandidate?
  let (text, rest) ←
    BlockScalar.read? (style == .folded) (layout.blocks.headD 0) (layout.rest.drop 1)
  let token := Token.scalar style (String.ofList text)
  return { (layout.push token).moveTo rest with mayStartKey := true }

/-! ### Reading -/

/-- The text behind blanks, comments and breaks, and whether a key may begin there. A byte order
mark may start a line. Where a key may begin on a line, no tab stands in front of it. -/
def gapIn (inBrackets : Bool) :
    (atStart mayStartKey inRemark : Bool) → List Char → List Char × Bool
  | _, mayStartKey, _, [] => ([], mayStartKey)
  | atStart, mayStartKey, inRemark, c :: rest =>
    if isBreak c then gapIn inBrackets true (mayStartKey || !inBrackets) false rest
    else if inRemark then gapIn inBrackets false mayStartKey true rest
    else if c == '#' then gapIn inBrackets false mayStartKey true rest
    else if c == ' ' || (c == '\t' && (inBrackets || !mayStartKey)) ||
        (c == '\ufeff' && atStart) then
      gapIn inBrackets false mayStartKey false rest
    else (c :: rest, mayStartKey)

/-- The layout at the next token. -/
def skipGap (layout : Layout) : Layout :=
  let (rest, mayStartKey) :=
    gapIn layout.inBrackets (layout.position.column == 0) layout.mayStartKey false layout.rest
  { layout.moveTo rest with mayStartKey }

/-- Reads the token that starts with a sign. -/
def sign? (layout : Layout) : Char → Option Layout
  | '[' => layout.open? .openSequence
  | '\x7b' => layout.open? .openMapping
  | ']' => layout.close? .closeSequence
  | '\x7d' => layout.close? .closeMapping
  | ',' => layout.comma?
  | '*' => layout.reference?
  | '&' => layout.anchor?
  | '!' => layout.tag?
  | '\'' => layout.quoted? Quoted.single?
  | '"' => layout.quoted? Quoted.double?
  | '|' => if layout.inBrackets then none else layout.block? .literal
  | '>' => if layout.inBrackets then none else layout.block? .folded
  | _ => none

/-- Reads the token at which reading stands. -/
def step? (layout : Layout) : Option Layout := do
  let layout := (← layout.keepCandidates?).closeBlocks layout.position.column
  match layout.rest with
  | [] => none
  | c :: rest =>
    let atStart := layout.position.column == 0
    if atStart && c == '%' then layout.directive?
    else if atStart && atMarker '-' layout.rest then layout.marker? .documentStart
    else if atStart && atMarker '.' layout.rest then layout.marker? .documentEnd
    else if c == '-' && atGap rest then layout.item?
    else if c == '?' && (layout.inBrackets || atGap rest) then layout.key?
    else if c == ':' && (layout.inBrackets || atGap rest) then layout.value?
    else if Plain.starts layout.inBrackets layout.rest then layout.plain?
    else layout.sign? c

/-- The tokens at the end of a text. -/
def finish? (layout : Layout) : Option (List Token) := do
  let layout ← (← layout.keepCandidates?).dropCandidate?
  return (layout.closeBlocks none).tokens.reverse

/-- Reads to the end of the text in so many steps. -/
def readIn : (steps : Nat) → Layout → Option (List Token)
  | steps, layout =>
    let layout := layout.skipGap
    if layout.rest.isEmpty then layout.finish?
    else match steps with
      | 0 => none
      | steps + 1 => layout.step?.bind (readIn steps)

end Layout

/-- The tokens of a text. Each of them takes a character, so there are enough steps. -/
def Token.ofText? (text : List Char) : Option (List Token) :=
  Layout.readIn text.length { rest := text }

end BeaconEpoch.Yaml
