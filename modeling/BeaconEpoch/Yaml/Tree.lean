import BeaconEpoch.Yaml.Node

/-!
# Nodes of tokens

## Main definitions

* `Setting`: where a node stands.
* `Reading`: something that is read from the start of some tokens.
* `Node.properties`, `Node.optional`: what stands in front of a node, and a part that may be left
  out.
* `Node.read`, `Node.ofTokens?`: the node at the start of some tokens.

## Design notes

* **A part may be left out.** Where a part is expected and something else follows, the part is a
  node that was left out. Which tokens may follow depends on what the part belongs to.
-/

namespace BeaconEpoch.Yaml

/-- Where a node stands. -/
inductive Setting
  /-- In brackets, where no block can be. -/
  | brackets
  /-- Alone, or as an item of a block. -/
  | item
  /-- As a key or value of a block. A sequence may be as deep there as the keys. -/
  | entry
deriving DecidableEq, Repr

/-! ## Readings -/

/-- Something that is read from the start of some tokens and leaves the others. -/
abbrev Reading := StateT (List Token) Option

namespace Reading

/-- Takes a token. -/
def next : Reading Token
  | [] => none
  | token :: rest => some (token, rest)

/-- Whether the next token is one of some. -/
def isNext (tokens : List Token) : Reading Bool := do
  return (← get).head?.any tokens.contains

/-- Takes a token if it is this one. -/
def takes (token : Token) : Reading Bool
  | [] => some (false, [])
  | first :: rest => some (if first = token then (true, rest) else (false, first :: rest))

end Reading

namespace Node

open Reading

/-! ## Parts -/

/-- What stands in front of a node, in either order. -/
def properties (handles : Handles) : Reading Properties
  | .anchor number :: .tag tag :: rest => do
    return ({ anchor := some number, tag := some (← tag.resolve? handles) }, rest)
  | .tag tag :: .anchor number :: rest => do
    return ({ anchor := some number, tag := some (← tag.resolve? handles) }, rest)
  | .anchor number :: rest => some ({ anchor := some number }, rest)
  | .tag tag :: rest => do return ({ tag := some (← tag.resolve? handles) }, rest)
  | rest => some ({}, rest)

/-- A part that may be left out before some tokens. -/
def optional (before : List Token) (part : Reading Node) : Reading Node := do
  if ← isNext before then return null else part

/-- A part behind a sign, which may be left out together with the sign. -/
def behind (sign : Token) (part : Reading Node) : Reading Node := do
  if ← takes sign then part else return null

/-- The tokens before which a part of a block mapping may be left out. -/
def entryEnds : List Token := [.key, .value, .blockEnd]

/-! ## Nodes -/

mutual

/-- A node, in so many steps. -/
def read (handles : Handles) : (steps : Nat) → Setting → Reading Node
  | 0, _ => failure
  | steps + 1, setting => do
    if let some (.reference number) := (← get).head? then
      discard next
      return reference number
    let properties ← properties handles
    match (← get).head?, setting with
    | some (.scalar style text), _ =>
      discard next
      return scalar properties.ofWritten style text
    | some .openSequence, _ =>
      discard next
      return sequence properties (← readBracketItems handles steps)
    | some .openMapping, _ =>
      discard next
      return mapping properties (← readBracketEntries handles steps)
    | some .item, .entry => return sequence properties (← readFlatItems handles steps)
    | some .sequenceBlock, .item | some .sequenceBlock, .entry =>
      discard next
      return sequence properties (← readItems handles steps)
    | some .mappingBlock, .item | some .mappingBlock, .entry =>
      discard next
      return mapping properties (← readEntries handles steps)
    | _, _ => if properties = {} then failure else return scalar properties .plain ""

/-- The items of a block up to its end. -/
def readItems (handles : Handles) : (steps : Nat) → Reading (List Node)
  | 0 => failure
  | steps + 1 => do
    match ← next with
    | .item =>
      let item ← optional [.item, .blockEnd] (read handles steps .item)
      return item :: (← readItems handles steps)
    | .blockEnd => return []
    | _ => failure

/-- The items of a sequence that is as deep as the keys around it. -/
def readFlatItems (handles : Handles) : (steps : Nat) → Reading (List Node)
  | 0 => failure
  | steps + 1 => do
    if ← takes .item then
      let item ← optional (.item :: entryEnds) (read handles steps .item)
      return item :: (← readFlatItems handles steps)
    else return []

/-- The entries of a block up to its end. -/
def readEntries (handles : Handles) : (steps : Nat) → Reading (List (Node × Node))
  | 0 => failure
  | steps + 1 => do
    match ← next with
    | .key =>
      let part := optional entryEnds (read handles steps .entry)
      let key ← part
      let value ← behind .value part
      return (key, value) :: (← readEntries handles steps)
    | .blockEnd => return []
    | _ => failure

/-- The items in brackets up to the end of them. An item may be a mapping of one entry without
brackets of its own; where its key is left out, the token after the sign is passed over. -/
def readBracketItems (handles : Handles) : (steps : Nat) → Reading (List Node)
  | 0 => failure
  | steps + 1 => do
    if ← takes .closeSequence then return []
    let item ← if ← takes .key then
        let key ← if ← isNext [.value, .comma, .closeSequence] then
            discard next
            pure null
          else read handles steps .brackets
        let value ← behind .value
          (optional [.comma, .closeSequence] (read handles steps .brackets))
        pure (mapping {} [(key, value)])
      else read handles steps .brackets
    match ← next with
    | .comma => return item :: (← readBracketItems handles steps)
    | .closeSequence => return [item]
    | _ => failure

/-- The entries in brackets up to the end of them. What has no sign in front is a key without a
value. -/
def readBracketEntries (handles : Handles) : (steps : Nat) → Reading (List (Node × Node))
  | 0 => failure
  | steps + 1 => do
    if ← takes .closeMapping then return []
    let entry ← if ← takes .key then
        let key ← optional [.value, .comma, .closeMapping] (read handles steps .brackets)
        let value ← behind .value
          (optional [.comma, .closeMapping] (read handles steps .brackets))
        pure (key, value)
      else pure (← read handles steps .brackets, null)
    match ← next with
    | .comma => return entry :: (← readBracketEntries handles steps)
    | .closeMapping => return [entry]
    | _ => failure

end

/-- The node that stands alone at the start of some tokens, and what follows it. Of two steps one
takes a token, so there are enough. -/
def ofTokens? (handles : Handles) (tokens : List Token) : Option (Node × List Token) :=
  read handles (2 * tokens.length + 2) .item tokens

end Node

end BeaconEpoch.Yaml
