import BeaconEpoch.Yaml.Token

/-!
# YAML nodes

## Main definitions

* `Properties`: the number and the tag in front of a node.
* `Node`: a scalar, a sequence, a mapping, or a node that stands elsewhere.
* `Node.text?`: the text of a scalar.
* `Node.weight`: how much there is of a node.
* `Node.anchors`: the nodes with numbers inside a node.
-/

namespace BeaconEpoch.Yaml

/-- What stands in front of a node. -/
structure Properties where
  /-- The number by which the node is known elsewhere. -/
  anchor : Option Nat := none
  tag : Option Tag := none
deriving DecidableEq, Repr, Inhabited

/-- What stands in front of a scalar that is written down: an exclamation mark alone says nothing
about it. -/
def Properties.ofWritten (properties : Properties) : Properties :=
  if properties.tag = some .bare then { properties with tag := none } else properties

/-- A node. The entries of a mapping keep their order, and keys may repeat. -/
inductive Node
  | scalar (properties : Properties) (style : Style) (text : String)
  | sequence (properties : Properties) (items : List Node)
  | mapping (properties : Properties) (entries : List (Node × Node))
  /-- The node with a number. -/
  | reference (number : Nat)
deriving Inhabited

namespace Node

/-- The node that was left out. -/
def null : Node := scalar {} .plain ""

/-- The text of a scalar. -/
def text? : Node → Option String
  | scalar _ _ text => some text
  | _ => none

/-- Whether a node stands elsewhere. -/
def isReference : Node → Bool
  | reference _ => true
  | _ => false

mutual

/-- How much there is of a node: one for a scalar or a reference, two for the ends of anything else,
and the parts. -/
def weight : Node → Nat
  | scalar .. => 1
  | reference _ => 1
  | sequence _ items => 2 + itemsWeight items
  | mapping _ entries => 2 + entriesWeight entries

/-- How much there is of some items. -/
def itemsWeight : List Node → Nat
  | [] => 0
  | item :: items => item.weight + itemsWeight items

/-- How much there is of some entries. -/
def entriesWeight : List (Node × Node) → Nat
  | [] => 0
  | (key, value) :: entries => key.weight + value.weight + entriesWeight entries

end

/-- A node with its number, if it has one. -/
def numbered (properties : Properties) (node : Node) : List (Nat × Node) :=
  (properties.anchor.map (·, node)).toList

mutual

/-- The nodes with numbers inside a node, itself included, in the order in which they start. -/
def anchors : Node → List (Nat × Node)
  | scalar properties style text => numbered properties (scalar properties style text)
  | reference _ => []
  | sequence properties items =>
    numbered properties (sequence properties items) ++ itemsAnchors items
  | mapping properties entries =>
    numbered properties (mapping properties entries) ++ entriesAnchors entries

/-- The nodes with numbers inside some items. -/
def itemsAnchors : List Node → List (Nat × Node)
  | [] => []
  | item :: items => item.anchors ++ itemsAnchors items

/-- The nodes with numbers inside some entries. -/
def entriesAnchors : List (Node × Node) → List (Nat × Node)
  | [] => []
  | (key, value) :: entries => key.anchors ++ value.anchors ++ entriesAnchors entries

end

end Node

end BeaconEpoch.Yaml
