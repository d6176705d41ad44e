import BeaconEpoch.Config.Key
import BeaconEpoch.Yaml.Document
import BeaconEpoch.Yaml.Kind

/-!
# Entries that mean nothing

A configuration may have entries with other keys than its own. They are passed over, but what they
hold still has to be a value.

## Main definitions

* `Yaml.Properties.isValue`: whether a scalar is a value.
* `Yaml.Document.pass?`: goes over a node.
* `Yaml.Document.canPass`: whether the entries of a document can be gone over.

## Design notes

* **What has no meaning has limits all the same.** Nodes are nested to a limited depth, a document
  follows a limited number of references, and a number too wide for a word is no value.
-/

namespace BeaconEpoch.Yaml

/-- Whether a scalar is a value. A standard tag has to be true of it, and a local tag says nothing
that could be held. Without a tag, whole numbers are recognized up to 128 bits, and those beyond a
word are no values; what is longer counts as any other text. -/
def Properties.isValue (properties : Properties) (style : Style) (text : String) : Bool :=
  let isFree := style != .plain || !isWide text.toList
  match properties.tag with
  | none => isFree
  | some tag =>
    if tag.isLocal then tag.name?.isNone && isFree
    else if tag = .standard "bool" then isTruth text
    else if tag = .standard "int" then isWhole text.toList
    else if tag = .standard "float" then isReal text
    else if tag = .standard "null" then isNull text
    else true

/-- Whether a sequence or a mapping can be held: not if its tag is local. -/
def Properties.isHeld (properties : Properties) : Bool := (properties.tag.bind Tag.name?).isNone

namespace Document

/-- How deep nodes may be nested. -/
def maxDepth : Nat := 128

/-- How many references a document may follow, for each part that it has. -/
def followsPerPart : Nat := 100

/-- The number of references that may still be followed behind a node. -/
def spend? (node : Node) (left : Nat) : Option Nat :=
  if node.isReference then if left = 0 then none else some (left - 1) else some left

/-- Goes over a node with so many levels of nesting, if it is a value all through. Counts the
references that may be followed. -/
def pass? (document : Document) : (levels : Nat) → (left : Nat) → Node → Option Nat
  | levels, left, node => do
    let left ← spend? node left
    match levels, document.follow node with
    | _, .scalar properties style text => if properties.isValue style text then some left else none
    | levels + 1, .sequence properties items =>
      if properties.isHeld then items.foldlM (document.pass? levels) left else none
    | levels + 1, .mapping properties entries =>
      if properties.isHeld then
        entries.foldlM (fun left (key, value) => do
          document.pass? levels (← document.pass? levels left key) value) left
      else none
    | _, _ => none

/-- Goes over an entry of a configuration. What its own keys hold is left to those who read it. -/
def passEntry? (document : Document) (left : Nat) (entry : Node × Node) : Option Nat := do
  let (key, value) := entry
  let left ← spend? key left
  if (document.follow key).text?.any Config.Key.isName then spend? value left
  else document.pass? (maxDepth - 1) left value

/-- Whether the entries of a document can be gone over. -/
def canPass (document : Document) (entries : List (Node × Node)) : Bool :=
  (entries.foldlM document.passEntry? (followsPerPart * document.root.weight)).isSome

end Document

end BeaconEpoch.Yaml
