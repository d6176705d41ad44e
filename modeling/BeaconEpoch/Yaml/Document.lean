import BeaconEpoch.Yaml.Layout
import BeaconEpoch.Yaml.Tree

/-!
# YAML documents

## Main definitions

* `Document`: a node, and the nodes that are known by numbers.
* `Document.follow`: the node that stands where a reference is.
* `Document.ofTokens?`, `Document.parse?`: the only document of some tokens and of a text.

## Design notes

* **References stay in the tree.** A node may hold a reference to itself, so only those who look at
  a node follow the references in it.
-/

namespace BeaconEpoch.Yaml

/-- A node, and the nodes that are known by numbers. -/
structure Document where
  root : Node
  /-- The numbers and their nodes, last one first. -/
  anchors : List (Nat × Node)
deriving Inhabited

namespace Document

/-- The document with a node. -/
def ofRoot (root : Node) : Document := { root, anchors := root.anchors.reverse }

/-- The node that stands where another one does: for a reference, the last node with its number. -/
def follow (document : Document) : Node → Node
  | .reference number => (document.anchors.lookup number).getD .null
  | node => node

/-! ## Directives -/

/-- Whether a document of a version can be read. -/
def isKnownVersion (major minor : Nat) : Bool := major == 1 && (minor == 1 || minor == 2)

/-- What the directives at the start of some tokens say, and the tokens behind them. At most one of
them gives the version, and no two are for one handle. -/
def directives? (hasVersion : Bool) (handles : Handles) :
    List Token → Option (Handles × List Token)
  | .directive (.version major minor) :: rest =>
    if hasVersion || !isKnownVersion major minor then none else directives? true handles rest
  | .directive (.handle name start) :: rest =>
    if (handles.lookup name).isSome then none
    else directives? hasVersion ((name, start) :: handles) rest
  | rest => some (handles, rest)

/-! ## Reading -/

/-- Whether a token ends a document that says nothing. -/
def endsEmpty : Token → Bool
  | .directive _ => true
  | .documentStart => true
  | .documentEnd => true
  | _ => false

/-- The only document of some tokens. It may be left out, or say nothing behind a marker. Behind it
there are only markers of its end. -/
def ofTokens? (tokens : List Token) : Option Document := do
  let (handles, content) ← directives? false [] tokens
  let handles := handles ++ Handles.standard
  let (root, rest) ← match content with
    | .documentStart :: rest =>
      if rest.head?.all endsEmpty then some (Node.null, rest) else Node.ofTokens? handles rest
    | [] => if tokens.isEmpty then some (Node.null, []) else none
    | _ => if content.length = tokens.length then Node.ofTokens? handles content else none
  if rest.all (· == .documentEnd) then return ofRoot root else none

/-- The only document of a text. -/
def parse? (text : String) : Option Document :=
  if text.toList.all isPrintable then
    (Token.ofText? (unifyBreaks text.toList)).bind ofTokens?
  else none

end Document

end BeaconEpoch.Yaml
