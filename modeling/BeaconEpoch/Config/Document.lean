import BeaconEpoch.Config.Basic
import BeaconEpoch.Config.Unknown
import BeaconEpoch.Yaml.Kind

/-!
# Configuration texts

## Main definitions

* `Config.valueText`, `Config.render`: a value and a configuration as text.
* `Config.word?`, `Config.choice?`: what the node of a value is read as.
* `Config.ofEntries?`, `Config.ofDocument?`: the configuration that some entries and a document set.
* `Config.parse`: the configuration of a text, which has to be without fault.

## Design notes

* **What is left out has its default; what is unknown is only listed.** Every value is looked up by
  its key, so the order of the entries means nothing.
* **A key says how its value is read.** The same text is a name under one key and a number under
  another.
-/

namespace BeaconEpoch.Config

/-! ## Writing -/

/-- The text of a value. -/
def valueText (config : Config) : Key → String
  | .configName => config.name
  | .presetBase => config.presetBase.name
  | .altairForkEpoch => toString config.altairForkEpoch.toNat
  | .bellatrixForkEpoch => toString config.bellatrixForkEpoch.toNat
  | .capellaForkEpoch => toString config.capellaForkEpoch.toNat
  | .secondsPerSlot => toString config.secondsPerSlot.val.toNat
  | .inactivityScoreBias => toString config.scoreBias.val.toNat
  | .inactivityScoreRecoveryRate => toString config.scoreRecoveryRate.toNat
  | .baseRewardAdjustment => config.adjustment.name

/-- A configuration as text: a line per key. Names stand without quotes. -/
def render (config : Config) : String :=
  String.join (Key.all.map fun key => key.name ++ ": " ++ config.valueText key ++ "\n")

/-! ## Reading -/

/-- The word that a node is. It has to stand without quotes, unless it is the lines of a block and
tagged as a whole number. -/
def word? : Yaml.Node → Option UInt64
  | .scalar properties style text =>
    if style = .plain ∨ (style = .literal ∧ properties.tag = some (.standard "int")) then
      (Yaml.numeral? text.toList).bind Numeral.word?
    else none
  | _ => none

/-- The word other than zero that a node is. -/
def positive? (node : Yaml.Node) : Option PositiveWord := do
  let w ← word? node
  if h : w ≠ 0 then some ⟨w, h⟩ else none

/-- The name that a node chooses: its text, or its own tag if it says nothing else. -/
def choice? : Yaml.Node → Option String
  | .scalar properties style text =>
    match properties.tag.bind Yaml.Tag.name? with
    | some name => if style = .plain ∧ (text = "" ∨ Yaml.isNull text) then some name else none
    | none => some text
  | _ => none

/-- The preset that a node is. -/
def preset? (node : Yaml.Node) : Option Preset := (choice? node).bind Preset.ofName?

/-- The adjustment that a node is. -/
def adjustment? (node : Yaml.Node) : Option Adjustment := (choice? node).bind Adjustment.ofName?

/-- The value of a key, or a default. A key must not be given twice. -/
def lookup? {α : Type} (entries : List (String × Yaml.Node)) (key : Key)
    (read : Yaml.Node → Option α) (fallback : α) : Option α :=
  match entries.filter (·.1 == key.name) with
  | [] => some fallback
  | [(_, node)] => read node
  | _ => none

/-- The keys that mean nothing, in order and without repetition. -/
def unknownKeys (entries : List (String × Yaml.Node)) : List String :=
  (((entries.map (·.1)).filter (!Key.isName ·)).eraseDups).mergeSort (· ≤ ·)

/-- The configuration that some entries set. -/
def ofEntries? (entries : List (String × Yaml.Node)) : Option Config := do
  return {
    name := ← lookup? entries .configName Yaml.Node.text? default.name
    presetBase := ← lookup? entries .presetBase preset? default.presetBase
    altairForkEpoch := ← lookup? entries .altairForkEpoch word? default.altairForkEpoch
    bellatrixForkEpoch := ← lookup? entries .bellatrixForkEpoch word? default.bellatrixForkEpoch
    capellaForkEpoch := ← lookup? entries .capellaForkEpoch word? default.capellaForkEpoch
    secondsPerSlot := ← lookup? entries .secondsPerSlot positive? default.secondsPerSlot
    scoreBias := ← lookup? entries .inactivityScoreBias positive? default.scoreBias
    scoreRecoveryRate :=
      ← lookup? entries .inactivityScoreRecoveryRate word? default.scoreRecoveryRate
    adjustment := ← lookup? entries .baseRewardAdjustment adjustment? default.adjustment
    unknown := unknownKeys entries }

/-- The entry that two nodes are. Either of them may stand elsewhere, and the key has to be a
scalar. -/
def entry? (document : Yaml.Document) (key value : Yaml.Node) : Option (String × Yaml.Node) := do
  return (← (document.follow key).text?, document.follow value)

/-- The configuration of a document. One that says nothing sets nothing. -/
def ofDocument? (document : Yaml.Document) : Option Config :=
  match document.root with
  | .mapping _ entries => do
    guard (document.canPass entries)
    ofEntries? (← entries.mapM fun (key, value) => entry? document key value)
  | .scalar _ .plain "" => ofEntries? []
  | _ => none

/-- Why a text is no configuration. -/
inductive Refusal
  /-- It is no mapping, or a value is not of its kind. -/
  | malformed
  /-- The configuration that it sets has a fault. -/
  | fault (fault : Fault)
deriving DecidableEq, Repr

/-- The configuration of a text. -/
def parse (text : String) : Except Refusal Config :=
  match (Yaml.Document.parse? text).bind ofDocument? with
  | none => .error .malformed
  | some config =>
    match config.validate with
    | .ok () => .ok config
    | .error fault => .error (.fault fault)

end BeaconEpoch.Config
