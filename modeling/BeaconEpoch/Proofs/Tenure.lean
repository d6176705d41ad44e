import BeaconEpoch.Proofs.Progress.Walk
import BeaconEpoch.Proofs.Schedule
import BeaconEpoch.Proofs.Transparency

/-!
# Committees over time

The committee of a slot is the same one whenever it is looked up: when the epoch of the slot is
still ahead, during that epoch, and in the epoch after it.

## Main definitions

* `Chain.SameRegistry`: two chains with the same validators and the same randomness.
* `Preset.shuffleOf`, `Preset.IsCommittee`: shuffles and committees as a matter of registry and
  randomness alone.

## Main statements

* `Chain.isCommittee_of_committee`: a committee that is found is the one of its slot and index.
* `BeaconState.registry_sustains`, `BeaconState.processSlots_sameRegistry`,
  `BeaconState.processSlots_coherent`: what a walk leaves as it is.
* `BeaconState.processSlots_keepsCommittees`: lookups before and after a walk.

## Design notes

* **No clock in a committee.** A lookup takes the slot of the state to name an epoch, and a cache
  moves shuffles from one name to the next. Neither is in the definition of a committee, so all that
  a walk has to keep is the registry, the randomness, and the coherence of its cache.
-/

namespace BeaconEpoch

open Step

/-! ## Committees without a clock -/

/-- Two chains with the same validators and the same randomness. -/
structure Chain.SameRegistry {preset : Preset} (chain other : Chain preset) : Prop where
  validators : other.validators = chain.validators
  randaoMixes : other.randaoMixes = chain.randaoMixes

namespace Preset

variable (preset : Preset) (validators : Array Validator) (randaoMixes : Array Root)

/-- The active validators of an epoch in the order from which committees are cut, for a registry and
randomness at any slot. -/
def shuffleOf (epoch : Epoch) : Except Error (Array ValidatorIndex) :=
  let chain : Chain preset := { Chain.empty preset with validators, randaoMixes }
  chain.shuffledIndices epoch

/-- Some validators are the committee of a slot and an index: its slice of the shuffle of the epoch
that the slot lies in. -/
def IsCommittee (slot : Slot) (index : UInt64) (members : List ValidatorIndex) : Prop :=
  ∃ indices, preset.shuffleOf validators randaoMixes (preset.epochAt slot) = .ok indices ∧
    index.toNat < preset.committeesPerSlot indices.size ∧
    members = preset.cutCommittee indices (slot, index)

variable {preset validators randaoMixes}

/-- There is one committee for a slot and an index. -/
theorem IsCommittee.unique {slot : Slot} {index : UInt64} {members others : List ValidatorIndex}
    (first : preset.IsCommittee validators randaoMixes slot index members)
    (second : preset.IsCommittee validators randaoMixes slot index others) : others = members := by
  obtain ⟨indices, shuffled, -, rfl⟩ := first
  obtain ⟨indices', shuffled', -, rfl⟩ := second
  cases shuffled.symm.trans shuffled'
  rfl

end Preset

namespace Chain

variable {preset : Preset} {chain other last : Chain preset}

theorem shuffledIndices_eq_shuffleOf (epoch : Epoch) :
    chain.shuffledIndices epoch = preset.shuffleOf chain.validators chain.randaoMixes epoch :=
  shuffledIndices_congr rfl rfl epoch

/-- A committee that was found is the one that registry and randomness determine. -/
theorem isCommittee_of_committee {cache after : Cache} {slot : Slot} {index : UInt64}
    {members : List ValidatorIndex} (coherent : cache.CoherentWith chain)
    (found : chain.committee slot index cache = .ok members after) :
    preset.IsCommittee chain.validators chain.randaoMixes slot index members := by
  obtain ⟨_, indices, -, shuffled, valid, cut⟩ := committee_eq_ok coherent found
  rw [shuffledIndices_eq_shuffleOf] at shuffled
  exact ⟨indices, shuffled, valid, cut⟩

theorem SameRegistry.refl (chain : Chain preset) : chain.SameRegistry chain := ⟨rfl, rfl⟩

theorem SameRegistry.trans (first : chain.SameRegistry other) (second : other.SameRegistry last) :
    chain.SameRegistry last :=
  ⟨second.validators.trans first.validators, second.randaoMixes.trans first.randaoMixes⟩

theorem OnlyBalances.sameRegistry (only : chain.OnlyBalances other) : chain.SameRegistry other :=
  ⟨only.sameDuties.validators, only.sameDuties.randaoMixes⟩

end Chain

/-! ## What a walk leaves as it is -/

namespace State

variable {preset : Preset} {Votes : Type} {chain : Chain preset}

/-- Epochs that write to balances alone keep the registry, and so do slots. -/
theorem registry_sustains {processEpoch : Step (State preset Votes) Report}
    (only : ∀ {state report final}, processEpoch state = .ok report final →
      state.chain.OnlyBalances final.chain) :
    Sustains (fun _ => True) processEpoch (fun state => chain.SameRegistry state.chain)
      (fun state => chain.SameRegistry state.chain) (fun _ => True) where
  epoch {state slot} same _ _ := by
    cases ran : processEpoch state with
    | ok report final => exact same.trans (only ran).sameRegistry
    | error e final => exact ⟨trivial, trivial⟩
  keepsSlot {state report final} ran := by
    obtain ⟨balances, -, equal⟩ := only ran
    rw [equal]
  start same _ _ := ⟨same.validators, same.randaoMixes⟩
  inside same _ _ := ⟨same.validators, same.randaoMixes⟩

end State

namespace BeaconState

variable {preset : Preset} {config : Config} {target : Slot} {run final : Run (BeaconState preset)}

/-- No step of a run touches the registry or the randomness. -/
theorem registry_sustains (config : Config) (chain : Chain preset) :
    Sustains (fun _ => True) config (fun state => chain.SameRegistry state.chain)
      (fun _ => True) where
  pending := by
    refine ⟨_, State.registry_sustains ?_⟩
    intro state report final ran
    exact (State.processPending_eq_ok ran).1
  flagged phase := by
    refine ⟨_, State.registry_sustains ?_⟩
    intro state report final ran
    obtain ⟨_, _, -, only, -⟩ := State.processFlags_eq_ok ran
    exact only
  upgrade next state same := by
    cases ran : state.upgrade next with
    | ok entered =>
      show chain.SameRegistry entered.chain
      rwa [(upgrade_eq_ok ran).1]
    | error e => trivial
  keep _ := trivial

/-- A walk changes neither validators nor randomness. -/
theorem processSlots_sameRegistry (walked : processSlots config target run = .ok () final) :
    run.state.chain.SameRegistry final.state.chain := by
  by_cases ahead : run.state.slot < target
  · have sustains := registry_sustains config run.state.chain
    exact (sustains.processSlots_leaves (.refl _) ahead).of_ok walked
  · cases (processSlots_of_not_lt ahead).symm.trans walked

/-- A walk keeps caches coherent: it is its own twin. -/
theorem processSlots_coherent (coherent : run.state.cache.CoherentWith run.state.chain)
    (walked : processSlots config target run = .ok () final) :
    final.state.cache.CoherentWith final.state.chain := by
  have same : run.state.withCache run.state.cache = run.state := by cases run.state <;> rfl
  have twins : run.state.Twins run.state := twins_iff.mpr ⟨same, coherent, coherent⟩
  have pairs : Run.Pairs Twins run run := ⟨twins, rfl⟩
  have agree := processSlots_agree config target pairs
  rw [walked] at agree
  cases agree with
  | ok _ pairs => exact (twins_iff.mp pairs.state).2.1

theorem ask_eq_ok_iff {α : Type} {question : Chain preset → Lookup α} {a : α}
    {state asked : BeaconState preset} :
    ask question state = .ok a asked ↔
      ∃ cache, question state.chain state.cache = .ok a cache ∧ state.withCache cache = asked :=
  zoom_eq_ok_iff

/-- **A committee never changes while a state moves.** Let a state with a coherent cache walk to any
later slot, over any number of epochs and forks. If the committee of a slot and an index is found
before the walk and after it, then it is the same list of validators both times, whether the epoch
of the slot was the next one, the current one or the previous one; and it is the slice of the
shuffle of that very epoch that the registry and the randomness give, which a walk does not
change. -/
theorem processSlots_keepsCommittees (coherent : run.state.cache.CoherentWith run.state.chain)
    (walked : processSlots config target run = .ok () final) {slot : Slot} {index : UInt64}
    {members members' : List ValidatorIndex} {asked asked' : BeaconState preset}
    (before : ask (·.committee slot index) run.state = .ok members asked)
    (after : ask (·.committee slot index) final.state = .ok members' asked') :
    members' = members ∧ run.state.chain.SameRegistry final.state.chain ∧
      preset.IsCommittee run.state.chain.validators run.state.chain.randaoMixes slot index
        members := by
  obtain ⟨_, found, -⟩ := ask_eq_ok_iff.mp before
  obtain ⟨_, found', -⟩ := ask_eq_ok_iff.mp after
  have same := processSlots_sameRegistry walked
  have committee := Chain.isCommittee_of_committee coherent found
  have committee' := Chain.isCommittee_of_committee (processSlots_coherent coherent walked) found'
  rw [same.validators, same.randaoMixes] at committee'
  exact ⟨committee.unique committee', same, committee⟩

theorem chain_of_wellFormed {state : BeaconState preset} (wellFormed : state.WellFormed) :
    state.chain.WellFormed ∧ state.cache.CoherentWith state.chain := by
  cases state with
  | pending state =>
    obtain ⟨chain, cache, -, -⟩ := (wellFormed : PendingState.WellFormed state)
    exact ⟨chain, cache⟩
  | flagged phase state =>
    obtain ⟨chain, cache, -⟩ := (wellFormed : FlagState.WellFormed state)
    exact ⟨chain, cache⟩

/-- A well-formed state has a first committee in every slot of the epochs around its own. -/
theorem ask_committee_found {state : BeaconState preset} (wellFormed : state.WellFormed)
    {slot : Slot} {epoch : RelativeEpoch}
    (inside : preset.epochAt slot = state.chain.epochOf epoch) :
    ∃ members asked, ask (·.committee slot 0) state = .ok members asked := by
  obtain ⟨chain, coherent⟩ := chain_of_wellFormed wellFormed
  obtain ⟨indices, shuffled⟩ := Chain.shuffledIndices_found chain epoch
  have first : (0 : UInt64).toNat <
      preset.committeesPerSlot (state.chain.activeIndices (state.chain.epochOf epoch)).size :=
    (preset.committeesPerSlot_bounds _).1
  have answers := Chain.committee_of_epochOf chain.few inside shuffled first
  obtain ⟨after, -, found⟩ := answers state.cache coherent
  exact ⟨_, _, ask_eq_ok_iff.mpr ⟨after, found, rfl⟩⟩

/-- A state at the end of the second epoch, with five validators, one of whom has left. -/
def fiveMembers : PendingState .minimal where
  chain := { Chain.fiveValidators with slot := 15, balances := Array.replicate 5 32000000000 }
  votes := ⟨[], []⟩

theorem fiveMembers_wellFormed : fiveMembers.WellFormed where
  chain := ⟨⟨by decide, by decide⟩, by decide, by decide, by decide⟩
  cache := Cache.CoherentWith.empty _
  previous := nofun
  current := nofun

/-- Slot 17 is in the next epoch at first, and in the previous one in the end; the fork is at the
start of its epoch. -/
theorem processSlots_keepsCommittees_fiveMembers :
    ∃ final members asked asked',
      processSlots thirdEpochFork 24 ⟨.pending fiveMembers, #[]⟩ = .ok () final ∧
      final.state.slot = 24 ∧
      ask (·.committee 17 0) (.pending fiveMembers) = .ok members asked ∧
      ask (·.committee 17 0) final.state = .ok members asked' ∧
      Preset.minimal.IsCommittee fiveMembers.chain.validators fiveMembers.chain.randaoMixes 17 0
        members := by
  let start : Run (BeaconState .minimal) := ⟨.pending fiveMembers, #[]⟩
  have succeeds : Result.succeeds (processSlots thirdEpochFork 24 start) = true := by
    decide +kernel
  obtain ⟨_, final, walked⟩ := Result.eq_ok_of_succeeds succeeds
  have ahead : start.state.slot < 24 := by decide
  have valid : thirdEpochFork.validate = .ok () := by decide
  have resumed := (processSlots_of_lt ahead).symm.trans walked
  have slot : final.state.slot = 24 := (resume_eq_ok valid (UInt64.le_of_lt ahead) resumed).1
  have wellFormed : start.state.WellFormed := fiveMembers_wellFormed
  obtain ⟨-, coherent⟩ := chain_of_wellFormed wellFormed
  have still : final.state.WellFormed :=
    ((wellFormed_sustains thirdEpochFork).processSlots_leaves wellFormed ahead).of_ok walked
  have next : Preset.minimal.epochAt 17 = start.state.chain.epochOf .next := by decide
  have previous : Preset.minimal.epochAt 17 = final.state.chain.epochOf .previous := by
    have there : final.state.chain.slot = 24 := slot
    simp only [Chain.epochOf, Chain.previousEpoch, Chain.currentEpoch, there]
    decide
  obtain ⟨members, asked, before⟩ := ask_committee_found wellFormed next
  obtain ⟨members', asked', after⟩ := ask_committee_found still previous
  obtain ⟨rfl, -, committee⟩ := processSlots_keepsCommittees coherent walked before after
  exact ⟨final, _, asked, asked', walked, slot, before, after, committee⟩

end BeaconState

end BeaconEpoch
