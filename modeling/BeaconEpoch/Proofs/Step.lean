import BeaconEpoch.Step

/-!
# Laws of steps

How steps are evaluated, how a sequence of them ends, and when two of them do the same.

## Main definitions

* `Step.Result.move`: a result with its state put into its place in another one.
* `Step.Agree`: two results with the same value or error, in related states.

## Main statements

* `Step.bind_eq_ok_iff`, `Step.bind_eq_error_iff`: how two steps in a row succeed and fail.
* `Step.Agree.bind`: steps that agree can be put in a row.

## Design notes

* **A sequence is opened from its end.** Proofs about a run start with the result of a whole
  sequence and take it apart step by step; the inversion laws are all they need of the monad.
-/

namespace BeaconEpoch.Step

variable {σ τ α β : Type}

/-- What a step ends with: a value or an error, and the state that it leaves. -/
abbrev Result (σ α : Type) := EStateM.Result Error σ α

/-- The same value or error, with the state put into its place in another one. -/
def Result.move (place : τ → σ) : Result τ α → Result σ α
  | .ok a state => .ok a (place state)
  | .error e state => .error e (place state)

/-- Whether a step ends with a value. -/
def Result.succeeds : Result σ α → Bool
  | .ok _ _ => true
  | .error _ _ => false

theorem Result.eq_ok_of_succeeds {result : Result σ α} (succeeds : result.succeeds = true) :
    ∃ a final, result = .ok a final := by
  cases result with
  | ok a final => exact ⟨a, final, rfl⟩
  | error e final => cases succeeds

/-! ## Evaluation -/

section Evaluation

variable (state : σ)

/-- A sequence goes on from where its first step has left the state. -/
theorem bind_of_ok {step : Step σ α} {next : α → Step σ β} {state middle : σ} {a : α}
    (ran : step state = .ok a middle) : (step >>= next) state = next a middle := by
  show EStateM.bind step next state = _
  rw [EStateM.bind, ran]

/-- A sequence stops at the first step that fails, and leaves the state as that step did. -/
theorem bind_of_error {step : Step σ α} {next : α → Step σ β} {state final : σ} {e : Error}
    (failed : step state = .error e final) : (step >>= next) state = .error e final := by
  show EStateM.bind step next state = _
  rw [EStateM.bind, failed]

@[simp] theorem get_bind_apply (next : σ → Step σ β) : (get >>= next) state = next state state :=
  rfl

@[simp] theorem modify_apply (change : σ → σ) :
    (modify change : Step σ PUnit) state = .ok ⟨⟩ (change state) := rfl

@[simp] theorem modify_bind_apply (change : σ → σ) (next : PUnit → Step σ β) :
    (modify change >>= next) state = next ⟨⟩ (change state) := rfl

@[simp] theorem lift_ok_apply (a : α) :
    (liftM (Except.ok a : Except Error α) : Step σ α) state = .ok a state := rfl

@[simp] theorem lift_error_apply (e : Error) :
    (liftM (Except.error e : Except Error α) : Step σ α) state = .error e state := rfl

/-- A step on a part of the state runs on that part, and what it leaves is put back whether it fails
or not. -/
theorem zoom_apply (get : σ → τ) (set : τ → σ → σ) (step : Step τ α) :
    zoom get set step state = Result.move (set · state) (step (get state)) := by
  unfold zoom
  cases step (get state) <;> rfl

end Evaluation

/-! ## How a sequence ends -/

section Inversion

variable {state final : σ} {e : Error}

/-- A sequence succeeds if and only if both of its parts do, one after the other. Proofs about runs
take them apart with this law, and need not unfold a step. -/
theorem bind_eq_ok_iff {step : Step σ α} {next : α → Step σ β} {b : β} :
    (step >>= next) state = .ok b final ↔
      ∃ a middle, step state = .ok a middle ∧ next a middle = .ok b final := by
  cases ran : step state with
  | ok a middle =>
    rw [bind_of_ok ran]
    constructor
    · intro rest
      exact ⟨a, middle, rfl, rest⟩
    · rintro ⟨a, middle, ⟨⟩, rest⟩
      exact rest
  | error e middle => simp [bind_of_error ran]

/-- A sequence fails in its first part, or after it. -/
theorem bind_eq_error_iff {step : Step σ α} {next : α → Step σ β} :
    (step >>= next) state = .error e final ↔
      step state = .error e final ∨
        ∃ a middle, step state = .ok a middle ∧ next a middle = .error e final := by
  cases ran : step state with
  | ok a middle =>
    rw [bind_of_ok ran]
    constructor
    · intro rest
      exact .inr ⟨a, middle, rfl, rest⟩
    · rintro (⟨⟨⟩⟩ | ⟨a, middle, ⟨⟩, rest⟩)
      exact rest
  | error e middle => simp [bind_of_error ran]

/-- A computation without a state leaves the state alone. -/
theorem lift_eq_ok_iff {x : Except Error α} {a : α} :
    (liftM x : Step σ α) state = .ok a final ↔ x = .ok a ∧ final = state := by
  cases x with
  | ok b => simp [eq_comm]
  | error e => simp

theorem lift_bind_eq_ok_iff {x : Except Error α} {next : α → Step σ β} {b : β} :
    (liftM x >>= next) state = .ok b final ↔ ∃ a, x = .ok a ∧ next a state = .ok b final := by
  cases x with
  | ok a => simp [bind_of_ok (lift_ok_apply state a)]
  | error e => simp [bind_of_error (lift_error_apply (α := α) state e)]

theorem lift_eq_error_iff {x : Except Error α} :
    (liftM x : Step σ α) state = .error e final ↔ x = .error e ∧ final = state := by
  cases x with
  | ok b => simp
  | error f => simp [eq_comm]

theorem move_eq_ok_iff {place : τ → σ} {result : Result τ α} {a : α} :
    Result.move place result = .ok a final ↔ ∃ part, result = .ok a part ∧ place part = final := by
  cases result with
  | ok b part => simp [Result.move, and_assoc]
  | error f part => simp [Result.move]

theorem move_eq_error_iff {place : τ → σ} {result : Result τ α} :
    Result.move place result = .error e final ↔
      ∃ part, result = .error e part ∧ place part = final := by
  cases result with
  | ok b part => simp [Result.move]
  | error f part => simp [Result.move, and_assoc]

theorem zoom_eq_ok_iff {get : σ → τ} {set : τ → σ → σ} {step : Step τ α} {a : α} :
    zoom get set step state = .ok a final ↔
      ∃ part, step (get state) = .ok a part ∧ set part state = final := by
  rw [zoom_apply, move_eq_ok_iff]

theorem zoom_eq_error_iff {get : σ → τ} {set : τ → σ → σ} {step : Step τ α} :
    zoom get set step state = .error e final ↔
      ∃ part, step (get state) = .error e part ∧ set part state = final := by
  rw [zoom_apply, move_eq_error_iff]

end Inversion

/-! ## Agreement -/

/-- Two results agree if they have the same value or the same error, and their states are
related. -/
inductive Agree (related : σ → τ → Prop) : Result σ α → Result τ α → Prop
  | ok (a : α) {state : σ} {other : τ} (states : related state other) :
    Agree related (.ok a state) (.ok a other)
  | error (e : Error) {state : σ} {other : τ} (states : related state other) :
    Agree related (.error e state) (.error e other)

namespace Agree

variable {related : σ → τ → Prop} {state : σ} {other : τ}

/-- Steps that agree, followed by steps that agree on related states, agree as a whole. -/
theorem bind {step : Step σ α} {step' : Step τ α} {next : α → Step σ β} {next' : α → Step τ β}
    (first : Agree related (step state) (step' other))
    (rest : ∀ a state other, related state other → Agree related (next a state) (next' a other)) :
    Agree related ((step >>= next) state) ((step' >>= next') other) := by
  generalize ran : step state = result, ran' : step' other = result' at first
  cases first with
  | ok a states =>
    rw [bind_of_ok ran, bind_of_ok ran']
    exact rest a _ _ states
  | error e states =>
    rw [bind_of_error ran, bind_of_error ran']
    exact .error e states

/-- Results that agree still do so with their states in place. -/
theorem move {υ ρ : Type} {moved : υ → ρ → Prop} {result : Result σ α} {result' : Result τ α}
    {place : σ → υ} {place' : τ → ρ} (agree : Agree related result result')
    (states : ∀ state other, related state other → moved (place state) (place' other)) :
    Agree moved (Result.move place result) (Result.move place' result') := by
  cases agree with
  | ok a pair => exact .ok a (states _ _ pair)
  | error e pair => exact .error e (states _ _ pair)

theorem lift (x : Except Error α) (states : related state other) :
    Agree related ((liftM x : Step σ α) state) ((liftM x : Step τ α) other) := by
  cases x with
  | ok a => exact .ok a states
  | error e => exact .error e states

end Agree

end BeaconEpoch.Step
