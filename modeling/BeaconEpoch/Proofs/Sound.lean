import BeaconEpoch.Proofs.Step
import Mathlib.Data.List.Forall2

/-!
# Sound results

What a computation may end with: values of one kind, and errors of another.

## Main definitions

* `Sound`: a result whose value meets a condition, or whose error is allowed.
* `Gives`: a result whose value is known, if it has one.
* `Step.Ends`: the same for the result of a step, with a condition on the state that it leaves.
* `Step.Leaves`: the result of a step whose failures leave a state of some kind, too.
* `Step.Sound`: a step whose results are sound from every state that an invariant holds of, and
  which keeps the invariant when it succeeds.

## Main statements

* `Sound.bind`, `Step.Sound.bind`: sound computations in a row.
* `Sound.mapM`, `Sound.foldlM`, `Step.Sound.foldlM`: sound turns make a sound loop.
* `mapM_eq_ok_iff`: a traversal succeeds if all of its turns do.

## Design notes

* **Both ends at once.** That an error never occurs follows from bounds on the values found before
  it, so values and errors are followed together.
-/

namespace BeaconEpoch

variable {α β : Type}

/-- The value of a result meets a condition, or its error is allowed. -/
def Sound (allowed : Error → Prop) (post : α → Prop) : Except Error α → Prop
  | .ok a => post a
  | .error e => allowed e

namespace Sound

variable {allowed : Error → Prop} {post : α → Prop} {later : β → Prop} {result : Except Error α}

theorem any (result : Except Error α) : Sound (fun _ => True) (fun _ => True) result := by
  cases result <;> trivial

theorem pure {a : α} (met : post a) : Sound allowed post (pure a) := met

theorem mono {weaker : α → Prop} (sound : Sound allowed post result)
    (weaken : ∀ a, post a → weaker a) : Sound allowed weaker result := by
  cases result with
  | ok a => exact weaken a sound
  | error e => exact sound

/-- Where only the errors matter. -/
theorem forget (sound : Sound allowed post result) : Sound allowed (fun _ => True) result :=
  sound.mono fun _ _ => trivial

/-- What follows may rely on what was found, and only the errors that are allowed may come of it. -/
theorem bind {next : α → Except Error β} (first : Sound allowed post result)
    (rest : ∀ a, post a → Sound allowed later (next a)) :
    Sound allowed later (result >>= next) := by
  cases result with
  | ok a => exact rest a first
  | error e => exact first

theorem map {f : α → β} (sound : Sound allowed (fun a => later (f a)) result) :
    Sound allowed later (f <$> result) := by
  cases result with
  | ok a => exact sound
  | error e => exact sound

theorem allowed_of_eq_error {e : Error} (sound : Sound allowed post result)
    (failed : result = .error e) : allowed e := by
  subst failed
  exact sound

theorem met_of_eq_ok {a : α} (sound : Sound allowed post result) (found : result = .ok a) :
    post a := by
  subst found
  exact sound

/-- A result whose errors are all ruled out is found. -/
theorem found (sound : Sound (fun _ => False) post result) : ∃ a, result = .ok a ∧ post a := by
  cases result with
  | ok a => exact ⟨a, rfl, sound⟩
  | error e => exact sound.elim

/-- A loop whose turns keep a condition ends with it. -/
theorem foldlM_list {γ : Type} {turn : γ → α → Except Error γ} {keeps : γ → Prop} (list : List α)
    {initial : γ} (holds : keeps initial)
    (turns : ∀ state a, a ∈ list → keeps state → Sound allowed keeps (turn state a)) :
    Sound allowed keeps (list.foldlM turn initial) := by
  induction list generalizing initial with
  | nil => exact holds
  | cons a list ih =>
    rw [List.foldlM_cons]
    refine (turns initial a List.mem_cons_self holds).bind fun state kept => ?_
    exact ih kept fun state b mem => turns state b (List.mem_cons_of_mem a mem)

/-- The same for a loop over an array. -/
theorem foldlM {γ : Type} {turn : γ → α → Except Error γ} {keeps : γ → Prop} (array : Array α)
    {initial : γ} (holds : keeps initial)
    (turns : ∀ state a, a ∈ array → keeps state → Sound allowed keeps (turn state a)) :
    Sound allowed keeps (array.foldlM turn initial) := by
  rw [← Array.foldlM_toList]
  exact foldlM_list _ holds fun state a mem => turns state a (Array.mem_toList_iff.mp mem)

/-- Results that are sound one by one are sound together. -/
theorem mapM_list {f : α → Except Error β} (later : β → Prop) (list : List α)
    (each : ∀ a, a ∈ list → Sound allowed later (f a)) :
    Sound allowed (fun found => found.length = list.length ∧ ∀ b ∈ found, later b)
      (list.mapM f) := by
  induction list with
  | nil => exact ⟨rfl, nofun⟩
  | cons a list ih =>
    rw [List.mapM_cons]
    refine (each a List.mem_cons_self).bind fun b first => ?_
    refine (ih fun c mem => each c (List.mem_cons_of_mem a mem)).bind fun found rest => ?_
    refine ⟨congrArg Nat.succ rest.1, fun c mem => ?_⟩
    rcases List.mem_cons.mp mem with rfl | mem
    · exact first
    · exact rest.2 c mem

/-- The same for arrays. -/
theorem mapM {f : α → Except Error β} (later : β → Prop) (array : Array α)
    (each : ∀ a, a ∈ array → Sound allowed later (f a)) :
    Sound allowed (fun found => found.size = array.size ∧ ∀ b ∈ found, later b)
      (array.mapM f) := by
  rw [Array.mapM_eq_mapM_toList]
  refine map ((mapM_list later _ fun a mem => each a (Array.mem_toList_iff.mp mem)).mono ?_)
  intro found sound
  exact ⟨sound.1, fun b mem => sound.2 b (List.mem_toArray.mp mem)⟩

/-- Results that are sound one by one, each in its own way. -/
theorem mapM_list_forall₂ {f : α → Except Error β} {related : α → β → Prop} (list : List α)
    (each : ∀ a, a ∈ list → Sound allowed (related a) (f a)) :
    Sound allowed (List.Forall₂ related list) (list.mapM f) := by
  induction list with
  | nil => exact .nil
  | cons a list ih =>
    rw [List.mapM_cons]
    refine (each a List.mem_cons_self).bind fun b first => ?_
    refine (ih fun c mem => each c (List.mem_cons_of_mem a mem)).bind fun found rest => ?_
    exact .cons first rest

theorem mapM_forall₂ {f : α → Except Error β} {related : α → β → Prop} (array : Array α)
    (each : ∀ a, a ∈ array → Sound allowed (related a) (f a)) :
    Sound allowed (fun found => List.Forall₂ related array.toList found.toList)
      (array.mapM f) := by
  rw [Array.mapM_eq_mapM_toList]
  exact map (mapM_list_forall₂ _ fun a mem => each a (Array.mem_toList_iff.mp mem))

end Sound

/-! ## Known values -/

/-- Entries that are related one by one. -/
theorem forall₂_ofFn {count : Nat} {related : α → β → Prop} {a : Fin count → α} {b : Fin count → β}
    (each : ∀ index, related (a index) (b index)) :
    List.Forall₂ related (List.ofFn a) (List.ofFn b) := by
  rw [List.forall₂_iff_get]
  exact ⟨by simp, fun index inside inside' => by simpa using each ⟨index, by simpa using inside⟩⟩

/-- A result has this value, or it is an error. -/
abbrev Gives (value : α) (result : Except Error α) : Prop :=
  Sound (fun _ => True) (· = value) result

namespace Gives

variable {a : α} {b : β} {result : Except Error α}

/-- A sequence has a value if each of its parts does. -/
theorem bind {next : α → Except Error β} (first : Gives a result) (rest : Gives b (next a)) :
    Gives b (result >>= next) := by
  refine Sound.bind first ?_
  rintro _ rfl
  exact rest

theorem map {f : α → β} (first : Gives a result) : Gives (f a) (f <$> result) :=
  Sound.map (first.mono fun _ equal => congrArg f equal)

theorem ite {condition : Prop} [Decidable condition] {other : Except Error α} {c : α}
    (holds : condition → Gives a result) (fails : ¬condition → Gives c other) :
    Gives (if condition then a else c) (if condition then result else other) := by
  split
  · exact holds ‹_›
  · exact fails ‹_›

/-- Known values stay known in a traversal, each in its place. -/
theorem mapM_forall₂ {f : α → Except Error β} {list : List α} {values : List β}
    (each : List.Forall₂ (fun a b => Gives b (f a)) list values) : Gives values (list.mapM f) := by
  induction each with
  | nil => rfl
  | cons first _ ih =>
    rw [List.mapM_cons]
    exact first.bind (ih.bind (.pure rfl))

theorem mapM_list {f : α → Except Error β} (g : α → β) (list : List α)
    (each : ∀ a ∈ list, Gives (g a) (f a)) : Gives (list.map g) (list.mapM f) :=
  mapM_forall₂ (List.forall₂_map_right_iff.mpr (List.forall₂_same.mpr each))

theorem mapM {f : α → Except Error β} (g : α → β) (array : Array α)
    (each : ∀ a ∈ array, Gives (g a) (f a)) : Gives (array.map g) (array.mapM f) := by
  have listed := mapM_list g array.toList fun a mem => each a (Array.mem_toList_iff.mp mem)
  have together := listed.map (f := List.toArray)
  rwa [← Array.mapM_eq_mapM_toList, ← Array.toList_map, Array.toArray_toList] at together

theorem mapM_ofFn {f : α → Except Error β} {count : Nat} {a : Fin count → α} {b : Fin count → β}
    (each : ∀ index, Gives (b index) (f (a index))) :
    Gives (Array.ofFn b) ((Array.ofFn a).mapM f) := by
  have listed : List.Forall₂ (fun a b => Gives b (f a)) (List.ofFn a) (List.ofFn b) :=
    forall₂_ofFn each
  have together := (mapM_forall₂ listed).map (f := List.toArray)
  rwa [← Array.toList_ofFn, ← Array.toList_ofFn, Array.toArray_toList,
    ← Array.mapM_eq_mapM_toList] at together

end Gives

/-! ## Traversals -/

/-- A traversal succeeds with the values that its turns succeed with. -/
theorem mapM_eq_ok_iff {f : α → Except Error β} {list : List α} {values : List β} :
    list.mapM f = .ok values ↔ List.Forall₂ (fun a b => f a = .ok b) list values := by
  induction list generalizing values with
  | nil =>
    rw [List.forall₂_nil_left_iff]
    exact ⟨fun found => (Except.ok.inj found).symm, fun equal => equal ▸ rfl⟩
  | cons a list ih =>
    rw [List.mapM_cons, List.forall₂_cons_left_iff]
    cases first : f a with
    | error e =>
      refine iff_of_false nofun ?_
      rintro ⟨b, rest, found, -⟩
      cases found
    | ok b =>
      constructor
      · intro found
        cases rest : list.mapM f with
        | error e =>
          rw [rest] at found
          cases found
        | ok tail =>
          rw [rest] at found
          cases found
          exact ⟨b, tail, rfl, ih.mp rest, rfl⟩
      · rintro ⟨_, tail, ⟨⟩, rest, rfl⟩
        rw [ih.mpr rest]
        rfl

/-- Over a table, these values are a table again. -/
theorem mapM_ofFn_eq_ok_iff {count : Nat} {f : α → Except Error β} {a : Fin count → α}
    {values : Array β} :
    (Array.ofFn a).mapM f = .ok values ↔
      ∃ b : Fin count → β, values = Array.ofFn b ∧ ∀ index, f (a index) = .ok (b index) := by
  have listed : (Array.ofFn a).mapM f = .ok values ↔ (List.ofFn a).mapM f = .ok values.toList := by
    rw [Array.mapM_eq_mapM_toList, Array.toList_ofFn]
    cases (List.ofFn a).mapM f with
    | error e => exact iff_of_false nofun nofun
    | ok found =>
      constructor
      · rintro ⟨⟩
        rfl
      · rintro ⟨⟩
        rfl
  rw [listed, mapM_eq_ok_iff, List.forall₂_iff_get]
  constructor
  · rintro ⟨length, each⟩
    have size : values.size = count := by simpa using length.symm
    refine ⟨fun index => values[index], ?_, fun index => ?_⟩
    · exact Array.ext (by simp [size]) fun index inside inside' => by simp
    · simpa using each index (by simp) (by simp [size])
  · rintro ⟨b, rfl, each⟩
    exact ⟨by simp, fun index inside inside' => by simpa using each ⟨index, by simpa using inside⟩⟩

theorem mapM_ofFn_found {count : Nat} {f : α → Except Error β} {a : Fin count → α}
    (each : ∀ index, ∃ b, f (a index) = .ok b) :
    ∃ b : Fin count → β, (Array.ofFn a).mapM f = .ok (Array.ofFn b) := by
  choose b found using each
  exact ⟨b, mapM_ofFn_eq_ok_iff.mpr ⟨b, rfl, found⟩⟩

theorem mapM_list_eq_map {f : α → Except Error β} {g : α → β} {list : List α}
    (each : ∀ a ∈ list, f a = .ok (g a)) : list.mapM f = .ok (list.map g) :=
  mapM_eq_ok_iff.mpr (List.forall₂_map_right_iff.mpr (List.forall₂_same.mpr each))

theorem mapM_eq_map {f : α → Except Error β} {g : α → β} {array : Array α}
    (each : ∀ a ∈ array, f a = .ok (g a)) : array.mapM f = .ok (array.map g) := by
  rw [Array.mapM_eq_mapM_toList,
    mapM_list_eq_map fun a mem => each a (Array.mem_toList_iff.mp mem), ← Array.toList_map]
  rfl

/-! ## Steps -/

namespace Step

variable {σ : Type}

/-- A step ends in a value and a state that meet a condition, or in an allowed error. -/
def Ends (allowed : Error → Prop) (post : α → σ → Prop) : Result σ α → Prop
  | .ok a final => post a final
  | .error e _ => allowed e

namespace Ends

variable {allowed : Error → Prop} {post : α → σ → Prop} {later : β → σ → Prop}
  {step : Step σ α} {state final : σ}

theorem of_ok {a : α} (ends : Ends allowed post (step state)) (ran : step state = .ok a final) :
    post a final := by
  rwa [ran] at ends

theorem of_error {e : Error} (ends : Ends allowed post (step state))
    (failed : step state = .error e final) : allowed e := by
  rwa [failed] at ends

/-- What follows a step may rely on what the step ended with, and on the fact that it did. -/
theorem bind {next : α → Step σ β} (first : Ends allowed post (step state))
    (rest : ∀ a middle, step state = .ok a middle → post a middle →
      Ends allowed later (next a middle)) :
    Ends allowed later ((step >>= next) state) := by
  cases ran : step state with
  | ok a middle =>
    rw [bind_of_ok ran]
    exact rest a middle ran (first.of_ok ran)
  | error e final =>
    rw [bind_of_error ran]
    exact first.of_error ran

theorem move {τ : Type} {moved : α → τ → Prop} {result : Result σ α} {place : σ → τ}
    (ends : Ends allowed post result) (states : ∀ a final, post a final → moved a (place final)) :
    Ends allowed moved (Result.move place result) := by
  cases result with
  | ok a final => exact states a final ends
  | error e final => exact ends

end Ends

/-- A step leaves a state that meets a condition, or an allowed error together with a state that
meets another one. -/
def Leaves (allowed : Error → Prop) (after kept : σ → Prop) : Result σ α → Prop
  | .ok _ final => after final
  | .error e final => allowed e ∧ kept final

namespace Leaves

variable {allowed : Error → Prop} {middling after kept : σ → Prop} {step : Step σ α}
  {state final : σ}

theorem of_ok {a : α} (leaves : Leaves allowed after kept (step state))
    (ran : step state = .ok a final) : after final := by
  rwa [ran] at leaves

theorem of_error {e : Error} (leaves : Leaves allowed after kept (step state))
    (failed : step state = .error e final) : allowed e ∧ kept final := by
  rwa [failed] at leaves

/-- Where only the successes and the errors matter. -/
theorem ends {result : Result σ α} (leaves : Leaves allowed after kept result) :
    Ends allowed (fun _ final => after final) result := by
  cases result with
  | ok a final => exact leaves
  | error e final => exact leaves.1

/-- The law for sequences of steps that leave a state each; on a failure the state is the one that
was kept. -/
theorem bind {next : α → Step σ β} (first : Leaves allowed middling kept (step state))
    (rest : ∀ a middle, step state = .ok a middle → middling middle →
      Leaves allowed after kept (next a middle)) :
    Leaves allowed after kept ((step >>= next) state) := by
  cases ran : step state with
  | ok a middle =>
    rw [bind_of_ok ran]
    exact rest a middle ran (first.of_ok ran)
  | error e final =>
    rw [bind_of_error ran]
    exact first.of_error ran

theorem mono {after' kept' : σ → Prop} {result : Result σ α}
    (leaves : Leaves allowed after kept result) (weaken : ∀ final, after final → after' final)
    (weaken' : ∀ final, kept final → kept' final) : Leaves allowed after' kept' result := by
  cases result with
  | ok a final => exact weaken final leaves
  | error e final => exact ⟨leaves.1, weaken' final leaves.2⟩

theorem move {τ : Type} {after' kept' : τ → Prop} {result : Result σ α} {place : σ → τ}
    (leaves : Leaves allowed after kept result)
    (states : ∀ final, after final → after' (place final))
    (states' : ∀ final, kept final → kept' (place final)) :
    Leaves allowed after' kept' (Result.move place result) := by
  cases result with
  | ok a final => exact states final leaves
  | error e final => exact ⟨leaves.1, states' final leaves.2⟩

end Leaves

/-- From every state that an invariant holds of, a step either keeps it and finds a value that meets
a condition, or fails with an allowed error. -/
def Sound (allowed : Error → Prop) (keeps : σ → Prop) (post : α → Prop) (step : Step σ α) : Prop :=
  ∀ state, keeps state → Ends allowed (fun a final => keeps final ∧ post a) (step state)

namespace Sound

variable {allowed : Error → Prop} {keeps : σ → Prop} {post : α → Prop} {later : β → Prop}
  {step : Step σ α} {next : α → Step σ β}

theorem any (step : Step σ α) : Sound (fun _ => True) (fun _ => True) (fun _ => True) step := by
  intro state _
  cases step state with
  | ok a final => exact ⟨trivial, trivial⟩
  | error e final => trivial

/-- A computation without a state keeps any invariant. -/
theorem lift {result : Except Error α} (sound : BeaconEpoch.Sound allowed post result) :
    Sound allowed keeps post (liftM result) := by
  intro state holds
  cases result with
  | ok a => exact ⟨holds, sound⟩
  | error e => exact sound

theorem pure {a : α} (met : post a) : Sound allowed keeps post (pure a) :=
  fun _ holds => ⟨holds, met⟩

theorem throw {e : Error} (fine : allowed e) : Sound allowed keeps post (throw e) :=
  fun _ _ => fine

theorem modify {change : σ → σ} (kept : ∀ state, keeps state → keeps (change state)) :
    Sound allowed keeps (fun _ => True) (modify change) :=
  fun state holds => ⟨kept state holds, trivial⟩

/-- Each step keeps the invariant for the next one. -/
theorem bind (first : Sound allowed keeps post step)
    (rest : ∀ a, post a → Sound allowed keeps later (next a)) :
    Sound allowed keeps later (step >>= next) :=
  fun state holds => (first state holds).bind fun a middle _ met => rest a met.2 middle met.1

/-- What follows a look at the state may rely on the invariant of what was seen. -/
theorem get_bind {next : σ → Step σ β}
    (rest : ∀ seen, keeps seen → Sound allowed keeps later (next seen)) :
    Sound allowed keeps later (get >>= next) :=
  fun state holds => rest state holds state holds

theorem mono {weaker : α → Prop} (sound : Sound allowed keeps post step)
    (weaken : ∀ a, post a → weaker a) : Sound allowed keeps weaker step := by
  intro state holds
  have ends := sound state holds
  cases ran : step state with
  | ok a final => exact ⟨(ends.of_ok ran).1, weaken a (ends.of_ok ran).2⟩
  | error e final => exact ends.of_error ran

/-- What a step finds, beside what it is known to find whatever happens. -/
theorem and {found : α → Prop} (sound : Sound allowed keeps post step)
    (always : Sound (fun _ => True) (fun _ => True) found step) :
    Sound allowed keeps (fun a => post a ∧ found a) step := by
  intro state holds
  have first := sound state holds
  have second := always state trivial
  cases ran : step state with
  | ok a final => exact ⟨(first.of_ok ran).1, (first.of_ok ran).2, (second.of_ok ran).2⟩
  | error e final => exact first.of_error ran

/-- A loop keeps the invariant of the state as well as what its turns hold of their result. -/
theorem foldlM {γ : Type} {turn : γ → α → Step σ γ} {holding : γ → Prop} (list : List α)
    {initial : γ} (start : holding initial)
    (turns : ∀ found a, a ∈ list → holding found →
      Sound allowed keeps holding (turn found a)) :
    Sound allowed keeps holding (list.foldlM turn initial) := by
  induction list generalizing initial with
  | nil => exact pure start
  | cons a list ih =>
    rw [List.foldlM_cons]
    refine (turns initial a List.mem_cons_self start).bind fun found held => ?_
    exact ih held fun found b mem => turns found b (List.mem_cons_of_mem a mem)

end Sound

end Step

end BeaconEpoch
