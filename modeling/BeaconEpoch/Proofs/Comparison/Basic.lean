import BeaconEpoch.Proofs.Accounting.Stake
import BeaconEpoch.Proofs.Sound
import Mathlib.Data.List.FinRange

/-!
# Comparing two runs

A law about two runs of a program says how their values are related, and how alike their failures
are. It is proved by walking through both runs at once.

## Main definitions

* `Likeness`: how alike the failures of two runs are.
* `Tied`, `Step.Tied`: two results with related values and like failures.
* `Matched`: two arrays with related entries, up to their order.

## Main statements

* `Tied.bind`, `Step.Tied.bind`: tied computations in a row.
* `Matched.mapM`: a traversal of matched arrays.
* `Matched.findIdx?_eq_none_iff`, `Matched.findIdx?_eq`: a search in matched arrays.

## Design notes

* **Order and failures hang together.** A traversal fails with the error of the first entry that
  fails, so another order can lead to another error, but not to a success.
-/

namespace BeaconEpoch

variable {α β γ δ : Type}

/-- How alike the failures of two runs are. -/
inductive Likeness
  /-- Both succeed, or both fail with the same error. -/
  | exact
  /-- Both succeed or both fail. -/
  | joint
  /-- Nothing is said unless both succeed. -/
  | loose
deriving DecidableEq

/-- Two results with related values and like failures. -/
def Tied (likeness : Likeness) (values : α → β → Prop) : Except Error α → Except Error β → Prop
  | .ok a, .ok b => values a b
  | .error e, .error e' => likeness = .exact → e = e'
  | .ok _, .error _ => likeness = .loose
  | .error _, .ok _ => likeness = .loose

namespace Tied

variable {likeness : Likeness} {values : α → β → Prop} {later : γ → δ → Prop}
  {result : Except Error α} {other : Except Error β}

theorem refl (likeness : Likeness) (result : Except Error α) : Tied likeness Eq result result := by
  cases result with
  | ok a => exact rfl
  | error e => exact fun _ => rfl

theorem mono {weaker : α → β → Prop} (tied : Tied likeness values result other)
    (weaken : ∀ a b, values a b → weaker a b) : Tied likeness weaker result other := by
  cases result <;> cases other
  case ok.ok => exact weaken _ _ tied
  all_goals exact tied

/-- Values that are related were found. -/
theorem known (tied : Tied likeness values result other) :
    Tied likeness (fun a b => values a b ∧ result = .ok a ∧ other = .ok b) result other := by
  cases result <;> cases other
  case ok.ok => exact ⟨tied, rfl, rfl⟩
  all_goals exact tied

/-- Where the first run succeeds the second one does, and the other way round. -/
theorem exists_right {a : α} (tied : Tied likeness values (.ok a) other)
    (strict : likeness ≠ .loose) : ∃ b, other = .ok b := by
  cases other with
  | ok b => exact ⟨b, rfl⟩
  | error e => exact absurd tied strict

theorem exists_left {b : β} (tied : Tied likeness values result (.ok b))
    (strict : likeness ≠ .loose) : ∃ a, result = .ok a := by
  cases result with
  | ok a => exact ⟨a, rfl⟩
  | error e => exact absurd tied strict

theorem bind {next : α → Except Error γ} {next' : β → Except Error δ}
    (first : Tied likeness values result other)
    (rest : ∀ a b, values a b → Tied likeness later (next a) (next' b)) :
    Tied likeness later (result >>= next) (other >>= next') := by
  cases result with
  | ok a =>
    cases other with
    | ok b => exact rest a b first
    | error e =>
      obtain rfl : likeness = .loose := first
      show Tied .loose later (next a) (.error e)
      cases next a with
      | ok c => exact rfl
      | error e => exact nofun
  | error e =>
    cases other with
    | ok b =>
      obtain rfl : likeness = .loose := first
      show Tied .loose later (.error e) (next' b)
      cases next' b with
      | ok c => exact rfl
      | error e => exact nofun
    | error e' => exact first

theorem map {f : α → γ} {g : β → δ}
    (tied : Tied likeness (fun a b => later (f a) (g b)) result other) :
    Tied likeness later (f <$> result) (g <$> other) := by
  cases result <;> cases other <;> exact tied

/-- Where only successes are compared, both may be assumed. -/
theorem loose (found : ∀ a b, result = .ok a → other = .ok b → values a b) :
    Tied .loose values result other := by
  cases result <;> cases other
  case ok.ok => exact found _ _ rfl rfl
  case error.error => exact nofun
  all_goals exact rfl

/-- Where only successes are compared, a value that is related to all others is tied to any
result. -/
theorem ok_left {a : α} (least : ∀ b, values a b) : Tied .loose values (.ok a) other := by
  cases other with
  | ok b => exact least b
  | error e => exact rfl

@[inherit_doc ok_left]
theorem ok_right {b : β} (greatest : ∀ a, values a b) : Tied .loose values result (.ok b) := by
  cases result with
  | ok a => exact greatest a
  | error e => exact rfl

/-- Sums that are checked one like the other. -/
theorem checked {values : GweiSum → GweiSum → Prop} {n m : Nat} (related : values n m) :
    Tied .loose values (GweiSum.checked n) (GweiSum.checked m) := by
  refine loose fun a b found found' => ?_
  obtain ⟨-, rfl⟩ := GweiSum.checked_eq_ok_iff.mp found
  obtain ⟨-, rfl⟩ := GweiSum.checked_eq_ok_iff.mp found'
  exact related

/-- Traversals one entry at a time. -/
theorem mapM_list {f : α → Except Error γ} {g : β → Except Error δ} {list : List α}
    {list' : List β} (each : List.Forall₂ (fun a b => Tied likeness later (f a) (g b)) list list') :
    Tied likeness (List.Forall₂ later) (list.mapM f) (list'.mapM g) := by
  induction each with
  | nil => exact List.Forall₂.nil
  | cons first _ ih =>
    rw [List.mapM_cons, List.mapM_cons]
    refine first.bind fun c d head => ih.bind fun cs ds tail => ?_
    exact List.Forall₂.cons head tail

end Tied

/-! ## Steps -/

namespace Step

variable {σ τ : Type}

/-- Two results of steps with related values and states, and like failures. -/
def Tied (likeness : Likeness) (post : α → σ → β → τ → Prop) : Result σ α → Result τ β → Prop
  | .ok a final, .ok b final' => post a final b final'
  | .error e _, .error e' _ => likeness = .exact → e = e'
  | .ok _ _, .error _ _ => likeness = .loose
  | .error _ _, .ok _ _ => likeness = .loose

namespace Tied

variable {likeness : Likeness} {post : α → σ → β → τ → Prop} {later : γ → σ → δ → τ → Prop}
  {state : σ} {other : τ}

theorem bind {step : Step σ α} {step' : Step τ β} {next : α → Step σ γ} {next' : β → Step τ δ}
    (first : Tied likeness post (step state) (step' other))
    (rest : ∀ a middle b middle', post a middle b middle' →
      Tied likeness later (next a middle) (next' b middle')) :
    Tied likeness later ((step >>= next) state) ((step' >>= next') other) := by
  cases ran : step state with
  | ok a middle =>
    rw [bind_of_ok ran]
    cases ran' : step' other with
    | ok b middle' =>
      rw [bind_of_ok ran']
      rw [ran, ran'] at first
      exact rest a middle b middle' first
    | error e final =>
      rw [ran, ran'] at first
      obtain rfl : likeness = .loose := first
      rw [bind_of_error ran']
      cases next a middle with
      | ok c final => exact rfl
      | error e final => exact nofun
  | error e final =>
    rw [bind_of_error ran]
    cases ran' : step' other with
    | ok b middle' =>
      rw [ran, ran'] at first
      obtain rfl : likeness = .loose := first
      rw [bind_of_ok ran']
      cases next' b middle' with
      | ok c final => exact rfl
      | error e final => exact nofun
    | error e' final =>
      rw [bind_of_error ran']
      rwa [ran, ran'] at first

theorem lift_bind {values : α → β → Prop} {result : Except Error α} {result' : Except Error β}
    {next : α → Step σ γ} {next' : β → Step τ δ}
    (first : BeaconEpoch.Tied likeness values result result')
    (rest : ∀ a b, values a b → Tied likeness later (next a state) (next' b other)) :
    Tied likeness later ((liftM result >>= next) state) ((liftM result' >>= next') other) := by
  have lifted : Tied likeness (fun a middle b middle' => values a b ∧ middle = state ∧
      middle' = other) ((liftM result : Step σ α) state) ((liftM result' : Step τ β) other) := by
    cases result <;> cases result'
    case ok.ok => exact ⟨first, rfl, rfl⟩
    all_goals exact first
  refine lifted.bind ?_
  rintro a _ b _ ⟨related, rfl, rfl⟩
  exact rest a b related

/-- Results that are tied still are with their states in place. -/
theorem move {υ ρ : Type} {moved : α → υ → β → ρ → Prop} {result : Result σ α}
    {result' : Result τ β} {place : σ → υ} {place' : τ → ρ}
    (tied : Tied likeness post result result')
    (states : ∀ a final b final', post a final b final' →
      moved a (place final) b (place' final')) :
    Tied likeness moved (Result.move place result) (Result.move place' result') := by
  cases result <;> cases result'
  case ok.ok => exact states _ _ _ _ tied
  all_goals exact tied

/-- Where the first step succeeds the second one does. -/
theorem exists_right {a : α} {final : σ} {result : Result τ β}
    (tied : Tied likeness post (.ok a final) result) (strict : likeness ≠ .loose) :
    ∃ b final', result = .ok b final' := by
  cases result with
  | ok b final' => exact ⟨b, final', rfl⟩
  | error e final' => exact absurd tied strict

/-- Values and states that are related were found. -/
theorem known {result : Result σ α} {result' : Result τ β}
    (tied : Tied likeness post result result') :
    Tied likeness (fun a final b final' => post a final b final' ∧ result = .ok a final ∧
      result' = .ok b final') result result' := by
  cases result <;> cases result'
  case ok.ok => exact ⟨tied, rfl, rfl⟩
  all_goals exact tied

/-- Results that hang on a check each. -/
theorem of_checks {holds holds' : Prop} {e : Error} {result : Result σ α} {result' : Result τ β}
    (agree : likeness ≠ .loose → (holds ↔ holds'))
    (passes : holds → ∃ a final, result = .ok a final)
    (passes' : holds' → ∃ b final, result' = .ok b final)
    (fails : ¬holds → ∃ final, result = .error e final)
    (fails' : ¬holds' → ∃ final, result' = .error e final)
    (values : ∀ a final b final', result = .ok a final → result' = .ok b final' →
      post a final b final') : Tied likeness post result result' := by
  by_cases check : holds
  · obtain ⟨a, final, rfl⟩ := passes check
    by_cases check' : holds'
    · obtain ⟨b, final', rfl⟩ := passes' check'
      exact values a final b final' rfl rfl
    · obtain ⟨final', rfl⟩ := fails' check'
      by_contra strict
      exact check' ((agree strict).mp check)
  · obtain ⟨final, rfl⟩ := fails check
    by_cases check' : holds'
    · obtain ⟨b, final', rfl⟩ := passes' check'
      by_contra strict
      exact check ((agree strict).mpr check')
    · obtain ⟨final', rfl⟩ := fails' check'
      exact fun _ => rfl

theorem mono {weaker : α → σ → β → τ → Prop} {result : Result σ α} {result' : Result τ β}
    (tied : Tied likeness post result result')
    (weaken : ∀ a final b final', post a final b final' → weaker a final b final') :
    Tied likeness weaker result result' := by
  cases result <;> cases result'
  case ok.ok => exact weaken _ _ _ _ tied
  all_goals exact tied

end Tied

end Step

/-! ## Matched arrays -/

section Matched

variable {count : Nat}

/-- One entry for each of a number of positions, related one by one. Those of the first array are
read in another order. -/
def Matched (order : Equiv.Perm (Fin count)) (related : α → β → Prop) (xs : Array α)
    (ys : Array β) : Prop :=
  ∃ (x : Fin count → α) (y : Fin count → β), xs = Array.ofFn x ∧ ys = Array.ofFn y ∧
    ∀ index, related (x (order index)) (y index)

namespace Matched

variable {order : Equiv.Perm (Fin count)} {related : α → β → Prop} {xs : Array α} {ys : Array β}

theorem ofFn {x : Fin count → α} {y : Fin count → β}
    (each : ∀ index, related (x (order index)) (y index)) :
    Matched order related (Array.ofFn x) (Array.ofFn y) := ⟨x, y, rfl, rfl, each⟩

theorem sizes (matched : Matched order related xs ys) : xs.size = count ∧ ys.size = count := by
  obtain ⟨x, y, rfl, rfl, -⟩ := matched
  exact ⟨Array.size_ofFn, Array.size_ofFn⟩

theorem mono {weaker : α → β → Prop} (matched : Matched order related xs ys)
    (weaken : ∀ a b, related a b → weaker a b) : Matched order weaker xs ys := by
  obtain ⟨x, y, rfl, rfl, each⟩ := matched
  exact ofFn fun index => weaken _ _ (each index)

theorem refl {xs : Array α} (size : xs.size = count) (related : α → α → Prop)
    (each : ∀ a, related a a) : Matched (.refl (Fin count)) related xs xs := by
  obtain rfl := size
  have entries : xs = Array.ofFn fun index : Fin xs.size => xs[index] := Array.ofFn_getElem.symm
  exact ⟨_, _, entries, entries, fun index => each _⟩

theorem eq {xs ys : Array α} (matched : Matched (.refl (Fin count)) Eq xs ys) :
    ys = xs := by
  obtain ⟨x, y, rfl, rfl, each⟩ := matched
  exact congrArg Array.ofFn (funext fun index => (each index).symm)

theorem getD (matched : Matched order related xs ys) (index : Fin count) (a : α) (b : β) :
    related (xs.getD (order index) a) (ys.getD index b) := by
  obtain ⟨x, y, rfl, rfl, each⟩ := matched
  simpa using each index

theorem map {f : α → γ} {g : β → δ} {later : γ → δ → Prop}
    (matched : Matched order related xs ys)
    (each : ∀ a b, related a b → later (f a) (g b)) :
    Matched order later (xs.map f) (ys.map g) := by
  obtain ⟨x, y, rfl, rfl, entries⟩ := matched
  rw [Array.map_ofFn, Array.map_ofFn]
  exact ofFn fun index => each _ _ (entries index)

theorem zipWith {υ ρ : Type} {us : Array γ} {vs : Array δ} {other : γ → δ → Prop}
    {later : υ → ρ → Prop} {f : α → γ → υ} {g : β → δ → ρ}
    (matched : Matched order related xs ys) (second : Matched order other us vs)
    (each : ∀ a b c d, related a b → other c d → later (f a c) (g b d)) :
    Matched order later (xs.zipWith f us) (ys.zipWith g vs) := by
  obtain ⟨x, y, rfl, rfl, entries⟩ := matched
  obtain ⟨u, v, rfl, rfl, entries'⟩ := second
  rw [zipWith_ofFn, zipWith_ofFn]
  exact ofFn fun index => each _ _ _ _ (entries index) (entries' index)

/-- What holds of all entries of the arrays may be relied on. -/
theorem known {p : α → Prop} {q : β → Prop} (matched : Matched order related xs ys)
    (all : ∀ a ∈ xs, p a) (all' : ∀ b ∈ ys, q b) :
    Matched order (fun a b => related a b ∧ p a ∧ q b) xs ys := by
  obtain ⟨x, y, rfl, rfl, each⟩ := matched
  refine ofFn fun index => ⟨each index, all _ ?_, all' _ ?_⟩
  · exact Array.mem_ofFn.mpr ⟨order index, rfl⟩
  · exact Array.mem_ofFn.mpr ⟨index, rfl⟩

/-- In another order there are the same entries. -/
theorem perm {xs ys : Array α} (matched : Matched order Eq xs ys) :
    ys.toList.Perm xs.toList := by
  obtain ⟨x, y, rfl, rfl, each⟩ := matched
  obtain rfl : x ∘ order = y := funext each
  rw [Array.toList_ofFn, Array.toList_ofFn]
  exact Equiv.Perm.ofFn_comp_perm order x

/-- Predicates that agree on related entries find something in both arrays or in none. -/
theorem findIdx?_eq_none_iff {p : α → Bool} {q : β → Bool} (matched : Matched order related xs ys)
    (agree : ∀ a b, related a b → p a = q b) :
    xs.findIdx? p = none ↔ ys.findIdx? q = none := by
  obtain ⟨x, y, rfl, rfl, each⟩ := matched
  simp only [Array.findIdx?_eq_none_iff, Array.mem_ofFn, forall_exists_index,
    forall_apply_eq_imp_iff]
  constructor
  · intro nothing index
    rw [← agree _ _ (each index)]
    exact nothing (order index)
  · intro nothing index
    rw [← order.apply_symm_apply index, agree _ _ (each (order.symm index))]
    exact nothing (order.symm index)

/-- In the same order they find it at the same place. -/
theorem findIdx?_eq {p : α → Bool} {q : β → Bool}
    (matched : Matched (.refl (Fin count)) related xs ys)
    (agree : ∀ a b, related a b → p a = q b) : xs.findIdx? p = ys.findIdx? q := by
  obtain ⟨x, y, rfl, rfl, each⟩ := matched
  have same : p ∘ x = q ∘ y := funext fun index => agree _ _ (each index)
  have positions {ε : Type} (z : Fin count → ε) : Array.ofFn z = (Array.ofFn id).map z := by
    rw [Array.map_ofFn]
    rfl
  rw [positions x, positions y, Array.findIdx?_map, Array.findIdx?_map, same]

/-- **Traversals of matched arrays are tied.** The errors are the same only in the same order. -/
theorem mapM {likeness : Likeness} {f : α → Except Error γ} {g : β → Except Error δ}
    {later : γ → δ → Prop} (matched : Matched order related xs ys)
    (inOrder : likeness = .exact → order = .refl _)
    (each : ∀ a b, related a b → Tied likeness later (f a) (g b)) :
    Tied likeness (Matched order later) (xs.mapM f) (ys.mapM g) := by
  obtain ⟨x, y, rfl, rfl, entries⟩ := matched
  have tied (index : Fin count) : Tied likeness later (f (x (order index))) (g (y index)) :=
    each _ _ (entries index)
  cases found : (Array.ofFn x).mapM f with
  | ok values =>
    obtain ⟨z, rfl, first⟩ := mapM_ofFn_eq_ok_iff.mp found
    simp only [first] at tied
    cases found' : (Array.ofFn y).mapM g with
    | ok values' =>
      obtain ⟨w, rfl, second⟩ := mapM_ofFn_eq_ok_iff.mp found'
      simp only [second] at tied
      exact ofFn tied
    | error e =>
      by_contra strict
      obtain ⟨w, all⟩ := mapM_ofFn_found fun index => (tied index).exists_right strict
      cases found'.symm.trans all
  | error e =>
    cases found' : (Array.ofFn y).mapM g with
    | ok values' =>
      obtain ⟨w, rfl, second⟩ := mapM_ofFn_eq_ok_iff.mp found'
      simp only [second] at tied
      by_contra strict
      have each (index : Fin count) : ∃ c, f (x index) = .ok c := by
        rw [← order.apply_symm_apply index]
        exact (tied (order.symm index)).exists_left strict
      obtain ⟨z, all⟩ := mapM_ofFn_found each
      cases found.symm.trans all
    | error e' =>
      rintro rfl
      obtain rfl := inOrder rfl
      -- in the same order the first entry that fails is the same
      have lockstep : Tied .exact (List.Forall₂ later) ((List.ofFn x).mapM f)
          ((List.ofFn y).mapM g) := Tied.mapM_list (forall₂_ofFn tied)
      rw [Array.mapM_eq_mapM_toList, Array.toList_ofFn] at found found'
      have arrays : Tied .exact (fun _ _ => True) (List.toArray <$> (List.ofFn x).mapM f)
          (List.toArray <$> (List.ofFn y).mapM g) := (lockstep.mono fun _ _ _ => trivial).map
      rw [found, found'] at arrays
      exact arrays rfl

end Matched

end Matched

end BeaconEpoch
