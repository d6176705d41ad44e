import BeaconEpoch.Preset
import BeaconEpoch.Shuffle
import Mathlib.Data.Set.Function
import Mathlib.Order.Interval.Set.Defs

/-!
# The shuffle, one position at a time

A round over a whole array swaps pairs in place, each from its lower member, and runs the rounds
from the last to the first. What ends up at a position is found by following that position alone
through the rounds in the other direction.

## Main definitions

* `Shuffle.trade`: where a single round takes a position, for any choice of pairs.
* `Shuffle.Visited`: an array on which a round has come by some positions.

## Main statements

* `Shuffle.flip_flip`, `Shuffle.trade_trade`: a round pairs positions, so it is its own inverse.
* `Shuffle.getElem?_swapPairs`: what a round leaves at every position.
* `Shuffle.applyRound_of_few`, `Shuffle.applyRound_of_many`: lists that a round takes, and those
  that it refuses.
* `Shuffle.shuffle_follows_positions`: what the shuffle leaves at every position, and that it is a
  permutation.

## Design notes

* **The invariant of a round** says of every pair whether its lower member has been visited. Pairs
  are disjoint, so a swap settles both of its positions for good and touches no other pair.
* **Rounds are inverses, their order is not.** That the rounds run backwards needs no inverse: the
  round that is applied to an array last is the first that a position of the result goes through.
-/

namespace BeaconEpoch.Shuffle

variable {α : Type} {count : Nat}

/-! ## Pairs -/

theorem flip_eq {pivot index : Nat} (pivotValid : pivot < count) (valid : index < count) :
    flip pivot count index = if index ≤ pivot then pivot - index else pivot + count - index := by
  unfold flip
  split
  · rw [show pivot + count - index = pivot - index + count by omega, Nat.add_mod_right]
    exact Nat.mod_eq_of_lt (by omega)
  · exact Nat.mod_eq_of_lt (by omega)

/-- The partner of a partner is the position itself. -/
theorem flip_flip {pivot index : Nat} (pivotValid : pivot < count) (valid : index < count) :
    flip pivot count (flip pivot count index) = index := by
  rw [flip_eq pivotValid (flip_lt valid), flip_eq pivotValid valid]
  split <;> split <;> omega

/-- Where a round takes a position: to its partner, if the higher one of the two is chosen. -/
def trade (pivot count : Nat) (chosen : Nat → Bool) (index : Nat) : Nat :=
  if chosen (max index (flip pivot count index)) then flip pivot count index else index

variable {pivot index : Nat} {chosen : Nat → Bool}

theorem trade_lt (valid : index < count) : trade pivot count chosen index < count := by
  unfold trade
  split
  · exact flip_lt valid
  · exact valid

/-- Partners agree on which of them is the higher one, so they trade places or both stay. -/
theorem trade_trade (pivotValid : pivot < count) (valid : index < count) :
    trade pivot count chosen (trade pivot count chosen index) = index := by
  by_cases swap : chosen (max index (flip pivot count index)) = true
  · have there : trade pivot count chosen index = flip pivot count index := if_pos swap
    rw [there, trade, flip_flip pivotValid valid, Nat.max_comm, if_pos swap]
  · have there : trade pivot count chosen index = index := if_neg swap
    rw [there, there]

/-- The lower member of a chosen pair goes to the higher place. -/
theorem trade_lower (lower : index < flip pivot count index)
    (swap : chosen (flip pivot count index) = true) :
    trade pivot count chosen index = flip pivot count index := by
  rw [trade, Nat.max_eq_right (Nat.le_of_lt lower), if_pos swap]

/-- The higher member of a chosen pair goes to the lower place. -/
theorem trade_higher (pivotValid : pivot < count) (valid : index < count)
    (lower : index < flip pivot count index) (swap : chosen (flip pivot count index) = true) :
    trade pivot count chosen (flip pivot count index) = index := by
  rw [trade, flip_flip pivotValid valid, Nat.max_eq_left (Nat.le_of_lt lower), if_pos swap]

/-- A pair stays if its higher member is not chosen, and so does a position that is its own
partner. -/
theorem trade_stay {other : Nat} (pivotValid : pivot < count) (valid : other < count)
    (stay : ¬(index < flip pivot count index ∧ chosen (flip pivot count index) = true))
    (lower : min other (flip pivot count other) = index) :
    trade pivot count chosen other = other := by
  have back := flip_flip pivotValid valid
  -- whichever of the two is lower, the higher one is the partner of the lower one
  have higher : max other (flip pivot count other) = flip pivot count index := by
    rcases Nat.le_total other (flip pivot count other) with le | le
    · rw [← lower, Nat.min_eq_left le, Nat.max_eq_right le]
    · rw [← lower, Nat.min_eq_right le, Nat.max_eq_left le, back]
  unfold trade
  split
  · rename_i swap
    rw [higher] at swap
    have alone : ¬index < flip pivot count index := fun less => stay ⟨less, swap⟩
    omega
  · rfl

/-! ## A round over an array -/

theorem fold_induction {motive : Nat → α → Prop} {bound : Nat}
    {turn : (index : Nat) → index < bound → α → α} {initial : α} (start : motive 0 initial)
    (turns : ∀ index (valid : index < bound) state,
      motive index state → motive (index + 1) (turn index valid state)) :
    motive bound (bound.fold turn initial) := by
  induction bound with
  | zero => exact start
  | succ bound ih =>
    rw [Nat.fold_succ]
    exact turns bound (Nat.lt_succ_self bound) _
      (ih fun index valid => turns index (Nat.lt_succ_of_lt valid))

/-- After some visits exactly the pairs whose lower member was visited have traded places. -/
def Visited (pivot : Nat) (chosen : Nat → Bool) (xs : Vector α count) (visits : Nat)
    (ys : Vector α count) : Prop :=
  ∀ index < count, ys[index]? =
    if min index (flip pivot count index) < visits then xs[trade pivot count chosen index]?
    else xs[index]?

/-- A visit that swaps settles its own pair. Neither member was moved before, because both have the
same lower member, and another pair has another one. -/
theorem Visited.swap {xs ys : Vector α count} (pivotValid : pivot < count) (valid : index < count)
    (lower : index < flip pivot count index) (swap : chosen (flip pivot count index) = true)
    (visited : Visited pivot chosen xs index ys) :
    Visited pivot chosen xs (index + 1)
      (ys.swap index (flip pivot count index) valid (flip_lt valid)) := by
  have self := visited index valid
  have partnerValid : flip pivot count index < count := flip_lt valid
  have partner := visited _ partnerValid
  have back := flip_flip pivotValid valid
  rw [if_neg (by omega)] at self
  rw [back, if_neg (by omega)] at partner
  intro other otherValid
  have otherBack := flip_flip pivotValid otherValid
  rw [Vector.getElem?_swap]
  by_cases isSelf : other = index
  · subst isSelf
    rw [if_neg (by omega), if_pos rfl, if_pos (by omega), trade_lower lower swap, ← partner]
    exact (Vector.getElem?_eq_getElem _).symm
  by_cases isPartner : other = flip pivot count index
  · subst isPartner
    rw [if_pos rfl, back, if_pos (by omega), trade_higher pivotValid valid lower swap, ← self]
    exact (Vector.getElem?_eq_getElem _).symm
  · have apart : flip pivot count other ≠ index := by
      rintro rfl
      exact isPartner otherBack.symm
    have same : min other (flip pivot count other) < index ↔
        min other (flip pivot count other) < index + 1 := by omega
    rw [if_neg (Ne.symm isPartner), if_neg (Ne.symm isSelf), visited other otherValid]
    simp only [same]

/-- A visit that does not swap finds its pair settled. -/
theorem Visited.stay {xs ys : Vector α count} (pivotValid : pivot < count)
    (stay : ¬(index < flip pivot count index ∧ chosen (flip pivot count index) = true))
    (visited : Visited pivot chosen xs index ys) : Visited pivot chosen xs (index + 1) ys := by
  intro other valid
  rw [visited other valid]
  by_cases lower : min other (flip pivot count other) = index
  · rw [trade_stay pivotValid valid stay lower, ite_self, ite_self]
  · have same : min other (flip pivot count other) < index ↔
        min other (flip pivot count other) < index + 1 := by omega
    simp only [same]

/-- **A round takes every position to where it trades.** -/
theorem getElem?_swapPairs (pivotValid : pivot < count) (xs : Vector α count)
    (valid : index < count) :
    (swapPairs pivot (fun position _ => chosen position) xs)[index]? =
      xs[trade pivot count chosen index]? := by
  have visited : Visited pivot chosen xs count
      (swapPairs pivot (fun position _ => chosen position) xs) := by
    refine fold_induction (motive := Visited pivot chosen xs) ?_ ?_
    · intro other _
      rw [if_neg (Nat.not_lt_zero _)]
    · intro visits visitsValid ys visited
      dsimp only
      split
      · rename_i chosen
        rw [Bool.and_eq_true, decide_eq_true_eq] at chosen
        exact visited.swap pivotValid visitsValid chosen.1 chosen.2
      · rename_i chosen
        rw [Bool.and_eq_true, decide_eq_true_eq] at chosen
        exact visited.stay pivotValid chosen
  rw [visited index valid, if_pos (Nat.lt_of_le_of_lt (Nat.min_le_left ..) valid)]

theorem swapPairs_perm (pivot : Nat) (chosen : (position : Nat) → position < count → Bool)
    (xs : Vector α count) : (swapPairs pivot chosen xs).Perm xs := by
  refine fold_induction (motive := fun _ (ys : Vector α count) => ys.Perm xs) (.refl xs) ?_
  intro index valid ys perm
  dsimp only
  split
  · exact (Vector.swap_perm valid (flip_lt valid)).trans perm
  · exact perm

/-! ## All rounds -/

variable (hash : List UInt8 → Root) (seed : Root)

theorem pivot_lt (round : Nat) (valid : index < count) :
    Shuffle.pivot hash seed round count < count :=
  Nat.mod_lt _ (Nat.zero_lt_of_lt valid)

/-- Results that are all found are found together. -/
theorem ofFnM_eq_ok {ε β : Type} {n : Nat} {results : Fin n → Except ε β} {found : Fin n → β}
    (each : ∀ i, results i = .ok (found i)) : Vector.ofFnM results = .ok (Vector.ofFn found) := by
  obtain rfl : results = fun i => pure (found i) := funext each
  exact Vector.ofFnM_pure

/-- Results of which some are missing fail together, like one of those. -/
theorem ofFnM_eq_error {ε β : Type} {n : Nat} (results : Fin n → Except ε β) :
    (∀ i, ∃ b, results i = .ok b) ∨ ∃ i e, results i = .error e ∧
      Vector.ofFnM results = .error e := by
  induction n with
  | zero => exact .inl nofun
  | succ n ih =>
    rw [Vector.ofFnM_succ]
    obtain each | ⟨i, e, missing, failed⟩ := ih fun i => results i.castSucc
    · choose found each using each
      rw [ofFnM_eq_ok each]
      cases last : results (Fin.last n) with
      | ok b => exact .inl (Fin.lastCases ⟨b, last⟩ fun i => ⟨found i, each i⟩)
      | error e => exact .inr ⟨Fin.last n, e, last, rfl⟩
    · rw [failed]
      exact .inr ⟨i.castSucc, e, missing, rfl⟩

/-- **A round finds all its sources if there are few enough positions.** One hash per 256 positions
gives each position the bit that it would find alone. -/
theorem applyRound_of_few (few : count ≤ 2 ^ 40) (round : Nat) (xs : Vector α count) :
    applyRound hash seed round xs =
      .ok (swapPairs (Shuffle.pivot hash seed round count)
        (fun position _ => swaps hash seed round position) xs) := by
  have each (chunk : Fin ((count + 255) / 256)) :
      findSource hash seed round chunk = .ok (source hash seed round chunk) :=
    if_pos (by omega)
  simp only [applyRound, ofFnM_eq_ok each]
  simp only [swaps, ← Root.bit_eq_testBit, bind, Except.bind, pure, Except.pure,
    Vector.getElem_ofFn]

/-- A round refuses a longer list: the number of its last chunk needs a fifth byte. -/
theorem applyRound_of_many (many : 2 ^ 40 < count) (round : Nat) (xs : Vector α count) :
    applyRound hash seed round xs = .error .tooManyPositions := by
  have missing {chunk : Nat} {e : Error} (fails : findSource hash seed round chunk = .error e) :
      e = .tooManyPositions := by
    unfold findSource at fails
    split at fails
    · cases fails
    · exact (Except.error.inj fails).symm
  obtain each | ⟨chunk, e, fails, failed⟩ :=
    ofFnM_eq_error fun chunk : Fin ((count + 255) / 256) => findSource hash seed round chunk
  · obtain ⟨_, found⟩ := each ⟨2 ^ 32, by omega⟩
    cases found.symm.trans (if_neg (Nat.lt_irrefl _))
  · simp only [applyRound, failed, missing fails]
    rfl

theorem moveIndex_lt (round : Nat) (valid : index < count) :
    moveIndex hash seed count round index < count := trade_lt valid

theorem moveIndex_moveIndex (round : Nat) (valid : index < count) :
    moveIndex hash seed count round (moveIndex hash seed count round index) = index :=
  trade_trade (pivot_lt hash seed round valid) valid

theorem shuffledIndex_lt (rounds : Nat) (valid : index < count) :
    shuffledIndex hash seed count rounds index < count := by
  induction rounds with
  | zero => exact valid
  | succ rounds ih => exact moveIndex_lt hash seed rounds ih

/-- **Rounds take few enough positions through all of them.** The round that is applied last is the
first that a position goes through. -/
theorem applyRounds_of_few (few : count ≤ 2 ^ 40) (rounds : Nat) (xs : Vector α count) :
    ∃ ys, applyRounds hash seed rounds xs = .ok ys ∧ ys.Perm xs ∧
      ∀ index < count, ys[index]? = xs[shuffledIndex hash seed count rounds index]? := by
  induction rounds generalizing xs with
  | zero => exact ⟨xs, rfl, .refl xs, fun _ _ => rfl⟩
  | succ round ih =>
    have first := applyRound_of_few hash seed few round xs
    obtain ⟨ys, ran, perm, follows⟩ := ih (swapPairs (Shuffle.pivot hash seed round count)
      (fun position _ => swaps hash seed round position) xs)
    refine ⟨ys, by rw [applyRounds, first]; exact ran, perm.trans (swapPairs_perm ..), ?_⟩
    intro index valid
    have inside := shuffledIndex_lt hash seed round valid
    rw [follows index valid, getElem?_swapPairs (pivot_lt hash seed round inside) xs inside]
    rfl

/-- Every round is its own inverse on the positions, and so all rounds together are a bijection. -/
theorem shuffledIndex_bijOn (count rounds : Nat) :
    Set.BijOn (shuffledIndex hash seed count rounds) (Set.Iio count) (Set.Iio count) := by
  induction rounds with
  | zero => exact Set.bijOn_id _
  | succ rounds ih =>
    have round : Set.BijOn (moveIndex hash seed count rounds) (Set.Iio count) (Set.Iio count) := by
      have inverse : Set.InvOn (moveIndex hash seed count rounds)
          (moveIndex hash seed count rounds) (Set.Iio count) (Set.Iio count) :=
        ⟨fun _ valid => moveIndex_moveIndex hash seed rounds valid,
          fun _ valid => moveIndex_moveIndex hash seed rounds valid⟩
      exact inverse.bijOn (fun _ valid => moveIndex_lt hash seed rounds valid)
        fun _ valid => moveIndex_lt hash seed rounds valid
    exact round.comp ih

/-- A list with few enough positions is found in its new order. -/
theorem shuffle_of_few (rounds : Nat) {xs : Array α} (few : xs.size ≤ 2 ^ 40) :
    ∃ ys, shuffle hash seed rounds xs = .ok ys ∧ ys.Perm xs ∧
      ∀ index < xs.size, ys[index]? = xs[shuffledIndex hash seed xs.size rounds index]? := by
  obtain ⟨ys, ran, perm, follows⟩ := applyRounds_of_few hash seed few rounds xs.toVector
  refine ⟨ys.toArray, by rw [shuffle, ran]; rfl, perm.toArray, fun index valid => ?_⟩
  have found := follows index valid
  rwa [← Vector.getElem?_toArray, ← Vector.getElem?_toArray] at found

/-- A longer list is refused, if there is a round at all. -/
theorem shuffle_of_many {rounds : Nat} (several : 0 < rounds) {xs : Array α}
    (many : 2 ^ 40 < xs.size) : shuffle hash seed rounds xs = .error .tooManyPositions := by
  obtain ⟨round, rfl⟩ := Nat.exists_eq_add_one.mpr several
  rw [shuffle, applyRounds, applyRound_of_many hash seed many]
  rfl

/-- What a shuffle finds is a permutation. -/
theorem perm_of_shuffle {rounds : Nat} (several : 0 < rounds) {xs ys : Array α}
    (found : shuffle hash seed rounds xs = .ok ys) : ys.Perm xs := by
  by_cases few : xs.size ≤ 2 ^ 40
  · obtain ⟨zs, found', perm, -⟩ := shuffle_of_few hash seed rounds few
    cases found'.symm.trans found
    exact perm
  · cases (shuffle_of_many hash seed several (Nat.lt_of_not_le few)).symm.trans found

/-- **The shuffle follows every position alone.** For any hash, any seed and any list of up to
`2 ^ 40` elements, the shuffle of a preset leaves at each position the element of the position that
the rounds take it to, the first round first, and is a permutation; a longer list is refused. That
map of positions is a bijection. -/
theorem shuffle_follows_positions (preset : Preset) (xs : Array α) :
    (if xs.size ≤ 2 ^ 40 then
      ∃ ys, shuffle hash seed preset.shuffleRoundCount xs = .ok ys ∧ ys.Perm xs ∧
        ∀ index : Fin xs.size,
          ys[index.val]? = xs[shuffledIndex hash seed xs.size preset.shuffleRoundCount index]?
    else shuffle hash seed preset.shuffleRoundCount xs = .error .tooManyPositions) ∧
      Set.BijOn (shuffledIndex hash seed xs.size preset.shuffleRoundCount)
        (Set.Iio xs.size) (Set.Iio xs.size) := by
  refine ⟨?_, shuffledIndex_bijOn hash seed ..⟩
  split
  · rename_i few
    obtain ⟨ys, found, perm, follows⟩ := shuffle_of_few hash seed preset.shuffleRoundCount few
    exact ⟨ys, found, perm, fun index => follows index index.isLt⟩
  · rename_i many
    exact shuffle_of_many hash seed preset.shuffleRoundCount_pos (Nat.lt_of_not_le many)

end BeaconEpoch.Shuffle
