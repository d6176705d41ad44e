import BeaconEpoch.Bytes
import BeaconEpoch.Error
import BeaconEpoch.Root

/-!
# Swap-or-not shuffle

A seeded permutation of a list, made of rounds that swap disjoint pairs of positions or leave them.

## Main definitions

* `Shuffle.flip`: the partner of a position in a round.
* `Shuffle.pivot`, `Shuffle.source`: what a round takes from the seed.
* `Shuffle.findSource`: a source by the number of its chunk, as long as four bytes hold it.
* `Shuffle.swapPairs`: one round over a whole array.
* `Shuffle.applyRounds`, `Shuffle.shuffle`: all rounds, last one first.
* `Shuffle.shuffledIndex`: where a single position ends up, first round first.

## Design notes

* **Any hash.** The hash is a parameter, so that the laws of the shuffle do not depend on it.
* **Pairs are visited once.** In a round over an array the lower position of a pair makes the swap,
  and the bit of the higher one decides it. One hash serves 256 positions.
* **Positions carry their bounds.** A round works on a vector, so that neither a swap nor the choice
  of a hash can miss it.
* **Lists have a longest length.** The chunks of `2 ^ 40` positions have numbers of four bytes. A
  longer list is refused by the first round, before anything is swapped.
-/

namespace BeaconEpoch

/-- The bit of a root that belongs to a position: 256 positions share a root. -/
def Root.bit (root : Root) (position : Nat) : Bool :=
  let offset := position % 256
  have : offset / 8 < 32 := by omega
  root.bytes[offset / 8].toNat.testBit (offset % 8)

/-- The bits of a root are those of its little-endian number. -/
theorem Root.bit_eq_testBit (root : Root) (position : Nat) :
    root.bit position = (ofLittleEndian root.toList).testBit (position % 256) := by
  have inside : position % 256 / 8 < 32 := by omega
  rw [testBit_ofLittleEndian]
  simp [bit, toList, inside]

namespace Shuffle

/-- The position that a position is paired with around a pivot. -/
def flip (pivot count index : Nat) : Nat := (pivot + count - index) % count

theorem flip_lt {pivot count index : Nat} (valid : index < count) :
    flip pivot count index < count := Nat.mod_lt _ (Nat.zero_lt_of_lt valid)

variable (hash : List UInt8 → Root) (seed : Root)

/-- The pivot of a round. -/
def pivot (round count : Nat) : Nat :=
  ofLittleEndian ((hash (seed.toList ++ [UInt8.ofNat round])).toList.take 8) % count

/-- The bits of a round for the positions `256 * chunk` to `256 * chunk + 255`. -/
def source (round chunk : Nat) : Root :=
  hash (seed.toList ++ [UInt8.ofNat round] ++ littleEndian 4 chunk)

/-- The bits of a round for a chunk of positions, as long as four bytes hold its number. -/
def findSource (round chunk : Nat) : Except Error Root :=
  if chunk < 2 ^ 32 then .ok (source hash seed round chunk) else .error .tooManyPositions

/-- Whether the pair whose higher member is `position` swaps in a round: the bit of that position in
the source of its chunk, read as a little-endian number. -/
def swaps (round position : Nat) : Bool :=
  (ofLittleEndian (source hash seed round (position / 256)).toList).testBit (position % 256)

/-! ## Whole arrays -/

variable {α : Type} {count : Nat}

/-- One round: every pair whose higher member is `chosen` is swapped. -/
def swapPairs (pivot : Nat) (chosen : (position : Nat) → position < count → Bool)
    (xs : Vector α count) : Vector α count :=
  count.fold (fun index valid ys =>
    let partner := flip pivot count index
    have partnerValid : partner < count := flip_lt valid
    if index < partner && chosen partner partnerValid then ys.swap index partner valid partnerValid
    else ys) xs

/-- One round of the shuffle, with each source hashed once. -/
def applyRound (round : Nat) (xs : Vector α count) : Except Error (Vector α count) := do
  let sources ← Vector.ofFnM (n := (count + 255) / 256) fun chunk =>
    findSource hash seed round chunk
  return swapPairs (pivot hash seed round count)
    (fun position valid =>
      have : position / 256 < (count + 255) / 256 := by omega
      sources[position / 256].bit position) xs

/-- The first `rounds` rounds, the last of them first. -/
def applyRounds : (rounds : Nat) → Vector α count → Except Error (Vector α count)
  | 0, xs => .ok xs
  | round + 1, xs => do applyRounds round (← applyRound hash seed round xs)

/-- A list after all its rounds. -/
def shuffle (rounds : Nat) (xs : Array α) : Except Error (Array α) := do
  return (← applyRounds hash seed rounds xs.toVector).toArray

/-! ## Single positions -/

/-- Where one round takes a position. -/
def moveIndex (count round index : Nat) : Nat :=
  let partner := flip (pivot hash seed round count) count index
  if swaps hash seed round (max index partner) then partner else index

/-- Where the first `rounds` rounds take a position, first round first. -/
def shuffledIndex (count : Nat) : (rounds : Nat) → (index : Nat) → Nat
  | 0, index => index
  | round + 1, index => moveIndex hash seed count round (shuffledIndex count round index)

end Shuffle

end BeaconEpoch
