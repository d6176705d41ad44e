import BeaconEpoch.Document.State
import BeaconEpoch.Proofs.Document.Text

/-!
# State documents are read back

A state of any phase that is written down and read again is the same state, up to its cache.

## Main definitions

* `BeaconState.entries`: the phase of a state and the state itself, each under its key.

## Main statements

* `Bitlist.toBytes_packs`: how bits are written.
* `BeaconState.entries_plain`: what documents are made of.
* `BeaconState.parts?_of_perm`: the two entries in either order.
* `BeaconState.withCache_of_parse?`: what is read has an empty cache.
* `BeaconState.parse?_roundTrip`: state documents as text.

## Design notes

* **From values to text.** That the parts of a document are read back from the values that they are
  written as is a law of each part. What is left is that all these values are plain, so that they
  are read back from their text.
-/

namespace BeaconEpoch

/-! ## Bits in bytes -/

/-- The byte at a place is the digit there, to the base 256. -/
theorem getElem?_littleEndian {count index : Nat} (inside : index < count) (n : Nat) :
    (littleEndian count n)[index]? = some (UInt8.ofNat (n / 256 ^ index)) := by
  induction index generalizing count n with
  | zero =>
    obtain ⟨count, rfl⟩ := Nat.exists_eq_add_one_of_ne_zero (Nat.ne_of_gt inside)
    simp [littleEndian]
  | succ index ih =>
    obtain ⟨count, rfl⟩ :=
      Nat.exists_eq_add_one_of_ne_zero (Nat.ne_of_gt (Nat.zero_lt_of_lt inside))
    rw [littleEndian, List.getElem?_cons_succ, ih (Nat.lt_of_succ_lt_succ inside),
      Nat.div_div_eq_div_mul, Nat.pow_succ']

namespace Bitlist

/-- The bits of the number that a bit list stands for are the bits of the list. -/
theorem testBit_toNat (bits : List Bool) (index : Nat) :
    (toNat bits).testBit index = bits.getD index false := by
  induction bits generalizing index with
  | nil => simp [toNat]
  | cons bit bits ih =>
    cases index with
    | zero => cases bit <;> simp [toNat, Nat.testBit_zero, Nat.add_mod]
    | succ index =>
      have half : (bit.toNat + 2 * toNat bits) / 2 = toNat bits := by
        have := bit.toNat_lt
        omega
      rw [toNat, Nat.testBit_succ, half, ih]
      rfl

/-- Eight bits are written to a byte, the first one in the lowest place, and no more bytes than are
needed for that. -/
theorem toBytes_packs (first : Nat) (bits : List Bool) :
    (toBytes first bits).length = (first + bits.length + 7) / 8 ∧
      ∀ index < bits.length, ∃ byte, (toBytes first bits)[(first + index) / 8]? = some byte ∧
        bits[index]? = some (byte.toNat.testBit ((first + index) % 8)) := by
  refine ⟨length_toBytes first bits, ?_⟩
  intro index inside
  have enough : (first + index) / 8 < byteCount (first + bits.length) := by
    rw [byteCount]
    omega
  refine ⟨_, getElem?_littleEndian enough _, ?_⟩
  have place : (first + index) % 8 + 8 * ((first + index) / 8) = first + index :=
    Nat.mod_add_div ..
  have small : (first + index) % 8 < 8 := Nat.mod_lt _ (by decide)
  have powers : 256 ^ ((first + index) / 8) = 2 ^ (8 * ((first + index) / 8)) :=
    (Nat.pow_mul 2 8 _).symm
  rw [UInt8.toNat_ofNat', Nat.testBit_mod_two_pow, powers, Nat.testBit_div_two_pow, place,
    Nat.testBit_two_pow_mul, testBit_toNat]
  simp [small, inside]

end Bitlist

/-! ## Documents are plain -/

@[simp] theorem Root.toJson_plain (root : Root) : root.toJson.Plain := Json.plain_ofText _

@[simp] theorem Checkpoint.toJson_plain (checkpoint : Checkpoint) : checkpoint.toJson.Plain :=
  Json.plain_record (by simp)

@[simp] theorem Validator.toJson_plain (validator : Validator) : validator.toJson.Plain :=
  Json.plain_record (by simp)

@[simp] theorem Bitlist.toJson_plain (first : Fin 8) (bits : List Bool) :
    (toJson first bits).Plain := by
  have head : (Json.record headKeys [.ofNat 8, .ofNat first]).Plain :=
    Json.plain_record (by simp)
  exact Json.plain_record (by simp [head])

@[simp] theorem AttestationData.toJson_plain (data : AttestationData) : data.toJson.Plain :=
  Json.plain_record (by simp)

@[simp] theorem PendingAttestation.toJson_plain (attestation : PendingAttestation) :
    attestation.toJson.Plain :=
  Json.plain_record (by simp)

variable {preset : Preset}

/-- Everything that a chain writes is plain, so it can be told apart when it is read. -/
theorem Chain.values_plain (chain : Chain preset) : ∀ value ∈ chain.values, value.Plain := by
  simp [values]

@[simp] theorem PendingState.toJson_plain (state : PendingState preset) :
    (PendingState.toJson state).Plain := by
  refine Json.plain_record (List.forall_mem_append.mpr ⟨state.chain.values_plain, ?_⟩)
  simp

@[simp] theorem FlagState.toJson_plain (state : FlagState preset) :
    (FlagState.toJson state).Plain := by
  refine Json.plain_record (List.forall_mem_append.mpr ⟨state.chain.values_plain, ?_⟩)
  simp

/-! ## Caches -/

/-- A cache is not part of a document. -/
theorem PendingState.cache_of_ofJson? {json : Json} {state : PendingState preset}
    (read : ofJson? preset json = some state) : state.cache = Cache.empty := by
  obtain ⟨values, -, read⟩ := Option.bind_eq_some_iff.mp read
  split at read
  · obtain ⟨chain, -, read⟩ := Option.bind_eq_some_iff.mp read
    obtain ⟨previous, -, read⟩ := Option.bind_eq_some_iff.mp read
    obtain ⟨current, -, read⟩ := Option.bind_eq_some_iff.mp read
    cases read
    rfl
  · cases read

theorem FlagState.cache_of_ofJson? {json : Json} {state : FlagState preset}
    (read : ofJson? preset json = some state) : state.cache = Cache.empty := by
  obtain ⟨values, -, read⟩ := Option.bind_eq_some_iff.mp read
  split at read
  · obtain ⟨chain, -, read⟩ := Option.bind_eq_some_iff.mp read
    obtain ⟨previous, -, read⟩ := Option.bind_eq_some_iff.mp read
    obtain ⟨current, -, read⟩ := Option.bind_eq_some_iff.mp read
    obtain ⟨scores, -, read⟩ := Option.bind_eq_some_iff.mp read
    cases read
    rfl
  · cases read

namespace BeaconState

/-- The entries of a document: the phase and the state, each under its key. -/
def entries (state : BeaconState preset) : List (String × Json) :=
  [(phaseKey, .ofText state.phase.name), (stateKey, state.body)]

theorem body_plain (state : BeaconState preset) : state.body.Plain := by
  cases state with
  | pending state => exact PendingState.toJson_plain state
  | flagged phase state => exact FlagState.toJson_plain state

theorem entries_plain (state : BeaconState preset) : ∀ entry ∈ state.entries, entry.2.Plain := by
  simp [entries, body_plain]

/-! ## Documents are read back -/

/-- The two entries of a document may come in either order. -/
theorem parts?_of_perm {state : BeaconState preset} {entries : List (String × Json)}
    (order : entries.Perm state.entries) :
    parts? (.object entries) = some (state.phase, state.body) := by
  have phase : entries.filter (·.1 == phaseKey) = [(phaseKey, .ofText state.phase.name)] :=
    List.perm_singleton.mp (order.filter _)
  have body : entries.filter (·.1 == stateKey) = [(stateKey, state.body)] :=
    List.perm_singleton.mp (order.filter _)
  have name : phaseOfValue? (.ofText state.phase.name) = some state.phase := Phase.ofName?_name _
  simp [parts?, phase, body, name]

/-- A document with its entries in either order is read back. -/
theorem parse?_render_of_perm {state : BeaconState preset} {entries : List (String × Json)}
    (order : entries.Perm state.entries) :
    parse? preset (Json.object entries).render = some (state.withCache Cache.empty) := by
  have plain : (Json.object entries).Plain :=
    .object fun entry listed => state.entries_plain entry (order.mem_iff.mp listed)
  rw [parse?, Json.parse?_render plain]
  show ofJson? preset (.object entries) = _
  rw [ofJson?, parts?_of_perm order]
  exact ofBody?_body state

/-- What is read from a document has an empty cache. -/
theorem withCache_of_parse? {text : String} {state : BeaconState preset}
    (read : parse? preset text = some state) : state.withCache Cache.empty = state := by
  obtain ⟨json, -, read⟩ := Option.bind_eq_some_iff.mp read
  obtain ⟨⟨phase, body⟩, -, read⟩ := Option.bind_eq_some_iff.mp read
  simp only [ofBody?] at read
  split at read
  · obtain ⟨pending, found, rfl⟩ := Option.map_eq_some_iff.mp read
    rw [withCache, ← PendingState.cache_of_ofJson? found]
  · obtain ⟨flagged, found, rfl⟩ := Option.map_eq_some_iff.mp read
    rw [withCache, ← FlagState.cache_of_ofJson? found]

/-- **State documents are read back.** A state of any phase that is written down, with the phase
before the state or after it, is read as the same state with an empty cache. So reading a document,
writing the result down and reading it again is reading the document. -/
theorem parse?_roundTrip (preset : Preset) :
    (∀ state : BeaconState preset,
      parse? preset state.render = some (state.withCache Cache.empty) ∧
        parse? preset (Json.object state.entries.reverse).render =
          some (state.withCache Cache.empty)) ∧
      ∀ text, (parse? preset text).bind (fun state => parse? preset state.render) =
        parse? preset text := by
  have written (state : BeaconState preset) :
      parse? preset state.render = some (state.withCache Cache.empty) :=
    parse?_render_of_perm (.refl state.entries)
  constructor
  · intro state
    exact ⟨written state, parse?_render_of_perm (List.reverse_perm state.entries)⟩
  · intro text
    cases read : parse? preset text with
    | none => rfl
    | some state =>
      rw [Option.bind_some, written, withCache_of_parse? read]

end BeaconState

end BeaconEpoch
