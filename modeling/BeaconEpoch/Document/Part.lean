import BeaconEpoch.Attestation
import BeaconEpoch.Document.Bitlist
import BeaconEpoch.Json.Tree
import BeaconEpoch.Validator

/-!
# The parts of state documents

Roots, checkpoints, validators and attestations as JSON values.

## Main definitions

* `Root.ofText?`: the root that a text stands for.
* `T.toJson`, `T.ofJson?` for roots, checkpoints, validators, bit lists, attestation data and
  attestations.

Reading gives back what was written, for each of them (`T.ofJson?_toJson`).
-/

namespace BeaconEpoch

/-! ## Roots -/

namespace Root

/-- The root that a text of 64 characters, after `0x` or without it, stands for. Blanks among the
digits are skipped; the digits that are then missing count as zeros, and a last digit without a
partner does not count. -/
def ofText? (text : String) : Option Root :=
  let characters := match text.toList with
    | '0' :: 'x' :: characters => characters
    | characters => characters
  if characters.length = 64 then
    let digits := characters.filter (!Json.isBlank ·)
    if digits.all fun c => (Hex.value? c).isSome then
      (Hex.decode? (digits.take (2 * (digits.length / 2)))).map ofList
    else none
  else none

/-- A root as a JSON value. -/
def toJson (root : Root) : Json := Json.ofText root.toHex

/-- The root that a JSON value is. -/
def ofJson? (json : Json) : Option Root := json.text?.bind ofText?

/-- Digits are read as digits and are not taken for blanks. -/
theorem digit_isHex :
    ∀ n < 16, (Hex.value? (Hex.digit n)).isSome ∧ Json.isBlank (Hex.digit n) = false := by
  decide

/-- Every character of a text that spells bytes is a digit, so nothing is skipped on reading it. -/
theorem isHex_of_mem_encode {bytes : List UInt8} {c : Char} (mem : c ∈ Hex.encode bytes) :
    (Hex.value? c).isSome ∧ Json.isBlank c = false := by
  simp only [Hex.encode, List.mem_flatMap, List.mem_cons, List.not_mem_nil, or_false] at mem
  obtain ⟨byte, -, rfl | rfl⟩ := mem
  · exact digit_isHex _ (by have := byte.toNat_lt; omega)
  · exact digit_isHex _ (by omega)

/-- Two digits spell a byte. -/
theorem length_encode (bytes : List UInt8) : (Hex.encode bytes).length = 2 * bytes.length := by
  induction bytes with
  | nil => rfl
  | cons byte bytes ih =>
    rw [Hex.encode, List.flatMap_cons, List.length_append]
    rw [Hex.encode] at ih
    rw [ih]
    simp
    omega

/-- A root is read back from its digits: they are 64, they are all kept, and they come in pairs. -/
theorem ofText?_toHex (root : Root) : ofText? root.toHex = some root := by
  have length : (Hex.encode root.toList).length = 64 := by rw [length_encode, length_toList]
  have keep : (Hex.encode root.toList).filter (!Json.isBlank ·) = Hex.encode root.toList := by
    rw [List.filter_eq_self]
    intro c mem
    simp [(isHex_of_mem_encode mem).2]
  have all : (Hex.encode root.toList).all fun c => (Hex.value? c).isSome := by
    rw [List.all_eq_true]
    exact fun c mem => (isHex_of_mem_encode mem).1
  have take : (Hex.encode root.toList).take 64 = Hex.encode root.toList := by
    rw [← length, List.take_length]
  simp [ofText?, toHex, length, keep, all, take, Hex.decode?_encode, ofList_toList]

/-- Reading a root gives back what was written. -/
theorem ofJson?_toJson (root : Root) : ofJson? root.toJson = some root := ofText?_toHex root

end Root

/-! ## Checkpoints -/

namespace Checkpoint

/-- The keys of a checkpoint. -/
def keys : List String := ["epoch", "root"]

/-- A checkpoint as a JSON value. -/
def toJson (checkpoint : Checkpoint) : Json :=
  .record keys [.ofNat checkpoint.epoch.toNat, checkpoint.root.toJson]

/-- The checkpoint that a JSON value is. -/
def ofJson? (json : Json) : Option Checkpoint := do
  match ← json.fields? keys with
  | [epoch, root] => return { epoch := ← epoch.word?, root := ← Root.ofJson? root }
  | _ => none

/-- A checkpoint is read back because its keys differ and each of its two values is. -/
theorem ofJson?_toJson (checkpoint : Checkpoint) : ofJson? checkpoint.toJson = some checkpoint := by
  rw [ofJson?, toJson, Json.fields?_record (show keys.Nodup by decide) (by rfl)]
  simp [Json.word?_ofNat, Root.ofJson?_toJson]

end Checkpoint

/-! ## Validators -/

namespace Validator

/-- The keys of a validator. -/
def keys : List String :=
  ["effective_balance", "slashed", "activation_eligibility_epoch", "activation_epoch", "exit_epoch",
    "withdrawable_epoch"]

/-- A validator as a JSON value. -/
def toJson (validator : Validator) : Json :=
  .record keys [.ofNat validator.effectiveBalance.toNat, .ofBool validator.slashed,
    .ofNat validator.activationEligibilityEpoch.toNat, .ofNat validator.activationEpoch.toNat,
    .ofNat validator.exitEpoch.toNat, .ofNat validator.withdrawableEpoch.toNat]

/-- The validator that a JSON value is. -/
def ofJson? (json : Json) : Option Validator := do
  match ← json.fields? keys with
  | [balance, slashed, eligibility, activation, exit, withdrawable] =>
    return {
      effectiveBalance := ← balance.word?
      slashed := ← slashed.bool?
      activationEligibilityEpoch := ← eligibility.word?
      activationEpoch := ← activation.word?
      exitEpoch := ← exit.word?
      withdrawableEpoch := ← withdrawable.word? }
  | _ => none

/-- A validator is read back, all of its words and its mark of slashing. -/
theorem ofJson?_toJson (validator : Validator) : ofJson? validator.toJson = some validator := by
  rw [ofJson?, toJson, Json.fields?_record (show keys.Nodup by decide) (by rfl)]
  simp [Json.word?_ofNat, Json.ofBool, Json.bool?]

end Validator

/-! ## Bits -/

namespace Bitlist

/-- The keys of a bit list. -/
def keys : List String := ["order", "head", "bits", "data"]

/-- The keys of the position of the first bit. -/
def headKeys : List String := ["width", "index"]

/-- The order of the bits in a byte, by its name: lowest first. -/
def order : String := "bitvec::order::Lsb0"

/-- A bit list as a JSON value: the order of the bits in a byte, the width of a byte and the
position of the first bit in it, the number of bits, and the bytes. -/
def toJson (first : Fin 8) (bits : List Bool) : Json :=
  .record keys [.ofText order, .record headKeys [.ofNat 8, .ofNat first], .ofNat bits.length,
    .ofList (fun byte => .ofNat byte.toNat) (toBytes first bits)]

/-- The position of a bit in a byte that a JSON value is. -/
def position? (json : Json) : Option (Fin 8) :=
  json.nat?.bind fun n => if h : n < 8 then some ⟨n, h⟩ else none

/-- The bit list that a JSON value is, with the position of its first bit. -/
def ofJson? (json : Json) : Option (Fin 8 × List Bool) := do
  match ← json.fields? keys with
  | [name, head, count, bytes] =>
    if name.text? = some order then
      match ← head.fields? headKeys with
      | [width, index] =>
        if width.nat? = some 8 then
          let first ← position? index
          return (first, ← ofBytes? first (← count.nat?) (← bytes.list? Json.byte?))
        else none
      | _ => none
    else none
  | _ => none

/-- Every position in a byte is written as a number that is one. -/
theorem position?_ofNat (first : Fin 8) : position? (.ofNat first) = some first := by
  simp [position?, Json.ofNat, Json.nat?]

/-- A bit list is read back together with the position of its first bit. -/
theorem ofJson?_toJson (first : Fin 8) (bits : List Bool) :
    ofJson? (toJson first bits) = some (first, bits) := by
  have bytes : (Json.ofList (fun byte => .ofNat byte.toNat) (toBytes first bits)).list?
      Json.byte? = some (toBytes first bits) := Json.list?_ofList Json.byte?_ofNat _
  have head : (Json.record headKeys [.ofNat 8, .ofNat first]).fields? headKeys =
      some [.ofNat 8, .ofNat first] := Json.fields?_record (by decide) rfl
  rw [ofJson?, toJson, Json.fields?_record (show keys.Nodup by decide) (by rfl)]
  simp only [Option.bind_eq_bind, Option.bind_some, head, bytes, position?_ofNat]
  simp [Json.ofText, Json.text?, Json.ofNat, Json.nat?, ofBytes?_toBytes]

end Bitlist

/-! ## Attestations -/

namespace AttestationData

/-- The keys of what is voted for. -/
def keys : List String := ["slot", "index", "beacon_block_root", "source", "target"]

/-- What is voted for, as a JSON value. -/
def toJson (data : AttestationData) : Json :=
  .record keys [.ofNat data.slot.toNat, .ofNat data.index.toNat, data.beaconBlockRoot.toJson,
    data.source.toJson, data.target.toJson]

/-- What is voted for, read from a JSON value. -/
def ofJson? (json : Json) : Option AttestationData := do
  match ← json.fields? keys with
  | [slot, index, root, source, target] =>
    return {
      slot := ← slot.word?
      index := ← index.word?
      beaconBlockRoot := ← Root.ofJson? root
      source := ← Checkpoint.ofJson? source
      target := ← Checkpoint.ofJson? target }
  | _ => none

/-- What is voted for is read back, its two checkpoints included. -/
theorem ofJson?_toJson (data : AttestationData) : ofJson? data.toJson = some data := by
  rw [ofJson?, toJson, Json.fields?_record (show keys.Nodup by decide) (by rfl)]
  simp [Json.word?_ofNat, Root.ofJson?_toJson, Checkpoint.ofJson?_toJson]

end AttestationData

namespace PendingAttestation

/-- The keys of an attestation. -/
def keys : List String := ["aggregation_bits", "data", "inclusion_delay", "proposer_index"]

/-- An attestation as a JSON value. -/
def toJson (attestation : PendingAttestation) : Json :=
  .record keys [Bitlist.toJson attestation.firstBit attestation.aggregationBits,
    attestation.data.toJson,
    .ofNat attestation.inclusionDelay.toNat, .ofNat attestation.proposerIndex.toNat]

/-- The attestation that a JSON value is. -/
def ofJson? (json : Json) : Option PendingAttestation := do
  match ← json.fields? keys with
  | [bits, data, delay, proposer] =>
    let (first, bits) ← Bitlist.ofJson? bits
    return {
      aggregationBits := bits
      firstBit := first
      data := ← AttestationData.ofJson? data
      inclusionDelay := ← delay.word?
      proposerIndex := ← proposer.word? }
  | _ => none

/-- An attestation is read back, with its bits where they were. -/
theorem ofJson?_toJson (attestation : PendingAttestation) :
    ofJson? attestation.toJson = some attestation := by
  rw [ofJson?, toJson, Json.fields?_record (show keys.Nodup by decide) (by rfl)]
  simp [Json.word?_ofNat, Bitlist.ofJson?_toJson, AttestationData.ofJson?_toJson]

end PendingAttestation

end BeaconEpoch
