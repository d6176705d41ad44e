import BeaconEpoch.Hex

/-!
# Roots

A root is a digest of 32 bytes. Blocks, checkpoints and random mixes are told apart by their roots.

## Main definitions

* `Root`: 32 bytes.
* `Root.ofList`: the root of a list of bytes.
* `Root.toHex`, `Root.ofHex?`: a root as text, `0x` and 64 digits.
-/

namespace BeaconEpoch

/-- A digest of 32 bytes. -/
structure Root where
  /-- The bytes, first to last. -/
  bytes : Vector UInt8 32
deriving DecidableEq

namespace Root

/-- The root all of whose bytes are `byte`. -/
def ofByte (byte : UInt8) : Root := ⟨Vector.replicate 32 byte⟩

/-- The root of zero bytes. -/
def zero : Root := ofByte 0

instance : Inhabited Root := ⟨zero⟩

/-- The root that starts with the given bytes; missing ones are zero. -/
def ofList (bytes : List UInt8) : Root :=
  let bytes := bytes.toArray
  ⟨Vector.ofFn fun i => bytes.getD i 0⟩

/-- The bytes as a list. -/
def toList (root : Root) : List UInt8 := root.bytes.toList

/-- The text of a root: `0x` and 64 small digits. -/
def toHex (root : Root) : String := "0x" ++ String.ofList (Hex.encode root.toList)

/-- The root of a text. -/
def ofHex? (text : String) : Option Root :=
  match text.toList with
  | '0' :: 'x' :: digits =>
    match Hex.decode? digits with
    | some bytes => if bytes.length = 32 then some (ofList bytes) else none
    | none => none
  | _ => none

@[simp] theorem length_toList (root : Root) : root.toList.length = 32 := by simp [toList]

theorem ofList_toList (root : Root) : ofList root.toList = root := by
  obtain ⟨bytes⟩ := root
  simp only [ofList, toList, mk.injEq]
  ext i hi
  simp

end Root

end BeaconEpoch
