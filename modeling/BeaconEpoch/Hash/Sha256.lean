import BeaconEpoch.Root

/-!
# SHA-256

The hash behind seeds and shuffles.

## Main definitions

* `Sha256.pad`: a message, filled up to whole blocks of 64 bytes.
* `Sha256.schedule`: the 64 words that a block is mixed in by.
* `Sha256.compress`: one block mixed into a running digest.
* `Sha256.digest`: the hash of a message.
-/

namespace BeaconEpoch.Sha256

/-- A running digest: eight words. -/
structure Digest where
  a : UInt32
  b : UInt32
  c : UInt32
  d : UInt32
  e : UInt32
  f : UInt32
  g : UInt32
  h : UInt32

/-- The digest before the first block. -/
def start : Digest :=
  ⟨0x6a09e667, 0xbb67ae85, 0x3c6ef372, 0xa54ff53a, 0x510e527f, 0x9b05688c, 0x1f83d9ab, 0x5be0cd19⟩

/-- The constants of the 64 rounds. -/
def roundConstants : List UInt32 :=
  [0x428a2f98, 0x71374491, 0xb5c0fbcf, 0xe9b5dba5, 0x3956c25b, 0x59f111f1, 0x923f82a4, 0xab1c5ed5,
   0xd807aa98, 0x12835b01, 0x243185be, 0x550c7dc3, 0x72be5d74, 0x80deb1fe, 0x9bdc06a7, 0xc19bf174,
   0xe49b69c1, 0xefbe4786, 0x0fc19dc6, 0x240ca1cc, 0x2de92c6f, 0x4a7484aa, 0x5cb0a9dc, 0x76f988da,
   0x983e5152, 0xa831c66d, 0xb00327c8, 0xbf597fc7, 0xc6e00bf3, 0xd5a79147, 0x06ca6351, 0x14292967,
   0x27b70a85, 0x2e1b2138, 0x4d2c6dfc, 0x53380d13, 0x650a7354, 0x766a0abb, 0x81c2c92e, 0x92722c85,
   0xa2bfe8a1, 0xa81a664b, 0xc24b8b70, 0xc76c51a3, 0xd192e819, 0xd6990624, 0xf40e3585, 0x106aa070,
   0x19a4c116, 0x1e376c08, 0x2748774c, 0x34b0bcb5, 0x391c0cb3, 0x4ed8aa4a, 0x5b9cca4f, 0x682e6ff3,
   0x748f82ee, 0x78a5636f, 0x84c87814, 0x8cc70208, 0x90befffa, 0xa4506ceb, 0xbef9a3f7, 0xc67178f2]

/-- Rotation to the right. -/
@[inline] def rotate (x n : UInt32) : UInt32 := (x >>> n) ||| (x <<< (32 - n))

/-! ## Blocks -/

/-- The word of four bytes, high byte first. -/
def word (a b c d : UInt8) : UInt32 :=
  (a.toUInt32 <<< 24) ||| (b.toUInt32 <<< 16) ||| (c.toUInt32 <<< 8) ||| d.toUInt32

/-- The words of a list of bytes. -/
def words : List UInt8 → List UInt32
  | a :: b :: c :: d :: rest => word a b c d :: words rest
  | _ => []

/-- The bytes of a word, high byte first. -/
def bytes (w : UInt32) : List UInt8 :=
  [(w >>> 24).toUInt8, (w >>> 16).toUInt8, (w >>> 8).toUInt8, w.toUInt8]

/-- A message, a set bit, as many zeros as are missing, and the number of bits in eight bytes. -/
def pad (message : List UInt8) : List UInt8 :=
  let bits := UInt64.ofNat (8 * message.length)
  let filling : List UInt8 := 0x80 :: List.replicate ((119 - message.length % 64) % 64) 0
  message ++ filling ++ bytes (bits >>> 32).toUInt32 ++ bytes bits.toUInt32

/-- The blocks of a padded message. -/
def blocks (padded : List UInt8) : List (List UInt8) :=
  (List.range (padded.length / 64)).map fun i => (padded.drop (64 * i)).take 64

/-! ## Compression -/

/-- Appends `n` words, each made of the four at distances 16, 15, 7 and 2 before it. -/
def extend (ws : Array UInt32) : (n : Nat) → Array UInt32
  | 0 => ws
  | n + 1 =>
    let i := ws.size
    let x := ws.getD (i - 15) 0
    let y := ws.getD (i - 2) 0
    let s0 := rotate x 7 ^^^ rotate x 18 ^^^ (x >>> 3)
    let s1 := rotate y 17 ^^^ rotate y 19 ^^^ (y >>> 10)
    extend (ws.push (ws.getD (i - 16) 0 + s0 + ws.getD (i - 7) 0 + s1)) n

/-- The words that a block is mixed in by: its own sixteen and 48 more. -/
def schedule (block : List UInt8) : List UInt32 := (extend (words block).toArray 48).toList

/-- One round. -/
def round (s : Digest) (k w : UInt32) : Digest :=
  let s1 := rotate s.e 6 ^^^ rotate s.e 11 ^^^ rotate s.e 25
  let choice := (s.e &&& s.f) ^^^ (~~~s.e &&& s.g)
  let t1 := s.h + s1 + choice + k + w
  let s0 := rotate s.a 2 ^^^ rotate s.a 13 ^^^ rotate s.a 22
  let majority := (s.a &&& s.b) ^^^ (s.a &&& s.c) ^^^ (s.b &&& s.c)
  ⟨t1 + (s0 + majority), s.a, s.b, s.c, s.d + t1, s.e, s.f, s.g⟩

/-- A block mixed into a running digest. -/
def compress (s : Digest) (block : List UInt8) : Digest :=
  let t := (roundConstants.zip (schedule block)).foldl (fun s kw => round s kw.1 kw.2) s
  ⟨s.a + t.a, s.b + t.b, s.c + t.c, s.d + t.d, s.e + t.e, s.f + t.f, s.g + t.g, s.h + t.h⟩

/-- The hash of a message. -/
def digest (message : List UInt8) : Root :=
  let s := (blocks (pad message)).foldl compress start
  Root.ofList (bytes s.a ++ bytes s.b ++ bytes s.c ++ bytes s.d ++
    bytes s.e ++ bytes s.f ++ bytes s.g ++ bytes s.h)

end BeaconEpoch.Sha256
