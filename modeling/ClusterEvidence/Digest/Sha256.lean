import ClusterEvidence.Bytes

/-!
# SHA-256

The digest of FIPS 180-4 over byte strings. A message is padded (`padded`) to whole
blocks, each block is read as sixteen words and extended to sixty-four (`schedule`), and
`compress` folds the sixty-four rounds into the eight words of the state. `digest` is the
result as thirty-two bytes.
-/

namespace ClusterEvidence

namespace Sha256

/-- The eight words of the chaining state. -/
structure State where
  a : UInt32
  b : UInt32
  c : UInt32
  d : UInt32
  e : UInt32
  f : UInt32
  g : UInt32
  h : UInt32

/-- The state before the first block. -/
def start : State :=
  ⟨0x6a09e667, 0xbb67ae85, 0x3c6ef372, 0xa54ff53a, 0x510e527f, 0x9b05688c, 0x1f83d9ab, 0x5be0cd19⟩

/-- The constant of each round. -/
def constants : List UInt32 :=
  [0x428a2f98, 0x71374491, 0xb5c0fbcf, 0xe9b5dba5, 0x3956c25b, 0x59f111f1, 0x923f82a4, 0xab1c5ed5,
   0xd807aa98, 0x12835b01, 0x243185be, 0x550c7dc3, 0x72be5d74, 0x80deb1fe, 0x9bdc06a7, 0xc19bf174,
   0xe49b69c1, 0xefbe4786, 0x0fc19dc6, 0x240ca1cc, 0x2de92c6f, 0x4a7484aa, 0x5cb0a9dc, 0x76f988da,
   0x983e5152, 0xa831c66d, 0xb00327c8, 0xbf597fc7, 0xc6e00bf3, 0xd5a79147, 0x06ca6351, 0x14292967,
   0x27b70a85, 0x2e1b2138, 0x4d2c6dfc, 0x53380d13, 0x650a7354, 0x766a0abb, 0x81c2c92e, 0x92722c85,
   0xa2bfe8a1, 0xa81a664b, 0xc24b8b70, 0xc76c51a3, 0xd192e819, 0xd6990624, 0xf40e3585, 0x106aa070,
   0x19a4c116, 0x1e376c08, 0x2748774c, 0x34b0bcb5, 0x391c0cb3, 0x4ed8aa4a, 0x5b9cca4f, 0x682e6ff3,
   0x748f82ee, 0x78a5636f, 0x84c87814, 0x8cc70208, 0x90befffa, 0xa4506ceb, 0xbef9a3f7, 0xc67178f2]

/-- Rotate a word to the right. -/
def rotate (n : UInt32) (x : UInt32) : UInt32 := (x >>> n) ||| (x <<< (32 - n))

/-! ## Words and blocks -/

/-- The big-endian words of a byte string; up to three bytes at the end are left over. -/
def words : Bytes → List UInt32
  | p :: q :: r :: s :: rest =>
    ((p.toUInt32 <<< 24) ||| (q.toUInt32 <<< 16) ||| (r.toUInt32 <<< 8) ||| s.toUInt32) :: words rest
  | _ => []

/-- The bytes of a word, most significant first. -/
def wordBytes (w : UInt32) : Bytes :=
  [(w >>> 24).toUInt8, (w >>> 16).toUInt8, (w >>> 8).toUInt8, w.toUInt8]

/-- The message, the bit 1, zeros up to a whole block, and the length in bits as a
64-bit number at the end of the last block. -/
def padded (s : Bytes) : Bytes :=
  let bits := UInt64.ofNat (8 * s.length)
  let zeros : Bytes := List.replicate ((119 - s.length % 64) % 64) 0
  let one : Bytes := [0x80]
  s ++ one ++ zeros ++ wordBytes (bits >>> 32).toUInt32 ++ wordBytes bits.toUInt32

/-! ## Rounds -/

/-- The next word of the schedule from the words so far, newest first. -/
def nextWord (w : List UInt32) : UInt32 :=
  let x := w.getD 14 0
  let y := w.getD 1 0
  w.getD 15 0 + (rotate 7 x ^^^ rotate 18 x ^^^ (x >>> 3)) + w.getD 6 0
    + (rotate 17 y ^^^ rotate 19 y ^^^ (y >>> 10))

/-- The words so far, newest first, with `n` more. -/
def extend : Nat → List UInt32 → List UInt32
  | 0, w => w
  | n + 1, w => extend n (nextWord w :: w)

/-- The sixty-four words of a block of sixteen. -/
def schedule (block : List UInt32) : List UInt32 := (extend 48 block.reverse).reverse

/-- One round with its constant and its word. -/
def round (s : State) (kw : UInt32 × UInt32) : State :=
  let t1 := s.h + (rotate 6 s.e ^^^ rotate 11 s.e ^^^ rotate 25 s.e)
    + ((s.e &&& s.f) ^^^ (~~~s.e &&& s.g)) + kw.1 + kw.2
  let t2 := (rotate 2 s.a ^^^ rotate 13 s.a ^^^ rotate 22 s.a)
    + ((s.a &&& s.b) ^^^ (s.a &&& s.c) ^^^ (s.b &&& s.c))
  ⟨t1 + t2, s.a, s.b, s.c, s.d + t1, s.e, s.f, s.g⟩

/-- The state after a block. -/
def compress (s : State) (block : List UInt32) : State :=
  let t := (constants.zip (schedule block)).foldl round s
  ⟨s.a + t.a, s.b + t.b, s.c + t.c, s.d + t.d, s.e + t.e, s.f + t.f, s.g + t.g, s.h + t.h⟩

/-- The state after `n` blocks of sixteen words. -/
def absorb : Nat → State → List UInt32 → State
  | 0, s, _ => s
  | n + 1, s, w => absorb n (compress s (w.take 16)) (w.drop 16)

/-- The thirty-two bytes of the digest. -/
def digest (s : Bytes) : Bytes :=
  let w := words (padded s)
  let t := absorb (w.length / 16) start w
  [t.a, t.b, t.c, t.d, t.e, t.f, t.g, t.h].flatMap wordBytes

end Sha256

end ClusterEvidence
