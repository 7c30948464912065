import ClusterEvidence.Bytes

/-!
# Fingerprints

FNV-1a with 64 bits : for each byte, xor it into the state and multiply by the prime.
`Fnv.fingerprint` writes the state in sixteen hexadecimal digits. It tells contents apart
and protects nothing.
-/

namespace ClusterEvidence

namespace Fnv

/-- The state before the first byte. -/
def basis : UInt64 := 0xcbf29ce484222325

/-- The multiplier of each step. -/
def prime : UInt64 := 0x100000001b3

/-- Take in one byte. -/
def step (h : UInt64) (b : UInt8) : UInt64 := (h ^^^ b.toUInt64) * prime

/-- The state after all bytes. -/
def hash (s : Bytes) : UInt64 := s.foldl step basis

/-- The bytes of a word, most significant first. -/
def bigEndian (h : UInt64) : Bytes :=
  [(h >>> 56).toUInt8, (h >>> 48).toUInt8, (h >>> 40).toUInt8, (h >>> 32).toUInt8,
   (h >>> 24).toUInt8, (h >>> 16).toUInt8, (h >>> 8).toUInt8, h.toUInt8]

/-- Sixteen hexadecimal digits that identify a content. -/
def fingerprint (s : Bytes) : Bytes := (bigEndian (hash s)).flatMap Bytes.hex

end Fnv

end ClusterEvidence
