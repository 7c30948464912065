import ClusterEvidence.Config.Basic
import ClusterEvidence.Digest.Fnv

/-!
# The hash of a configuration

Two runs with one hash ran with the same settings. `Config.hashed` is the byte string
that is hashed : every string and list behind its length in eight little-endian bytes, so
that nothing can move across the border of two settings, then the flag in one byte and
`keepLast` in four. `Config.hash` is its fingerprint.
-/

namespace ClusterEvidence

namespace Config

/-- The lowest `k` bytes of a number, least significant first. -/
def littleEndian : Nat → Nat → Bytes
  | 0, _ => []
  | k + 1, n => UInt8.ofNat n :: littleEndian k (n / 256)

/-- A string behind its length. -/
def sized (s : Bytes) : Bytes := littleEndian 8 s.length ++ s

/-- A list behind its length, each string behind its own. -/
def sizedList (l : List Bytes) : Bytes := littleEndian 8 l.length ++ l.flatMap sized

/-- The settings as the bytes that are hashed. -/
def hashed (c : Config) : Bytes :=
  sized c.reportNamespace
    ++ sized c.logLevel
    ++ sizedList c.vocabulary.allowedWords
    ++ sizedList c.vocabulary.trustedKeyDomains
    ++ sized c.gather.clusterVersionName
    ++ sized c.gather.singletonName
    ++ [if c.gather.recordHealthyOperators then 1 else 0]
    ++ sized c.source.type
    ++ sized c.source.snapshotPath
    ++ sized c.output.outDir
    ++ littleEndian 4 c.output.keepLast.toUInt32.toNat

/-- Sixteen hexadecimal digits that identify the settings. -/
def hash (c : Config) : Bytes := Fnv.fingerprint c.hashed

end Config

end ClusterEvidence
