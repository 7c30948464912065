import ClusterEvidence.Proofs.Bytes
import ClusterEvidence.Proofs.Config.Hash

/-!
# Fingerprints of contents that differ

A step of the hash can be taken back when its byte is known (`unstep`) : the prime is odd, so
multiplying by `inverse` undoes the multiplication, and an xor undoes itself. So bytes that are
taken in by two states neither make them equal nor tell them apart (`foldl_step_inj`), and the
state is written in full, eight bytes of two digits each (`fingerprint_eq_iff`). What follows
two contents therefore changes nothing about whether their fingerprints differ
(`fingerprint_append_inj`).

Other contents may well share a fingerprint, but not two that differ in one byte, and so not two
configurations that differ in their flag (`changed_byte_shows`).
-/

namespace ClusterEvidence

namespace Fnv

variable {h h' : UInt64} {b c : UInt8} {s t : Bytes}

/-! ## Steps taken back -/

/-- The multiplier that undoes the prime. -/
def inverse : UInt64 := 0xce965057aff6957b

theorem prime_mul_inverse : prime * inverse = 1 := by decide

/-- The state before a byte was taken in. -/
def unstep (h : UInt64) (b : UInt8) : UInt64 := (h * inverse) ^^^ b.toUInt64

/-- A step can be taken back, as the multiplier is odd. -/
@[simp] theorem unstep_step (h : UInt64) (b : UInt8) : unstep (step h b) b = h := by
  rw [unstep, step, UInt64.mul_assoc, prime_mul_inverse, UInt64.mul_one, UInt64.xor_assoc,
    UInt64.xor_self, UInt64.xor_zero]

/-- A byte keeps two states apart. -/
theorem step_inj : step h b = step h' b ↔ h = h' := by
  refine ⟨fun heq => ?_, fun heq => by rw [heq]⟩
  rw [← unstep_step h b, heq, unstep_step]

/-- Two bytes part one state. -/
theorem step_byte_inj : step h b = step h c ↔ b = c := by
  refine ⟨fun heq => ?_, fun heq => by rw [heq]⟩
  have hback : unstep (step h c) b = h := by rw [← heq, unstep_step]
  have hsame : unstep (step h c) c = h := unstep_step h c
  have hwords : b.toUInt64 = c.toUInt64 := (UInt64.xor_right_inj _).1 (hback.trans hsame.symm)
  exact UInt8.toUInt64_inj.1 hwords

/-- Bytes that follow keep two states apart, however many they are. -/
theorem foldl_step_inj (s : Bytes) : s.foldl step h = s.foldl step h' ↔ h = h' := by
  induction s generalizing h h' with
  | nil => rfl
  | cons b s ih => rw [List.foldl_cons, List.foldl_cons, ih, step_inj]

/-- Hashing goes on behind a prefix from where the prefix led. -/
theorem hash_append (s t : Bytes) : hash (s ++ t) = t.foldl step (hash s) := List.foldl_append

/-! ## The digits of a state -/

/-- The two digits of a byte have its value. -/
theorem digitValue_hex (b : UInt8) :
    16 * Bytes.digitValue (Bytes.hexDigit (b >>> 4)) +
      Bytes.digitValue (Bytes.hexDigit (b &&& 0xf)) = b.toNat := by
  refine Bytes.of_toNat_lt (P := fun b => 16 * Bytes.digitValue (Bytes.hexDigit (b >>> 4)) +
    Bytes.digitValue (Bytes.hexDigit (b &&& 0xf)) = b.toNat) ?_ b.toNat_lt
  decide +kernel

theorem selfDelimiting_hex : Config.SelfDelimiting (fun _ : UInt8 => True) Bytes.hex := by
  intro b c s t _ _ heq
  rw [Bytes.hex, Bytes.hex, List.cons_append, List.cons_append, List.cons_append,
    List.cons_append, List.cons.injEq, List.cons.injEq] at heq
  obtain ⟨hhigh, hlow, hst⟩ := heq
  refine ⟨UInt8.toNat_inj.1 ?_, hst⟩
  rw [← digitValue_hex b, ← digitValue_hex c, hhigh, hlow]

/-- The bytes of a word are all of it. -/
theorem bigEndian_inj : bigEndian h = bigEndian h' ↔ h = h' := by
  refine ⟨fun heq => UInt64.toNat_inj.1 ?_, fun heq => by rw [heq]⟩
  simp only [bigEndian, List.cons.injEq, and_true, ← UInt8.toNat_inj, UInt64.toNat_toUInt8,
    UInt64.toNat_shiftRight, Nat.shiftRight_eq_div_pow] at heq
  have hlt := h.toNat_lt
  have hlt' := h'.toNat_lt
  simp at heq
  omega

/-- A fingerprint shows the whole state. -/
theorem fingerprint_eq_iff : fingerprint s = fingerprint t ↔ hash s = hash t := by
  refine ⟨fun heq => ?_, fun heq => by rw [fingerprint, heq, fingerprint]⟩
  obtain ⟨hbytes, -⟩ := selfDelimiting_hex.flatMap 8 (bigEndian (hash s)) (bigEndian (hash t)) [] []
    ⟨rfl, fun _ _ => trivial⟩ ⟨rfl, fun _ _ => trivial⟩ (congrArg (· ++ []) heq)
  exact bigEndian_inj.1 hbytes

/-! ## Contents that go on alike -/

/-- What follows two contents neither hides their difference nor makes one. -/
theorem fingerprint_append_inj (u : Bytes) :
    fingerprint (s ++ u) = fingerprint (t ++ u) ↔ fingerprint s = fingerprint t := by
  rw [fingerprint_eq_iff, fingerprint_eq_iff, hash_append, hash_append, foldl_step_inj]

/-- A byte between two texts shows in the fingerprint. -/
theorem fingerprint_changed_byte (p s : Bytes) :
    fingerprint (p ++ b :: s) = fingerprint (p ++ c :: s) ↔ b = c := by
  rw [List.append_cons, List.append_cons p c, fingerprint_append_inj, fingerprint_eq_iff,
    hash_append, hash_append]
  exact step_byte_inj

end Fnv

/-- The settings with healthy operators recorded, or not. -/
def Config.withHealthy (c : Config) (healthy : Bool) : Config :=
  { c with gather := { c.gather with recordHealthyOperators := healthy } }

/-- The flag is one byte among those that are hashed. -/
theorem Config.hashed_withHealthy (c : Config) :
    ∃ front back, ∀ healthy,
      (c.withHealthy healthy).hashed = front ++ (if healthy then 1 else 0) :: back := by
  refine ⟨sized c.reportNamespace ++ sized c.logLevel ++ sizedList c.vocabulary.allowedWords
      ++ sizedList c.vocabulary.trustedKeyDomains ++ sized c.gather.clusterVersionName
      ++ sized c.gather.singletonName,
    sized c.source.type ++ sized c.source.snapshotPath ++ sized c.output.outDir
      ++ littleEndian 4 c.output.keepLast.toUInt32.toNat, fun healthy => ?_⟩
  simp only [hashed, withHealthy, List.append_assoc, List.cons_append, List.nil_append]
  rfl

/-- Contents that differ in a single byte, whatever stands before and behind it, have different
fingerprints. So have configurations that differ only in whether healthy operators are
recorded different hashes. -/
theorem Fnv.changed_byte_shows :
    (∀ (p s : Bytes) (b c : UInt8),
      fingerprint (p ++ b :: s) = fingerprint (p ++ c :: s) ↔ b = c) ∧
    ∀ (c : Config) (healthy healthy' : Bool),
      (c.withHealthy healthy).hash = (c.withHealthy healthy').hash ↔ healthy = healthy' := by
  refine ⟨fun p s b c => fingerprint_changed_byte p s, fun c healthy healthy' => ?_⟩
  obtain ⟨front, back, hhashed⟩ := c.hashed_withHealthy
  rw [Config.hash, Config.hash, hhashed, hhashed, fingerprint_changed_byte]
  have hflag : ∀ x y : Bool, ((if x then 1 else 0 : UInt8) = if y then 1 else 0) ↔ x = y := by
    decide
  exact hflag healthy healthy'

end ClusterEvidence
