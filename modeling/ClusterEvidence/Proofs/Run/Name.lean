import ClusterEvidence.Files.Path
import ClusterEvidence.Proofs.Bytes
import ClusterEvidence.Run.Name

/-!
# Names of runs and records

`RecordName.isSafe` reads a name byte by byte. What it decides is that all parts of the name
are safe (`RecordName.isSafe_iff`) : none is empty, and none is the name of the directory
it stands in or of the one above. The name of a run directory is one part.
-/

namespace ClusterEvidence

namespace RecordName

/-- A part that is the name of something below where it stands. -/
def SafePart (p : Bytes) : Prop := p ≠ [] ∧ p ≠ ("." : Bytes) ∧ p ≠ (".." : Bytes)

/-- A name of which all parts are safe. -/
def Safe (name : Bytes) : Prop := ∀ p ∈ Path.parts name, SafePart p

/-- The check accepts the parts that are safe. -/
theorem isSafePart_iff (p : Bytes) : isSafePart p = true ↔ SafePart p := by
  simp only [isSafePart, SafePart, Bool.and_eq_true, bne_iff_ne, and_assoc]

/-- The check goes through a name part by part. -/
theorem isSafeFrom_iff (part rest : Bytes) (hpart : Path.slash ∉ part) :
    isSafeFrom part rest = true ↔ Safe (part ++ rest) := by
  induction rest generalizing part with
  | nil =>
    rw [List.append_nil, isSafeFrom, isSafePart_iff, Safe, Path.parts,
      Bytes.pieces_of_notMem hpart, List.forall_mem_singleton]
  | cons b rest ih =>
    rw [isSafeFrom]
    split
    · next hb =>
      subst hb
      rw [Bool.and_eq_true, isSafePart_iff, ih [] (by simp), Safe, Safe, Path.parts, Path.parts,
        List.nil_append, show (0x2f : UInt8) = Path.slash from rfl, Bytes.pieces_append_cons,
        Bytes.pieces_of_notMem hpart, List.singleton_append, List.forall_mem_cons]
    · next hb =>
      have hpart' : Path.slash ∉ part ++ [b] := by
        rw [List.mem_append, List.mem_singleton, not_or]
        exact ⟨hpart, Ne.symm hb⟩
      rw [ih _ hpart', List.append_assoc, List.singleton_append]

/-- The scan decides that all parts are safe. -/
theorem isSafe_iff (name : Bytes) : isSafe name = true ↔ Safe name :=
  isSafeFrom_iff [] name (by simp)

/-- A safe name is relative. -/
theorem Safe.head?_ne_slash {name : Bytes} (h : Safe name) : name.head? ≠ some Path.slash := by
  intro hhead
  obtain ⟨rest, rfl⟩ := List.head?_eq_some_iff.1 hhead
  have hempty : [] ∈ Path.parts (Path.slash :: rest) := by
    rw [Path.parts, Bytes.pieces_cons_self]
    exact List.mem_cons_self
  exact (h [] hempty).1 rfl

end RecordName

namespace RunName

/-- The name of a run directory is one part of a path. -/
theorem slash_notMem_ofTime (t : Nanoseconds) : Path.slash ∉ ofTime t := by
  rw [ofTime, List.mem_append, not_or]
  exact ⟨by decide, Bytes.notMem_decimal (by decide) (by decide) _⟩

theorem nul_notMem_ofTime (t : Nanoseconds) : (0 : UInt8) ∉ ofTime t := by
  rw [ofTime, List.mem_append, not_or]
  exact ⟨by decide, Bytes.notMem_decimal (by decide) (by decide) _⟩

/-- The name of a run directory leads to a directory below the output directory. -/
theorem safePart_ofTime (t : Nanoseconds) : RecordName.SafePart (ofTime t) := by
  have hlong : 9 ≤ (ofTime t).length := by
    rw [ofTime, List.length_append, show start.length = 9 from rfl]
    omega
  refine ⟨fun h => ?_, fun h => ?_, fun h => ?_⟩
  · exact absurd (h ▸ hlong) (by decide)
  · exact absurd (h ▸ hlong) (by decide)
  · exact absurd (h ▸ hlong) (by decide)

theorem ofTime_ne_nil (t : Nanoseconds) : ofTime t ≠ [] :=
  List.append_ne_nil_of_left_ne_nil (by decide) _

end RunName

end ClusterEvidence
