import ClusterEvidence.Proofs.Files.Path

/-!
# How paths resolve

A path of parts that can be followed leads to a location, and a name behind it leads on just
when a directory stands there (`walk_concat_iff`). So a name that is put below the path of a
directory resolves if the path is that of a directory, and to the name in it
(`resolve_join_iff`), whether or not the path ends with a slash.
-/

namespace ClusterEvidence

namespace FileTree

variable {t : FileTree} {l l' here : Location} {s dir : Bytes}

/-! ## What stands in a directory -/

/-- A path is that of a directory if it leads to one. -/
theorem stat_eq_directory_iff {p : Bytes} : t.stat p = .ok .directory ↔
    ∃ l, t.resolve p = .ok l ∧ t.at? l = some .directory := by
  unfold stat
  cases t.resolve p with
  | error e => simp
  | ok l =>
    cases hat : t.at? l with
    | none => simp [hat]
    | some e => simp [hat]

/-- A way is walked part by part. -/
theorem walk_append_iff {ps qs : List Bytes} : t.walk here (ps ++ qs) = .ok l' ↔
    ∃ l, t.walk here ps = .ok l ∧ t.walk l qs = .ok l' := by
  induction ps generalizing here with
  | nil => simp [walk]
  | cons p ps ih =>
    rw [List.cons_append, walk, walk]
    split
    · simp
    · simp
    · split
      · exact ih
      · split
        · exact ih
        · split
          · simp
          · exact ih

/-- A way leads on to a name in a directory. -/
theorem walk_concat_iff {ps : List Bytes} (hs : RecordName.SafePart s) :
    t.walk here (ps ++ [s]) = .ok l' ↔
      ∃ l, t.walk here ps = .ok l ∧ t.at? l = some .directory ∧ s.length ≤ maxName ∧
        l' = l ++ [s] := by
  obtain ⟨hempty, hdot, hdots⟩ := hs
  have hname : ∀ l, t.walk l [s] = .ok l' ↔
      t.at? l = some .directory ∧ s.length ≤ maxName ∧ l' = l ++ [s] := by
    intro l
    rw [walk, if_neg (not_or.2 ⟨hempty, hdot⟩), if_neg hdots]
    split
    · next hat => simp [hat]
    · next hat => simp [hat]
    · next hat =>
      rw [← Nat.not_lt]
      split
      · next hlong => simp [hlong]
      · next hlong => simp [hat, hlong, walk, eq_comm]
  simp only [walk_append_iff, hname]

/-- A slash at the end asks for a directory. -/
theorem walk_concat_nil_iff {ps : List Bytes} :
    t.walk here (ps ++ [[]]) = .ok l' ↔
      t.walk here ps = .ok l' ∧ t.at? l' = some .directory := by
  have hslash : ∀ l, t.walk l [[]] = .ok l' ↔ l = l' ∧ t.at? l = some .directory := by
    intro l
    rw [walk]
    split
    · next hat => simp [hat]
    · next hat => simp [hat]
    · next hat => simp [hat, walk]
  simp only [walk_append_iff, hslash]
  constructor
  · rintro ⟨l, hwalk, rfl, hat⟩
    exact ⟨hwalk, hat⟩
  · exact fun h => ⟨l', h.1, rfl, h.2⟩

/-- Where a path without zero bytes leads. -/
theorem resolve_eq_ok_iff {p : Bytes} (hnul : (0 : UInt8) ∉ p) (hp : p ≠ []) :
    t.resolve p = .ok l ↔ p.length < maxPath ∧
      t.walk (if Path.isAbsolute p then [[]] else []) (Path.parts p) = .ok l := by
  unfold resolve
  rw [Path.visible_of_notMem hnul]
  dsimp only
  by_cases hlong : maxPath ≤ p.length
  · rw [if_pos hlong]
    simp [Nat.not_lt.2 hlong]
  · rw [if_neg hlong, if_neg (by simpa using hp)]
    simp only [Nat.lt_of_not_le hlong, true_and]
    split
    · rfl
    · rfl

/-- A name in a directory leads there if the path of the directory does. -/
theorem resolve_join_iff (hdir : dir ≠ []) (hnul : (0 : UInt8) ∉ dir)
    (hs : RecordName.SafePart s) (hslash : Path.slash ∉ s) (hnul' : (0 : UInt8) ∉ s) :
    t.resolve (Path.join dir s) = .ok l' ↔ (Path.join dir s).length < maxPath ∧
      s.length ≤ maxName ∧ t.stat dir = .ok .directory ∧ l' = Path.locate dir ++ [s] := by
  have hrelative : Path.isAbsolute s = false := by
    simpa [Path.isAbsolute] using fun h => hslash (List.mem_of_mem_head? h)
  have hlocate : ∀ {l}, t.resolve dir = .ok l → l = Path.locate dir := resolve_eq_locate
  have hshorter : dir.length ≤ (Path.join dir s).length := by
    unfold Path.join
    rw [if_neg (by simp [hrelative, hdir])]
    split
    · simp
    · simp
  obtain ⟨ps, hparts, hway⟩ : ∃ ps, Path.parts (Path.join dir s) = ps ++ [s] ∧
      ∀ here l, (t.walk here (Path.parts dir) = .ok l ∧ t.at? l = some .directory ↔
        t.walk here ps = .ok l ∧ t.at? l = some .directory) := by
    unfold Path.join
    rw [if_neg (by simp [hrelative, hdir])]
    split
    · next hlast =>
      obtain ⟨front, rfl⟩ := List.getLast?_eq_some_iff.1 hlast
      have hcut : ∀ q : Bytes, front ++ [Path.slash] ++ q = Path.below front q := by simp [Path.below]
      refine ⟨Path.parts front, ?_, fun here l => ?_⟩
      · rw [hcut, Path.parts_below]
        exact congrArg (Path.parts front ++ ·) (Bytes.pieces_of_notMem hslash)
      · have hdirparts : Path.parts (front ++ [Path.slash]) = Path.parts front ++ [[]] :=
          Path.parts_below front []
        rw [hdirparts, walk_concat_nil_iff, and_assoc, and_self]
    · refine ⟨Path.parts dir, ?_, fun here l => Iff.rfl⟩
      show Path.parts (Path.below dir s) = _
      rw [Path.parts_below]
      exact congrArg (Path.parts dir ++ ·) (Bytes.pieces_of_notMem hslash)
  have habsolute : Path.isAbsolute (Path.join dir s) = Path.isAbsolute dir := by
    obtain ⟨b, rest, rfl⟩ := List.exists_cons_of_ne_nil hdir
    unfold Path.join
    rw [if_neg (by simp [hrelative])]
    split
    · rfl
    · rfl
  have hjoin : (0 : UInt8) ∉ Path.join dir s := by
    unfold Path.join
    rw [if_neg (by simp [hrelative, hdir])]
    split
    · simp [hnul, hnul']
    · simp [hnul, hnul', show (0 : UInt8) ≠ Path.slash by decide]
  have hne : Path.join dir s ≠ [] := fun h => by
    rw [h, List.length_nil, Nat.le_zero, List.length_eq_zero_iff] at hshorter
    exact hdir hshorter
  rw [resolve_eq_ok_iff hjoin hne, hparts, habsolute, walk_concat_iff hs]
  constructor
  · rintro ⟨hlong, l, hwalk, hat, hname, rfl⟩
    have hresolve : t.resolve dir = .ok l :=
      (resolve_eq_ok_iff hnul hdir).2 ⟨by omega, ((hway _ l).2 ⟨hwalk, hat⟩).1⟩
    exact ⟨hlong, hname, stat_eq_directory_iff.2 ⟨l, hresolve, hat⟩, hlocate hresolve ▸ rfl⟩
  · rintro ⟨hlong, hname, hstat, rfl⟩
    obtain ⟨l, hresolve, hat⟩ := stat_eq_directory_iff.1 hstat
    have hwalk := ((resolve_eq_ok_iff hnul hdir).1 hresolve).2
    exact ⟨hlong, l, ((hway _ l).1 ⟨hwalk, hat⟩).1, hat, hname, by rw [hlocate hresolve]⟩

end FileTree

end ClusterEvidence
