import ClusterEvidence.Proofs.Files.Tree
import ClusterEvidence.Proofs.Run.Name
import Mathlib.Data.List.TakeWhile

/-!
# Paths below a directory

A path below a directory leads below the location of the directory, part by part, if no part
is empty or dots (`Path.locate_join_of_safe`). A zero byte in the directory hides what stands
behind it, so nothing can be stored below such a directory (`Path.nul_notMem_of_stored`) :
its path is that of the directory itself.
-/

namespace ClusterEvidence

namespace Path

variable {p q s dir file : Bytes}

/-! ## Parts -/

/-- The path of a file below a directory. -/
def below (dir file : Bytes) : Bytes := dir ++ slash :: file

theorem parts_below (dir file : Bytes) : parts (below dir file) = parts dir ++ parts file :=
  Bytes.pieces_append_cons dir file

/-- Joining puts a slash in between, where neither side brings one. -/
theorem join_eq_below (hdir : dir ≠ []) (hslash : dir.getLast? ≠ some slash)
    (hfile : file.head? ≠ some slash) : join dir file = below dir file := by
  unfold join
  rw [if_neg, if_neg hslash, below]
  rw [not_or]
  exact ⟨by simpa [isAbsolute] using hfile, by simpa using hdir⟩

/-- A way can be taken in two goes. -/
theorem normalize_append (here : List Bytes) (ps qs : List Bytes) :
    normalize here (ps ++ qs) = normalize (normalize here ps) qs := by
  induction ps generalizing here with
  | nil => rfl
  | cons p ps ih =>
    simp only [List.cons_append, normalize]
    split
    · exact ih _
    · split
      · exact ih _
      · exact ih _

/-- Parts that are safe lead down, one by one. -/
theorem normalize_of_safe (here : List Bytes) {ps : List Bytes}
    (h : ∀ p ∈ ps, RecordName.SafePart p) : normalize here ps = here ++ ps := by
  induction ps generalizing here with
  | nil => simp [normalize]
  | cons p ps ih =>
    rw [List.forall_mem_cons] at h
    obtain ⟨⟨hempty, hdot, hdots⟩, hrest⟩ := h
    rw [normalize, if_neg (not_or.2 ⟨hempty, hdot⟩), if_neg hdots, ih _ hrest, List.append_assoc,
      List.singleton_append]

/-- A path without a zero byte is seen as it is. -/
theorem visible_of_notMem (h : (0 : UInt8) ∉ p) : visible p = p := by
  unfold visible
  rw [List.takeWhile_eq_self_iff]
  intro b hb
  simpa using fun h0 : b = 0 => h (h0 ▸ hb)

/-- Nothing behind a zero byte is seen. -/
theorem visible_append_of_mem (h : (0 : UInt8) ∈ p) (q : Bytes) : visible (p ++ q) = visible p := by
  obtain ⟨a, b, rfl⟩ := List.append_of_mem h
  unfold visible
  rw [List.append_assoc, List.cons_append, List.takeWhile_append, List.takeWhile_append]
  split
  · simp
  · rfl

theorem visible_below (h : (0 : UInt8) ∉ dir) (file : Bytes) :
    visible (below dir file) = below dir (visible file) := by
  have hne : ∀ b ∈ dir, (b != 0) = true := fun b hb => by
    simpa using fun h0 : b = 0 => h (h0 ▸ hb)
  unfold visible below
  rw [List.takeWhile_append_of_pos hne, List.takeWhile_cons_of_pos (by decide)]

theorem isAbsolute_visible (p : Bytes) : isAbsolute (visible p) = isAbsolute p := by
  cases p with
  | nil => rfl
  | cons b rest =>
    by_cases hb : b = 0
    · subst hb
      rfl
    · rw [visible, List.takeWhile_cons_of_pos (by simpa using hb)]
      rfl

/-- A path leads on from the directory it is put below. -/
theorem locate_below (hdir : dir ≠ []) (hnul : (0 : UInt8) ∉ dir) (file : Bytes) :
    locate (below dir file) = normalize (locate dir) (parts (visible file)) := by
  have habsolute : isAbsolute (below dir file) = isAbsolute dir := by
    obtain ⟨b, rest, rfl⟩ := List.exists_cons_of_ne_nil hdir
    rfl
  unfold locate
  rw [isAbsolute_visible, isAbsolute_visible, habsolute, visible_below hnul,
    visible_of_notMem hnul, parts_below, normalize_append]

theorem locate_relative (h : p.head? ≠ some slash) : locate p = normalize [] (parts (visible p)) := by
  have habsolute : isAbsolute p = false := by simpa [isAbsolute] using h
  rw [locate, isAbsolute_visible, habsolute, if_neg (by simp)]

/-- A path of safe parts leads below the location of the directory, part by part. -/
theorem locate_join_of_safe (hdir : dir ≠ []) (hslash : dir.getLast? ≠ some slash)
    (hnul : (0 : UInt8) ∉ dir) (hnul' : (0 : UInt8) ∉ file) (hfile : RecordName.Safe file) :
    locate (join dir file) = locate dir ++ parts file := by
  rw [join_eq_below hdir hslash hfile.head?_ne_slash, locate_below hdir hnul,
    visible_of_notMem hnul', normalize_of_safe _ hfile]

/-- A relative path of safe parts leads where it says, part by part. -/
theorem locate_of_safe (hnul : (0 : UInt8) ∉ p) (h : RecordName.Safe p) : locate p = parts p := by
  rw [locate_relative h.head?_ne_slash, visible_of_notMem hnul, normalize_of_safe _ h,
    List.nil_append]

/-! ## Last parts -/

theorem ne_slash_of_mem_reverse (hs : slash ∉ s) : ∀ b ∈ s.reverse, (b != slash) = true := by
  intro b hb
  simpa using fun h : b = slash => hs (h ▸ List.mem_reverse.1 hb)

theorem takeWhile_reverse_append (hs : slash ∉ s) (p : Bytes) :
    (p ++ slash :: s).reverse.takeWhile (· != slash) = s.reverse := by
  rw [List.reverse_append, List.reverse_cons, List.append_assoc, List.singleton_append,
    List.takeWhile_append_of_pos (ne_slash_of_mem_reverse hs),
    List.takeWhile_cons_of_neg (by simp), List.append_nil]

theorem fileName_below (hs : slash ∉ s) (p : Bytes) : fileName (below p s) = s := by
  rw [fileName, below, takeWhile_reverse_append hs, List.reverse_reverse]

theorem fileName_of_notMem (hs : slash ∉ s) : fileName s = s := by
  rw [fileName, List.takeWhile_eq_self_iff.2 (ne_slash_of_mem_reverse hs), List.reverse_reverse]

/-- What stands above a file is its directory. -/
theorem parent_below (hdir : dir ≠ []) (hslash : dir.getLast? ≠ some slash) (hs : slash ∉ s) :
    parent (below dir s) = dir := by
  have hfront : ((below dir s).reverse.dropWhile (· != slash)).dropWhile (· == slash) =
      dir.reverse := by
    rw [below, List.reverse_append, List.reverse_cons, List.append_assoc, List.singleton_append,
      List.dropWhile_append_of_pos (ne_slash_of_mem_reverse hs),
      List.dropWhile_cons_of_neg (by simp), List.dropWhile_cons_of_pos (by simp)]
    rw [List.getLast?_eq_head?_reverse] at hslash
    cases hrev : dir.reverse with
    | nil => rfl
    | cons b rest =>
      rw [hrev] at hslash
      exact List.dropWhile_cons_of_neg (by simpa using hslash)
  unfold parent
  dsimp only
  rw [hfront, List.reverse_reverse, if_neg]
  rintro ⟨hempty, -⟩
  exact hdir (List.isEmpty_iff.1 hempty)

theorem parent_of_notMem (hs : slash ∉ s) : parent s = [] := by
  have hfront : s.reverse.dropWhile (· != slash) = [] :=
    List.dropWhile_eq_nil_iff.2 (ne_slash_of_mem_reverse hs)
  unfold parent
  dsimp only
  rw [hfront, List.dropWhile_nil, List.reverse_nil, if_neg]
  rintro ⟨-, habsolute⟩
  exact hs (List.mem_of_mem_head? (by simpa [isAbsolute] using habsolute))

theorem parent_root (hs : slash ∉ s) : parent (slash :: s) = [slash] := by
  have hfront : ((slash :: s).reverse.dropWhile (· != slash)).dropWhile (· == slash) = [] := by
    rw [List.reverse_cons, List.dropWhile_append_of_pos (ne_slash_of_mem_reverse hs)]
    rfl
  unfold parent
  dsimp only
  rw [hfront, List.reverse_nil, if_pos ⟨rfl, rfl⟩]

/-- A directory has no slash at its end, apart from the root. -/
theorem parent_getLast? (h : parent p ≠ [slash]) : (parent p).getLast? ≠ some slash := by
  unfold parent at h ⊢
  dsimp only at h ⊢
  split at h
  · exact absurd rfl h
  · next hfront =>
    rw [if_neg hfront, List.getLast?_reverse]
    intro hhead
    have hnot := List.head?_dropWhile_not (· == slash) (p.reverse.dropWhile (· != slash))
    rw [hhead] at hnot
    cases hnot

/-- A file that is put next to another one is in the same directory. -/
theorem parent_join_parent (hs : slash ∉ s) (p : Bytes) :
    parent (join (parent p) s) = parent p := by
  have hhead : s.head? ≠ some slash := fun h => hs (List.mem_of_mem_head? h)
  by_cases hempty : parent p = []
  · rw [hempty, join, if_pos (.inr rfl), parent_of_notMem hs]
  · by_cases hroot : parent p = [slash]
    · rw [hroot, join, if_neg (by simpa [isAbsolute] using hhead), if_pos (by rfl)]
      exact parent_root hs
    · rw [join_eq_below hempty (parent_getLast? hroot) hhead,
        parent_below hempty (parent_getLast? hroot) hs]

/-- A path has a part behind its last slash. -/
theorem exists_last_part (h : slash ∈ p) : ∃ dir s, p = below dir s ∧ slash ∉ s := by
  obtain ⟨a, b, hp, hb⟩ := List.eq_append_cons_of_mem (List.mem_reverse.2 h)
  refine ⟨b.reverse, a.reverse, ?_, by simpa using hb⟩
  rw [← List.reverse_reverse p, hp]
  simp [below]

/-- The last part of a path is its file name. -/
theorem parts_eq_concat (p : Bytes) : ∃ front, parts p = front ++ [fileName p] := by
  by_cases h : slash ∈ p
  · obtain ⟨dir, s, rfl, hs⟩ := exists_last_part h
    refine ⟨parts dir, ?_⟩
    rw [fileName_below hs, parts_below]
    exact congrArg (parts dir ++ ·) (Bytes.pieces_of_notMem hs)
  · rw [fileName_of_notMem h]
    exact ⟨[], Bytes.pieces_of_notMem h⟩

/-- The last part of a path is one of its parts. -/
theorem fileName_mem_parts (p : Bytes) : fileName p ∈ parts p := by
  obtain ⟨front, hfront⟩ := parts_eq_concat p
  rw [hfront]
  exact List.mem_append_right _ (List.mem_singleton_self _)

theorem below_below (dir dir' p : Bytes) :
    below dir (below dir' p) = below (below dir dir') p := by
  simp [below]

theorem fileName_below_eq (dir p : Bytes) : fileName (below dir p) = fileName p := by
  by_cases h : slash ∈ p
  · obtain ⟨dir', s, rfl, hs⟩ := exists_last_part h
    rw [below_below, fileName_below hs, fileName_below hs]
  · rw [fileName_below h, fileName_of_notMem h]

/-- A path that ends with a slash has an empty last part. -/
theorem getLast?_ne_slash (h : fileName p ≠ []) : p.getLast? ≠ some slash := by
  intro hlast
  rw [List.getLast?_eq_head?_reverse] at hlast
  obtain ⟨rest, hrest⟩ := List.head?_eq_some_iff.1 hlast
  rw [fileName, hrest, List.takeWhile_cons_of_neg (by simp)] at h
  exact h rfl

/-- What stands above a file in a directory below another. -/
theorem parent_below_below {dir' : Bytes} (hname : fileName dir' ≠ []) (hs : slash ∉ s) :
    parent (below dir (below dir' s)) = below dir dir' := by
  have hlast : fileName (below dir dir') ≠ [] := by rwa [fileName_below_eq]
  rw [below_below, parent_below (by simp [below]) (getLast?_ne_slash hlast) hs]

/-- A part below a directory is the last part of its path. -/
theorem fileName_join (dir : Bytes) (hs : slash ∉ s) :
    fileName (join dir s) = s := by
  have hhead : s.head? ≠ some slash := fun h => hs (List.mem_of_mem_head? h)
  unfold join
  split
  · exact fileName_of_notMem hs
  · split
    · next hlast =>
      obtain ⟨front, hfront⟩ := List.getLast?_eq_some_iff.1 hlast
      rw [hfront, List.append_assoc, List.singleton_append]
      exact fileName_below hs front
    · exact fileName_below hs dir

/-- A directory with a safe name has it at the end of its location. -/
theorem locate_of_safe_last (hnul : (0 : UInt8) ∉ p) (h : RecordName.SafePart (fileName p)) :
    ∃ base, locate p = base ++ [fileName p] := by
  obtain ⟨front, hfront⟩ := parts_eq_concat p
  refine ⟨normalize (if isAbsolute (visible p) then [[]] else []) front, ?_⟩
  rw [locate, visible_of_notMem hnul, hfront, normalize_append, normalize_of_safe _ (by simpa using h)]

/-- The path of a run directory, whatever the output directory is. -/
theorem join_ofTime (outDir : Bytes) (t : Nanoseconds) :
    join outDir (RunName.ofTime t) ≠ [] ∧
      (join outDir (RunName.ofTime t)).getLast? ≠ some slash ∧
      fileName (join outDir (RunName.ofTime t)) = RunName.ofTime t := by
  have hname : fileName (join outDir (RunName.ofTime t)) = RunName.ofTime t :=
    fileName_join outDir (RunName.slash_notMem_ofTime t)
  refine ⟨fun hempty => ?_, getLast?_ne_slash ?_, hname⟩
  · rw [hempty] at hname
    exact RunName.ofTime_ne_nil _ hname.symm
  · rw [hname]
    exact RunName.ofTime_ne_nil _

end Path

namespace FileTree

variable {t : FileTree} {p s : Bytes}

/-- What is not seen of a path does not matter. -/
theorem resolve_congr {q : Bytes} (h : Path.visible p = Path.visible q) (t : FileTree) :
    t.resolve p = t.resolve q := by
  unfold resolve
  rw [h]

/-- Nothing can be stored below a directory with a zero byte in its path. -/
theorem nul_notMem_of_stored {dir last : Bytes} (h : Stored (Path.below dir last) s)
    (hdir : dir ≠ []) (hslash : dir.getLast? ≠ some Path.slash)
    (hdot : Path.fileName dir ≠ ("." : Bytes)) (hdots : Path.fileName dir ≠ (".." : Bytes))
    (hlast : Path.slash ∉ last) : (0 : UInt8) ∉ dir := by
  intro hnul
  obtain ⟨t, hmade, hwrite⟩ := h
  rw [Path.parent_below hdir hslash hlast] at hmade hwrite
  have hstat := stat_createDirectories hmade hslash hdot hdots
  obtain ⟨⟨t', l⟩, hwritten⟩ := Option.isSome_iff_exists.1 hwrite
  obtain ⟨hresolve, hdirectory, -⟩ := writeFile_eq_some hwritten
  have hvisible : Path.visible (Path.below dir last) = Path.visible dir :=
    Path.visible_append_of_mem hnul _
  rw [resolve_congr hvisible] at hresolve
  unfold stat at hstat
  rw [hresolve] at hstat
  dsimp only at hstat
  split at hstat
  · cases hstat
  · next hat =>
    cases hstat
    exact hdirectory hat

end FileTree

end ClusterEvidence
