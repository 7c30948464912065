import ClusterEvidence.Files.Tree

/-!
# What trees keep

A path that resolves leads to the location that its spelling gives (`resolve_eq_locate`) :
there are no links. Everything that runs do to a tree keeps directories directories and
files files (`FileTree.Extends`), so a path that resolves keeps resolving. Making
directories does not even change a file (`FileTree.SameFiles`), and a directory that was
made with all on the way is there (`stat_createDirectories`).
-/

namespace ClusterEvidence

/-- The location that the spelling of a path gives. -/
def Path.locate (p : Bytes) : Location :=
  Path.normalize (if Path.isAbsolute (Path.visible p) then [[]] else [])
    (Path.parts (Path.visible p))

namespace FileTree

variable {t t' t'' : FileTree} {l l' : Location} {p s : Bytes} {e : Entry}

/-! ## Looking -/

/-- The directories above the working directory are always there. -/
theorem at?_of_isAbove (h : Path.isAbove l = true) (t : FileTree) : t.at? l = some .directory := by
  rw [at?, if_pos h]

/-- Nothing but directories stands at or above the working directory. -/
theorem isAbove_eq_false (h : t.at? l ≠ some .directory) : Path.isAbove l = false := by
  cases habove : Path.isAbove l with
  | false => rfl
  | true => exact absurd (at?_of_isAbove habove t) h

theorem find?_setEntry_self (l : Location) (e : Entry) (entries : List (Location × Entry)) :
    (setEntry l e entries).find? (fun x => x.1 == l) = some (l, e) := by
  induction entries with
  | nil => simp [setEntry]
  | cons x rest ih =>
    unfold setEntry
    split
    · simp
    · next hx => rw [List.find?_cons_of_neg (by simpa using hx), ih]

theorem find?_setEntry_of_ne (h : l' ≠ l) (e : Entry) (entries : List (Location × Entry)) :
    (setEntry l e entries).find? (fun x => x.1 == l') = entries.find? fun x => x.1 == l' := by
  induction entries with
  | nil => simp [setEntry, Ne.symm h]
  | cons x rest ih =>
    unfold setEntry
    split
    · next hx =>
      rw [List.find?_cons_of_neg (by simpa using Ne.symm h),
        List.find?_cons_of_neg (by simpa [hx] using Ne.symm h)]
    · by_cases hx' : x.1 = l'
      · rw [List.find?_cons_of_pos (by simpa using hx'),
          List.find?_cons_of_pos (by simpa using hx')]
      · rw [List.find?_cons_of_neg (by simpa using hx'),
          List.find?_cons_of_neg (by simpa using hx'), ih]

theorem at?_put_self (h : Path.isAbove l = false) (t : FileTree) (e : Entry) :
    (t.put l e).at? l = some e := by
  simp [at?, put, h, find?_setEntry_self]

theorem at?_put_of_ne (h : l' ≠ l) (t : FileTree) (e : Entry) :
    (t.put l e).at? l' = t.at? l' := by
  simp only [at?, put, find?_setEntry_of_ne h]

/-- Where a path leads is a matter of its spelling. -/
theorem walk_eq_normalize {here : Location} {ps : List Bytes} (h : t.walk here ps = .ok l) :
    l = Path.normalize here ps := by
  induction ps generalizing here with
  | nil => exact (Except.ok.inj h).symm
  | cons p ps ih =>
    unfold walk at h
    unfold Path.normalize
    split at h
    · cases h
    · cases h
    · split at h
      · next hp => rw [if_pos hp, ih h]
      · next hp =>
        rw [if_neg hp]
        split at h
        · next hup => rw [if_pos hup, ih h]
        · next hup =>
          rw [if_neg hup]
          split at h
          · cases h
          · exact ih h

/-- Where a path leads, if it leads anywhere, can be told from the path alone. -/
theorem resolve_eq_locate (h : t.resolve p = .ok l) : l = Path.locate p := by
  unfold resolve at h
  dsimp only at h
  unfold Path.locate
  split at h
  · cases h
  · split at h
    · cases h
    · split at h
      · next habs => rw [if_pos habs, walk_eq_normalize h]
      · next habs => rw [if_neg habs, walk_eq_normalize h]

/-! ## Trees that grow -/

/-- Directories stay, and files stay files. -/
structure Extends (t t' : FileTree) : Prop where
  directories : ∀ l, t.at? l = some .directory → t'.at? l = some .directory
  files : ∀ l s, t.at? l = some (.file s) → ∃ s', t'.at? l = some (.file s')

/-- Directories stay and may be added, files are the same. -/
structure SameFiles (t t' : FileTree) : Prop where
  directories : ∀ l, t.at? l = some .directory → t'.at? l = some .directory
  files : ∀ l s, t'.at? l = some (.file s) ↔ t.at? l = some (.file s)

namespace Extends

theorem refl (t : FileTree) : t.Extends t := ⟨fun _ h => h, fun _ s h => ⟨s, h⟩⟩

theorem trans (h : t.Extends t') (h' : t'.Extends t'') : t.Extends t'' where
  directories l hl := h'.directories l (h.directories l hl)
  files l s hl := by
    obtain ⟨s', hl'⟩ := h.files l s hl
    exact h'.files l s' hl'

/-- Only what stands on the way matters for where a path leads. -/
theorem walk (h : t.Extends t') {here : Location} {ps : List Bytes} (hw : t.walk here ps = .ok l) :
    t'.walk here ps = .ok l := by
  induction ps generalizing here with
  | nil => exact hw
  | cons p ps ih =>
    unfold FileTree.walk at hw ⊢
    split at hw
    · cases hw
    · cases hw
    · next hhere =>
      rw [h.directories here hhere]
      dsimp only
      split at hw
      · next hp => rw [if_pos hp, ih hw]
      · next hp =>
        rw [if_neg hp]
        split at hw
        · next hup => rw [if_pos hup, ih hw]
        · next hup =>
          rw [if_neg hup]
          split at hw
          · cases hw
          · next hlen => rw [if_neg hlen, ih hw]

/-- A path that leads somewhere still does when there is more. -/
theorem resolve (h : t.Extends t') (hr : t.resolve p = .ok l) : t'.resolve p = .ok l := by
  unfold FileTree.resolve at hr ⊢
  dsimp only at hr ⊢
  split at hr
  · cases hr
  · next hlen =>
    rw [if_neg hlen]
    split at hr
    · cases hr
    · next hempty =>
      rw [if_neg hempty]
      split at hr
      · next habs => rw [if_pos habs, h.walk hr]
      · next habs => rw [if_neg habs, h.walk hr]

/-- A file in place of a file or of nothing. -/
theorem put (h : t.at? l ≠ some .directory) : t.Extends (t.put l (.file s)) := by
  have habove := isAbove_eq_false h
  refine ⟨fun l' hl' => ?_, fun l' s' hl' => ?_⟩
  · have hne : l' ≠ l := fun heq => h (heq ▸ hl')
    rwa [at?_put_of_ne hne]
  · by_cases heq : l' = l
    · subst heq
      exact ⟨s, at?_put_self habove t _⟩
    · exact ⟨s', by rwa [at?_put_of_ne heq]⟩

end Extends

namespace SameFiles

theorem refl (t : FileTree) : t.SameFiles t := ⟨fun _ h => h, fun _ _ => Iff.rfl⟩

theorem trans (h : t.SameFiles t') (h' : t'.SameFiles t'') : t.SameFiles t'' where
  directories l hl := h'.directories l (h.directories l hl)
  files l s := (h'.files l s).trans (h.files l s)

theorem extended (h : t.SameFiles t') : t.Extends t' :=
  ⟨h.directories, fun l s hl => ⟨s, (h.files l s).2 hl⟩⟩

/-- A directory in place of nothing. -/
theorem put (h : t.at? l = none) : t.SameFiles (t.put l .directory) := by
  have habove : Path.isAbove l = false := isAbove_eq_false (by rw [h]; simp)
  refine ⟨fun l' hl' => ?_, fun l' s => ?_⟩
  · by_cases heq : l' = l
    · rw [heq, at?_put_self habove]
    · rwa [at?_put_of_ne heq]
  · by_cases heq : l' = l
    · rw [heq, at?_put_self habove, h]
      simp
    · rw [at?_put_of_ne heq]

end SameFiles

/-! ## Making directories -/

theorem sameFiles_makeDirectory (h : t.makeDirectory p = .ok t') : t.SameFiles t' := by
  unfold makeDirectory at h
  split at h
  · cases h
  · split at h
    · next hl =>
      cases h
      exact .put hl
    · cases h
      exact .refl t
    · cases h

theorem sameFiles_makeAll (t : FileTree) (ps : List Bytes) : t.SameFiles (t.makeAll ps).1 := by
  induction ps generalizing t with
  | nil => exact .refl t
  | cons p ps ih =>
    unfold makeAll
    split
    · next t' h => exact (sameFiles_makeDirectory h).trans (ih t')
    · exact .refl t

/-- Making directories leaves all files. -/
theorem sameFiles_createDirectories (t : FileTree) (p : Bytes) :
    t.SameFiles (t.createDirectories p).1 := by
  unfold createDirectories
  split
  · exact .refl t
  · split
    · exact .refl t
    · exact .refl t
    · exact .refl t
    · dsimp only
      generalize (if p.getLast? = some Path.slash then Path.parent p else p) = q
      split
      · exact .refl t
      · exact sameFiles_makeAll t _

theorem stat_makeDirectory (h : t.makeDirectory p = .ok t') : t'.stat p = .ok .directory := by
  have hsame := sameFiles_makeDirectory h
  unfold makeDirectory at h
  split at h
  · cases h
  · next l hl =>
    have hl' := hsame.extended.resolve hl
    unfold stat
    rw [hl']
    dsimp only
    split at h
    · next hat =>
      cases h
      rw [at?_put_self (isAbove_eq_false (by rw [hat]; simp))]
    · next hat =>
      cases h
      rw [hat]
    · cases h

/-- A directory that can be reached can still be reached. -/
theorem Extends.stat_directory (h : t.Extends t') (hp : t.stat p = .ok .directory) :
    t'.stat p = .ok .directory := by
  unfold stat at hp ⊢
  split at hp
  · cases hp
  · next l hl =>
    rw [h.resolve hl]
    dsimp only
    split at hp
    · cases hp
    · next hat =>
      cases hp
      rw [h.directories l hat]

/-- Directories that could be made are there. -/
theorem stat_makeAll {ps : List Bytes} (h : (t.makeAll ps).2 = none) (hp : p ∈ ps) :
    (t.makeAll ps).1.stat p = .ok .directory := by
  induction ps generalizing t with
  | nil => cases hp
  | cons q ps ih =>
    unfold makeAll at h ⊢
    split at h
    · next t' hq =>
      rcases List.mem_cons.1 hp with rfl | hp
      · exact (sameFiles_makeAll t' ps).extended.stat_directory (stat_makeDirectory hq)
      · exact ih h hp
    · cases h

/-- The missing directories with `p` among them, if it has a name of its own. -/
theorem missingOn_succ (t : FileTree) (n : Nat) (p : Bytes) (found : List Bytes) :
    ∃ found', (∀ q ∈ found, q ∈ found') ∧
      (Path.fileName p ≠ ("." : Bytes) → Path.fileName p ≠ (".." : Bytes) → p ∈ found') ∧
      ∀ l, t.missingOn (n + 1) p found = .ok l →
        l = found' ∨ t.missingOn n (Path.parent p) found' = .ok l := by
  refine ⟨if Path.fileName p = "." ∨ Path.fileName p = ".." then found else p :: found,
    fun q hq => ?_, fun hdot hdots => ?_, fun l h => ?_⟩
  · split
    · exact hq
    · exact List.mem_cons_of_mem _ hq
  · rw [if_neg (not_or.2 ⟨hdot, hdots⟩)]
    exact List.mem_cons_self
  · unfold missingOn at h
    dsimp only at h
    generalize (if Path.fileName p = "." ∨ Path.fileName p = ".." then found else p :: found) =
      found' at h ⊢
    split at h
    · cases h
    · split at h
      · exact .inl (Except.ok.inj h).symm
      · split at h
        · exact .inl (Except.ok.inj h).symm
        · cases h
        · cases h
        · exact .inr h

/-- What was found to be missing stays on the list. -/
theorem mem_missingOn {n : Nat} {p q : Bytes} {found l : List Bytes}
    (h : t.missingOn n p found = .ok l) (hq : q ∈ found) : q ∈ l := by
  induction n generalizing p found with
  | zero =>
    cases h
    exact hq
  | succ n ih =>
    obtain ⟨found', hfound, -, hnext⟩ := missingOn_succ t n p found
    rcases hnext l h with rfl | h'
    · exact hfound q hq
    · exact ih h' (hfound q hq)

theorem mem_missingOn_self {n : Nat} {l : List Bytes} (h : t.missingOn (n + 1) p [] = .ok l)
    (hdot : Path.fileName p ≠ ("." : Bytes)) (hdots : Path.fileName p ≠ (".." : Bytes)) :
    p ∈ l := by
  obtain ⟨found', -, hself, hnext⟩ := missingOn_succ t n p []
  rcases hnext l h with rfl | h'
  · exact hself hdot hdots
  · exact mem_missingOn h' (hself hdot hdots)

/-- A directory that was made, with all on the way, is there. -/
theorem stat_createDirectories (h : (t.createDirectories p).2 = none)
    (hslash : p.getLast? ≠ some Path.slash) (hdot : Path.fileName p ≠ ("." : Bytes))
    (hdots : Path.fileName p ≠ (".." : Bytes)) :
    (t.createDirectories p).1.stat p = .ok .directory := by
  unfold createDirectories at h ⊢
  split at h
  · cases h
  · next hempty =>
    rw [if_neg hempty]
    split at h
    · next hstat =>
      simp only [hstat]
    · cases h
    · cases h
    · next e hlong hstat =>
      simp only [if_neg hslash] at h ⊢
      split at h
      · cases h
      · next found hfound =>
        exact stat_makeAll h (mem_missingOn_self hfound hdot hdots)

/-! ## Writing files -/

/-- A file is written at the location of its path, where no directory stands. -/
theorem writeFile_eq_some (h : t.writeFile p s = some (t', l)) :
    t.resolve p = .ok l ∧ t.at? l ≠ some .directory ∧ t' = t.put l (.file s) := by
  unfold writeFile at h
  split at h
  · cases h
  · split at h
    · cases h
    · next l' hl =>
      split at h
      · cases h
      · next hdir =>
        cases h
        exact ⟨hl, fun hd => hdir hd, rfl⟩

/-- The file could be written once all directories above it had been made. -/
def Stored (p s : Bytes) : Prop :=
  ∃ t : FileTree, (t.createDirectories (Path.parent p)).2 = none ∧
    ((t.createDirectories (Path.parent p)).1.writeFile p s).isSome

theorem overwrite_end (old s : Bytes) : overwrite old old.length s = old ++ s := by
  simp [overwrite]

theorem readFile?_of_at? (hr : t.resolve p = .ok l) (hat : t.at? l = some (.file s)) :
    t.readFile? p = some s := by
  simp only [readFile?, stat, hr, hat]

/-! ## Removing -/

/-- What is removed is gone with all that is below, and nothing else is. -/
theorem at?_removeAll (t : FileTree) (l l' : Location) :
    (t.removeAll l).at? l' =
      if Path.isAbove l' then some .directory
      else if l <+: l' then none else t.at? l' := by
  unfold at? removeAll
  by_cases habove : Path.isAbove l' = true
  · rw [if_pos habove, if_pos habove]
  · rw [if_neg habove, if_neg habove, if_neg habove, List.find?_filter]
    split
    · next hl =>
      rw [Option.map_eq_none_iff, List.find?_eq_none]
      intro x _ hx
      simp only [decide_eq_true_eq, Bool.not_eq_true', beq_iff_eq] at hx
      obtain ⟨hx, rfl⟩ := hx
      rw [List.isPrefixOf_iff_prefix.2 hl] at hx
      exact Bool.noConfusion hx
    · next hl =>
      congr 2
      funext x
      by_cases hx : x.1 = l'
      · subst hx
        simpa [← List.isPrefixOf_iff_prefix] using hl
      · simp [hx]

/-! ## Files that were written -/

/-- The tree has come from `t₀` by making directories and by writing files, `manifestPath`
and those of `W`, each with a path and its bytes : all can be reached, a file has the bytes
that a path which leads there was written with, unless it is the manifest, and no other
file is new. -/
structure Placed (t₀ t : FileTree) (manifestPath : Bytes) (W : List (Bytes × Bytes)) : Prop where
  resolved : t.resolve manifestPath = .ok (Path.locate manifestPath)
  standing : ∃ s, t.at? (Path.locate manifestPath) = some (.file s)
  reached : ∀ w ∈ W, t.resolve w.1 = .ok (Path.locate w.1)
  files : ∀ w ∈ W, ∃ s, t.at? (Path.locate w.1) = some (.file s) ∧
    (Path.locate w.1 = Path.locate manifestPath ∨
      ∃ w' ∈ W, Path.locate w'.1 = Path.locate w.1 ∧ w'.2 = s)
  only : ∀ l s, t.at? l = some (.file s) → (∃ s₀, t₀.at? l = some (.file s₀)) ∨
    l = Path.locate manifestPath ∨ ∃ w ∈ W, l = Path.locate w.1

namespace Placed

variable {t₀ : FileTree} {manifestPath : Bytes} {W : List (Bytes × Bytes)}

/-- Directories that are made leave what was written. -/
theorem sameFiles (h : Placed t₀ t manifestPath W) (ht : t.SameFiles t') :
    Placed t₀ t' manifestPath W where
  resolved := ht.extended.resolve h.resolved
  standing := ht.extended.files _ _ h.standing.choose_spec
  reached w hw := ht.extended.resolve (h.reached w hw)
  files w hw := by
    obtain ⟨s, hs, hw'⟩ := h.files w hw
    exact ⟨s, (ht.files _ s).2 hs, hw'⟩
  only l s hl := h.only l s ((ht.files l s).1 hl)

/-- The file of the manifest is written. -/
theorem touched (h : Placed t₀ t manifestPath W) (ht : t.Extends t')
    (helse : ∀ l, l ≠ Path.locate manifestPath → t'.at? l = t.at? l) :
    Placed t₀ t' manifestPath W where
  resolved := ht.resolve h.resolved
  standing := ht.files _ _ h.standing.choose_spec
  reached w hw := ht.resolve (h.reached w hw)
  files w hw := by
    obtain ⟨s, hs, hw'⟩ := h.files w hw
    by_cases hplace : Path.locate w.1 = Path.locate manifestPath
    · obtain ⟨s', hs'⟩ := ht.files _ _ hs
      exact ⟨s', hs', .inl hplace⟩
    · exact ⟨s, (helse _ hplace).trans hs, hw'⟩
  only l s hl := by
    by_cases hplace : l = Path.locate manifestPath
    · exact .inr (.inl hplace)
    · exact h.only l s ((helse l hplace).symm.trans hl)

/-- Another file is written, in place of one of the others or of nothing. -/
theorem put (h : Placed t₀ t manifestPath W) (hr : t.resolve p = .ok l)
    (hdir : t.at? l ≠ some .directory) :
    Placed t₀ (t.put l (.file s)) manifestPath (W ++ [(p, s)]) := by
  obtain rfl := resolve_eq_locate hr
  have hext : t.Extends (t.put (Path.locate p) (.file s)) := .put hdir
  have hself := at?_put_self (isAbove_eq_false hdir) t (.file s)
  refine ⟨hext.resolve h.resolved, hext.files _ _ h.standing.choose_spec, fun w hw => ?_,
    fun w hw => ?_, fun l s' hl => ?_⟩
  · rcases List.mem_append.1 hw with hw | hw
    · exact hext.resolve (h.reached w hw)
    · obtain rfl := List.mem_singleton.1 hw
      exact hext.resolve hr
  · by_cases hplace : Path.locate w.1 = Path.locate p
    · rw [hplace]
      exact ⟨s, hself, .inr ⟨(p, s), List.mem_append_right _ (List.mem_singleton_self _), rfl, rfl⟩⟩
    · rcases List.mem_append.1 hw with hw | hw
      · obtain ⟨s', hs', hw'⟩ := h.files w hw
        refine ⟨s', (at?_put_of_ne hplace t _).trans hs', hw'.imp_right ?_⟩
        rintro ⟨w', hw', heq⟩
        exact ⟨w', List.mem_append_left _ hw', heq⟩
      · exact absurd (congrArg (fun w => Path.locate w.1) (List.mem_singleton.1 hw)) hplace
  · by_cases hplace : l = Path.locate p
    · exact .inr (.inr ⟨(p, s), List.mem_append_right _ (List.mem_singleton_self _), hplace⟩)
    · rw [at?_put_of_ne hplace] at hl
      refine (h.only l s' hl).imp_right (Or.imp_right ?_)
      rintro ⟨w, hw, heq⟩
      exact ⟨w, List.mem_append_left _ hw, heq⟩

end Placed

end FileTree

end ClusterEvidence
