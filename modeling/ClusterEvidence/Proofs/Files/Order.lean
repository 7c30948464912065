import ClusterEvidence.Gather.Snapshot
import ClusterEvidence.Proofs.Files.Resolve
import Mathlib.Data.List.Nodup
import Mathlib.Data.List.Sort

/-!
# Trees in another order

The order that a tree lists its files and directories in says nothing about what stands where,
as long as no location is listed twice (`FileTree.Proper`) : look-ups and paths that resolve are
the same in every order (`at?_of_perm`, `resolve_of_perm`). Different files below a directory
have different paths (`eq_of_pathTo_eq`), so sorting them by their paths puts them in one order,
and the manifests are the same files in the same order (`Snapshot.manifestFiles_of_perm`).
-/

namespace ClusterEvidence

namespace FileTree

variable {t t' : FileTree} {l : Location} {p : Bytes}

/-- No location is listed twice, none is one of the directories that are always there, and no
name holds a slash. -/
structure Proper (t : FileTree) : Prop where
  nodup : (t.entries.map Prod.fst).Nodup
  below : ∀ e ∈ t.entries, Path.isAbove e.1 = false
  names : ∀ e ∈ t.entries, ∀ name ∈ e.1, Path.slash ∉ name

/-- What is listed stands there, if no location is listed twice. -/
theorem at?_eq_some_iff_mem (ht : (t.entries.map Prod.fst).Nodup) (hl : Path.isAbove l = false)
    {e : Entry} : t.at? l = some e ↔ (l, e) ∈ t.entries := by
  rw [at?, if_neg (by simp [hl]), Option.map_eq_some_iff]
  constructor
  · rintro ⟨x, hx, rfl⟩
    have hfst : x.1 = l := by simpa using List.find?_some hx
    exact hfst ▸ List.mem_of_find?_eq_some hx
  · intro hmem
    obtain ⟨x, hx⟩ : ∃ x, t.entries.find? (fun x => x.1 == l) = some x :=
      Option.isSome_iff_exists.1 (List.find?_isSome.2 ⟨_, hmem, by simp⟩)
    have hfst : x.1 = l := by simpa using List.find?_some hx
    have heq : x = (l, e) :=
      List.inj_on_of_nodup_map ht (List.mem_of_find?_eq_some hx) hmem hfst
    exact ⟨x, hx, by rw [heq]⟩

theorem Proper.at?_eq_some_iff (ht : t.Proper) (hl : Path.isAbove l = false) {e : Entry} :
    t.at? l = some e ↔ (l, e) ∈ t.entries :=
  at?_eq_some_iff_mem ht.nodup hl

variable (ht : t.Proper) (horder : t'.entries.Perm t.entries)

include ht horder

theorem Proper.of_perm : t'.Proper where
  nodup := (horder.map _).nodup_iff.2 ht.nodup
  below := fun e he => ht.below e (horder.subset he)
  names := fun e he => ht.names e (horder.subset he)

/-- The same things stand in the same places in every order. -/
theorem at?_of_perm (l : Location) : t'.at? l = t.at? l := by
  cases hl : Path.isAbove l with
  | true => rw [at?_of_isAbove hl, at?_of_isAbove hl]
  | false =>
    refine Option.ext fun e => ?_
    rw [(ht.of_perm horder).at?_eq_some_iff hl, ht.at?_eq_some_iff hl, horder.mem_iff]

theorem walk_of_perm (here : Location) (ps : List Bytes) : t'.walk here ps = t.walk here ps := by
  induction ps generalizing here with
  | nil => rfl
  | cons p ps ih => simp only [walk, at?_of_perm ht horder, ih]

theorem resolve_of_perm (p : Bytes) : t'.resolve p = t.resolve p := by
  simp only [resolve, walk_of_perm ht horder]

theorem stat_of_perm (p : Bytes) : t'.stat p = t.stat p := by
  simp only [stat, resolve_of_perm ht horder, at?_of_perm ht horder]

end FileTree

/-! ## Paths of files -/

namespace FileTree

variable {t t' : FileTree} {l l' way : Location} {p s : Bytes}

theorem wayBelow?_eq_some (h : wayBelow? l l' = some way) :
    l' = l ++ way ∧ ∀ name ∈ way, name ≠ [] := by
  simp only [wayBelow?, Option.ite_none_right_eq_some, List.isPrefixOf_iff_prefix, List.all_eq_true,
    Option.some.injEq] at h
  obtain ⟨⟨⟨rest, rfl⟩, hnames⟩, rfl⟩ := h
  rw [List.drop_left] at hnames ⊢
  refine ⟨rfl, fun name hname => ?_⟩
  simpa using (Bool.and_eq_true_iff.1 (hnames name hname)).1

/-- What is listed below a directory is a file there, and no part of the way is empty. -/
theorem mem_filesBelow (h : (way, s) ∈ t.filesBelow l) :
    (l ++ way, .file s) ∈ t.entries ∧ ∀ name ∈ way, name ≠ [] := by
  obtain ⟨⟨l', e⟩, he, hway⟩ := List.mem_filterMap.1 h
  cases e with
  | directory => cases hway
  | file s' =>
    obtain ⟨way', hway', heq⟩ := Option.map_eq_some_iff.1 hway
    cases heq
    obtain ⟨hl', hnames⟩ := wayBelow?_eq_some hway'
    dsimp only at hl'
    exact ⟨hl' ▸ he, hnames⟩

/-- The path of a file below a directory. -/
def pathTo (p : Bytes) (way : Location) : Bytes := Path.join p (Bytes.join [Path.slash] way)

/-- Different relative paths below a directory stay different. -/
theorem join_right_inj {q q' : Bytes} (hq : Path.isAbsolute q = false)
    (hq' : Path.isAbsolute q' = false) (h : Path.join p q = Path.join p q') : q = q' := by
  unfold Path.join at h
  simp only [hq, hq', Bool.false_eq_true, false_or] at h
  split at h
  · exact h
  · split at h
    · exact List.append_cancel_left h
    · simpa using h

/-- Names on the way to a file make a relative path. -/
theorem isAbsolute_join_eq_false (hway : way ≠ [])
    (hnames : ∀ name ∈ way, name ≠ [] ∧ Path.slash ∉ name) :
    Path.isAbsolute (Bytes.join [Path.slash] way) = false := by
  obtain ⟨name, rest, rfl⟩ := List.exists_cons_of_ne_nil hway
  obtain ⟨hne, hslash⟩ := hnames name List.mem_cons_self
  obtain ⟨b, bs, rfl⟩ := List.exists_cons_of_ne_nil hne
  have hb : b ≠ Path.slash := fun h => hslash (h ▸ List.mem_cons_self)
  cases rest with
  | nil => simpa [Path.isAbsolute, Bytes.join] using hb
  | cons q qs => simpa [Path.isAbsolute, Bytes.join] using hb

/-- Different files below a directory have different paths. -/
theorem eq_of_pathTo_eq (ht : t.Proper) (hl : t.at? l = some .directory) {f f' : Location × Bytes}
    (hf : f ∈ t.filesBelow l) (hf' : f' ∈ t.filesBelow l) (h : pathTo p f.1 = pathTo p f'.1) :
    f = f' := by
  have hproper : ∀ {f : Location × Bytes}, f ∈ t.filesBelow l →
      f.1 ≠ [] ∧ (∀ name ∈ f.1, name ≠ [] ∧ Path.slash ∉ name) ∧ (l ++ f.1, .file f.2) ∈ t.entries := by
    rintro ⟨way, s⟩ hmem
    obtain ⟨hentry, hnames⟩ := mem_filesBelow hmem
    refine ⟨?_, fun name hname => ⟨hnames name hname, ?_⟩, hentry⟩
    · rintro rfl
      rw [List.append_nil] at hentry
      have hfile := (ht.at?_eq_some_iff (ht.below _ hentry)).2 hentry
      cases hl.symm.trans hfile
    · exact ht.names _ hentry name (List.mem_append_right _ hname)
  obtain ⟨hne, hnames, hentry⟩ := hproper hf
  obtain ⟨hne', hnames', hentry'⟩ := hproper hf'
  have hjoin : Bytes.join [Path.slash] f.1 = Bytes.join [Path.slash] f'.1 :=
    join_right_inj (isAbsolute_join_eq_false hne hnames) (isAbsolute_join_eq_false hne' hnames') h
  have hway : f.1 = f'.1 := by
    rw [← Bytes.pieces_join hne fun name hname => (hnames name hname).2, hjoin,
      Bytes.pieces_join hne' fun name hname => (hnames' name hname).2]
  have heq := List.inj_on_of_nodup_map ht.nodup hentry hentry' (by rw [hway])
  injection heq with hl hs
  injection hs with hs
  exact Prod.ext hway hs

end FileTree

/-! ## Manifests -/

namespace Snapshot

variable {t t' : FileTree} {path : Bytes}

/-- The manifests below a directory, where the order of their paths is known. -/
theorem manifestFiles_eq {l : Location} {files : List (Bytes × Bytes)}
    (hl : t.resolve path = .ok l)
    (hfiles : (((t.filesBelow l).map fun f => (FileTree.pathTo path f.1, f.2)).filter
      fun f => isManifest f.1).Perm files)
    (horder : files.Pairwise fun a b => a.1 < b.1) : manifestFiles t path = files := by
  have hdistinct : (files.map Prod.fst).Nodup :=
    List.pairwise_map.2 (horder.imp fun h => Std.ne_of_lt h)
  unfold manifestFiles
  rw [hl]
  refine List.Perm.eq_of_pairwise (fun a b ha hb hab hba => ?_)
    (Bytes.pairwise_mergeSort_key Prod.fst _) (horder.imp Std.le_of_lt)
    ((List.mergeSort_perm _ _).trans hfiles)
  have hmem : a ∈ files := hfiles.subset (List.mem_mergeSort.1 ha)
  exact List.inj_on_of_nodup_map hdistinct hmem hb (List.le_antisymm hab hba)

/-- The manifests are the same, in the same order. -/
theorem manifestFiles_of_perm (ht : t.Proper) (horder : t'.entries.Perm t.entries)
    (hdir : t.stat path = .ok .directory) : manifestFiles t' path = manifestFiles t path := by
  obtain ⟨l, hresolve, hl⟩ := FileTree.stat_eq_directory_iff.1 hdir
  unfold manifestFiles
  rw [FileTree.resolve_of_perm ht horder, hresolve]
  have hperm := (((horder.filterMap _ : (t'.filesBelow l).Perm (t.filesBelow l)).map
    fun f => (FileTree.pathTo path f.1, f.2)).filter fun f => isManifest f.1)
  have hfiles : ∀ a ∈ ((t.filesBelow l).map fun f => (FileTree.pathTo path f.1, f.2)).filter
      fun f => isManifest f.1, ∃ f ∈ t.filesBelow l, (FileTree.pathTo path f.1, f.2) = a :=
    fun a ha => List.mem_map.1 (List.mem_filter.1 ha).1
  refine List.Perm.eq_of_pairwise (fun a b ha hb hab hba => ?_)
    (Bytes.pairwise_mergeSort_key Prod.fst _) (Bytes.pairwise_mergeSort_key Prod.fst _)
    (((List.mergeSort_perm _ _).trans hperm).trans (List.mergeSort_perm _ _).symm)
  obtain ⟨f, hf, rfl⟩ := hfiles a (hperm.subset (List.mem_mergeSort.1 ha))
  obtain ⟨f', hf', rfl⟩ := hfiles b (List.mem_mergeSort.1 hb)
  rw [FileTree.eq_of_pathTo_eq ht hl hf hf' (List.le_antisymm hab hba)]

end Snapshot

end ClusterEvidence
