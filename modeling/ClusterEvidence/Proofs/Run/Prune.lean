import ClusterEvidence.Proofs.Files.Resolve
import ClusterEvidence.Proofs.Run.Storage
import Mathlib.Data.List.Sort

/-!
# Which runs pruning keeps

Pruning orders the runs of an output directory by the times in their names and removes those
beyond the newest, so whether a run is to stay is a matter of counting : it stays if no more runs
than are kept are as new as it is, itself included (`notMem_surplus`), and it is in the surplus if
as many as are kept are newer (`mem_surplus`). Only runs of one time are not told apart by that.
A run in the surplus is gone, with all that is below, as long as the path of the output directory
leads there to the end (`FileTree.at?_removeRuns_of_mem`).

The directory of a run that is being opened is counted like all others. So it is removed
right after it was made where enough runs are dated later, and the run cannot be opened
then, although its directory and its manifest could be created (`later_runs_displace`).
`openRun_ok_iff` says when it can : its directory has to stay, and the path of the output
directory must not lead through a run that was removed.
-/

namespace ClusterEvidence

/-! ## The newest runs -/

section Surplus

variable {runs : List (Nat × Bytes)} {run : Nat × Bytes} {keep : Nat}

/-- The runs are in the order of their times. -/
theorem newestFirst_pairwise (runs : List (Nat × Bytes)) :
    (newestFirst runs).Pairwise fun a b => b.1 ≤ a.1 := by
  have hsorted : (newestFirst runs).Pairwise fun a b => decide (b.1 ≤ a.1) = true :=
    List.pairwise_mergeSort (fun a b c hab hbc => by
      simp only [decide_eq_true_eq] at hab hbc ⊢
      exact hbc.trans hab)
    (fun a b => by
      simp only [Bool.or_eq_true, decide_eq_true_eq]
      exact Nat.le_total b.1 a.1) runs
  exact hsorted.imp fun h => by simpa using h

/-- The surplus of runs whose order is known, if no two of them started at one time. -/
theorem surplus_eq {sorted : List (Nat × Bytes)} (hperm : runs.Perm sorted)
    (horder : sorted.Pairwise fun a b => b.1 < a.1) (keep : Nat) :
    surplus keep runs = sorted.drop keep := by
  have hdistinct : (sorted.map Prod.fst).Nodup :=
    List.pairwise_map.2 (horder.imp fun h => Nat.ne_of_gt h)
  have hsorted : newestFirst runs = sorted := by
    refine List.Perm.eq_of_pairwise (fun a b ha hb hab hba => ?_) (newestFirst_pairwise runs)
      (horder.imp Nat.le_of_lt) ((List.mergeSort_perm _ _).trans hperm)
    have hmem : a ∈ sorted := hperm.subset (List.mem_mergeSort.1 ha)
    exact List.inj_on_of_nodup_map hdistinct hmem hb (Nat.le_antisymm hba hab)
  rw [surplus, hsorted]

/-- Runs are counted over those that are kept and those that are not. -/
theorem countP_runs (p : Nat × Bytes → Bool) (keep : Nat) (runs : List (Nat × Bytes)) :
    runs.countP p = ((newestFirst runs).take keep).countP p + (surplus keep runs).countP p := by
  rw [surplus, ← List.countP_append, List.take_append_drop]
  exact ((List.mergeSort_perm runs _).countP_eq p).symm

/-- What is kept is at least as new as what is not. -/
theorem surplus_le_kept {a b : Nat × Bytes} (ha : a ∈ (newestFirst runs).take keep)
    (hb : b ∈ surplus keep runs) : b.1 ≤ a.1 := by
  have hsorted := newestFirst_pairwise runs
  rw [← List.take_append_drop keep (newestFirst runs), List.pairwise_append] at hsorted
  exact hsorted.2.2 a ha b hb

/-- If there is a surplus, as many runs are kept as may be. -/
theorem length_kept (hrun : run ∈ surplus keep runs) :
    ((newestFirst runs).take keep).length = keep := by
  have hpos := List.length_pos_of_mem hrun
  rw [surplus, List.length_drop] at hpos
  rw [List.length_take]
  omega

/-- A run stays if no more runs than are kept are as new as it is. -/
theorem notMem_surplus (h : runs.countP (fun r => decide (run.1 ≤ r.1)) ≤ keep) :
    run ∉ surplus keep runs := by
  intro hrun
  have hkept : ((newestFirst runs).take keep).countP (fun r => decide (run.1 ≤ r.1)) = keep := by
    refine Eq.trans (List.countP_eq_length.2 fun a ha => ?_) (length_kept hrun)
    simpa using surplus_le_kept ha hrun
  have hself : 0 < (surplus keep runs).countP (fun r => decide (run.1 ≤ r.1)) :=
    List.countP_pos_iff.2 ⟨run, hrun, by simp⟩
  rw [countP_runs _ keep, hkept] at h
  omega

theorem mem_of_mem_surplus (h : run ∈ surplus keep runs) : run ∈ runs :=
  (List.mergeSort_perm runs _).subset (List.mem_of_mem_drop h)

/-- A run is kept or is not. -/
theorem mem_kept_or_surplus (hrun : run ∈ runs) (keep : Nat) :
    run ∈ (newestFirst runs).take keep ∨ run ∈ surplus keep runs := by
  rw [surplus, ← List.mem_append, List.take_append_drop, newestFirst, List.mem_mergeSort]
  exact hrun

/-- A run goes if as many runs as are kept are newer. -/
theorem mem_surplus (hrun : run ∈ runs)
    (h : keep ≤ runs.countP fun r => decide (run.1 < r.1)) : run ∈ surplus keep runs := by
  refine (mem_kept_or_surplus hrun keep).resolve_left fun hkept => ?_
  have hnone : (surplus keep runs).countP (fun r => decide (run.1 < r.1)) = 0 := by
    rw [List.countP_eq_zero]
    intro b hb
    simpa using surplus_le_kept hkept hb
  have hlt : ((newestFirst runs).take keep).countP (fun r => decide (run.1 < r.1)) <
      ((newestFirst runs).take keep).length := by
    refine lt_of_le_of_ne List.countP_le_length fun heq => ?_
    simpa using List.countP_eq_length.1 heq run hkept
  have hlength := List.length_take_le keep (newestFirst runs)
  rw [countP_runs _ keep, hnone] at h
  omega

end Surplus

/-- The time in the name of a run directory. -/
theorem RunName.time?_ofTime {t : Nanoseconds} (h : 0 ≤ t) :
    RunName.time? (RunName.ofTime t) = some t.toInt.toNat := by
  have hpos : 0 ≤ t.toInt := Int64.le_iff_toInt_le.1 h
  obtain ⟨n, hn⟩ := Int.eq_ofNat_of_zero_le hpos
  have hbound : n < RunName.timeBound := by
    have hlt := t.toInt_lt
    have htwo : ((2 : Int) ^ 63) = (RunName.timeBound : Int) := rfl
    omega
  have hprefix : Bytes.startsWith RunName.start (RunName.ofTime t) = true :=
    List.isPrefixOf_iff_prefix.2 (List.prefix_append _ _)
  rw [RunName.time?, if_pos hprefix, RunName.ofTime, List.drop_left, hn]
  show (Bytes.natural? (Bytes.digits n)).filter _ = _
  rw [Bytes.natural?_digits]
  simp [hbound]

/-- A run directory is not above the working directory. -/
theorem RunName.isAbove_concat {name : Bytes} {time : Nat} (h : RunName.time? name = some time)
    (l : Location) : Path.isAbove (l ++ [name]) = false := by
  have hname : name ≠ ".." := by
    rintro rfl
    exact Option.some_ne_none time (h.symm.trans (by decide))
  simp [Path.isAbove, hname]

/-! ## Listings -/

section Listings

variable {listing : List ListedEntry} {runs : List (Nat × Bytes)} {run : Nat × Bytes}
  {x : ListedEntry}

/-- A listed entry is a run if it is shown as a directory and its name gives a time. -/
theorem ListedEntry.run?_eq_some_iff : x.run? = some run ↔
    x.directory? = some true ∧ RunName.time? x.name = some run.1 ∧ x.name = run.2 := by
  obtain ⟨time, name⟩ := run
  unfold run?
  split
  · next hdirectory => simp [hdirectory]
  · next hdirectory => simp [hdirectory]

/-- A listing that is not given up gives the runs in it. -/
theorem eq_filterMap_of_runsListed (h : runsListed listing = some runs) :
    runs = listing.filterMap ListedEntry.run? := by
  induction listing generalizing runs with
  | nil => exact (Option.some.inj h).symm
  | cons x rest ih =>
    unfold runsListed at h
    split at h
    · cases h
    · obtain ⟨others, hothers, rfl⟩ := Option.map_eq_some_iff.1 h
      rw [ih hothers]
      cases hrun : x.run? with
      | none => rw [List.filterMap_cons_none hrun]; rfl
      | some run => rw [List.filterMap_cons_some hrun]; rfl

/-- A listing is given up where another entry follows one that could not be looked at. -/
def GivenUp (listing : List ListedEntry) : Prop :=
  ∃ front x y rest, listing = front ++ x :: y :: rest ∧ x.directory? = none

/-- There are no runs to go by just where a listing is given up. -/
theorem runsListed_eq_none_iff : runsListed listing = none ↔ GivenUp listing := by
  unfold GivenUp
  induction listing with
  | nil => simp [runsListed]
  | cons x rest ih =>
    unfold runsListed
    split
    · next hcut =>
      obtain ⟨y, others, rfl⟩ := List.exists_cons_of_ne_nil hcut.2
      exact iff_of_true rfl ⟨[], x, y, others, rfl, hcut.1⟩
    · next hgoes =>
      rw [Option.map_eq_none_iff, ih]
      constructor
      · rintro ⟨front, x', y, others, rfl, hnone⟩
        exact ⟨x :: front, x', y, others, rfl, hnone⟩
      · rintro ⟨front, x', y, others, hlisting, hnone⟩
        cases front with
        | nil =>
          obtain ⟨rfl, rfl⟩ := List.cons.inj hlisting
          exact absurd ⟨hnone, List.cons_ne_nil y others⟩ hgoes
        | cons z front => exact ⟨front, x', y, others, (List.cons.inj hlisting).2, hnone⟩

end Listings

namespace FileTree

variable {t : FileTree} {l l' : Location} {s outDir : Bytes} {runs : List (Nat × Bytes)}
  {run : Nat × Bytes} {time : Nat}

/-- The listing of a directory has the entries in it. -/
theorem mem_listing {x : ListedEntry} : x ∈ t.listing l ↔
    ∃ e, (l ++ [x.name], e) ∈ t.entries ∧ x.directory? = some !e.isFile := by
  rw [listing, List.mem_filterMap]
  constructor
  · rintro ⟨⟨place, e⟩, hmem, hx⟩
    dsimp only at hx
    split at hx
    · next hplace =>
      obtain ⟨name, hname, rfl⟩ := Option.map_eq_some_iff.1 hx
      refine ⟨e, ?_, rfl⟩
      rwa [← hplace.2, List.dropLast_append_getLast? name hname]
    · cases hx
  · rintro ⟨e, hmem, hdirectory⟩
    refine ⟨_, hmem, ?_⟩
    obtain ⟨name, directory?⟩ := x
    simp_all

/-- What stands in a directory can be looked at, so its listing is not given up. -/
theorem not_givenUp_listing (t : FileTree) (l : Location) : ¬ GivenUp (t.listing l) := by
  rintro ⟨front, x, y, rest, hlisting, hnone⟩
  have hx : x ∈ t.listing l := by simp [hlisting]
  obtain ⟨e, -, hsome⟩ := mem_listing.1 hx
  exact absurd (hnone.symm.trans hsome) (by simp)

theorem runsListed_listing (t : FileTree) (l : Location) :
    runsListed (t.listing l) = some (runsIn t l) := by
  cases hlisted : runsListed (t.listing l) with
  | some runs => rw [runsIn, hlisted]; rfl
  | none => exact absurd (runsListed_eq_none_iff.1 hlisted) (not_givenUp_listing t l)

/-- The runs in a directory are those in its listing. -/
theorem runsIn_eq_filterMap (t : FileTree) (l : Location) :
    runsIn t l = (t.listing l).filterMap ListedEntry.run? :=
  eq_filterMap_of_runsListed (runsListed_listing t l)

/-- A directory with the name of a run is one of the runs. -/
theorem mem_runsIn (hname : RunName.time? s = some time)
    (habove : Path.isAbove (l ++ [s]) = false) (h : t.at? (l ++ [s]) = some .directory) :
    (time, s) ∈ runsIn t l := by
  rw [at?, if_neg (by simp [habove]), Option.map_eq_some_iff] at h
  obtain ⟨⟨place, e⟩, hfind, hentry⟩ := h
  obtain rfl : e = .directory := hentry
  obtain rfl : place = l ++ [s] := by simpa using List.find?_some hfind
  rw [runsIn_eq_filterMap, List.mem_filterMap]
  exact ⟨⟨s, some true⟩, mem_listing.2 ⟨_, List.mem_of_find?_eq_some hfind, rfl⟩,
    ListedEntry.run?_eq_some_iff.2 ⟨rfl, hname, rfl⟩⟩

theorem time_of_mem_runsIn (h : run ∈ runsIn t l) : RunName.time? run.2 = some run.1 := by
  rw [runsIn_eq_filterMap, List.mem_filterMap] at h
  obtain ⟨x, -, hrun⟩ := h
  obtain ⟨-, htime, hname⟩ := ListedEntry.run?_eq_some_iff.1 hrun
  rwa [hname] at htime

/-! ## What is removed -/

/-- What has been removed does not come back. -/
theorem at?_removeRuns_removeAll {gone below : Location} (hbelow : gone <+: below)
    (habove : Path.isAbove below = false) :
    (removeRuns outDir runs (t.removeAll gone)).1.at? below = none := by
  refine Option.eq_none_iff_forall_ne_some.2 fun e hstays => ?_
  have hgone := at?_of_removeRuns hstays
  rw [at?_removeAll, if_neg (by simp [habove]), if_pos hbelow] at hgone
  cases hgone

/-- What is as it was before runs were removed, or not : then it was at or below one of them, and
nothing is left there. -/
theorem at?_removeRuns (outDir : Bytes) (runs : List (Nat × Bytes)) (t : FileTree)
    (l' : Location) : (removeRuns outDir runs t).1.at? l' = t.at? l' ∨
      ∃ run ∈ runs, Path.locate outDir ++ [run.2] <+: l' ∧
        ∀ below, Path.locate outDir ++ [run.2] <+: below → Path.isAbove below = false →
          (removeRuns outDir runs t).1.at? below = none := by
  induction runs generalizing t with
  | nil => exact .inl rfl
  | cons run runs ih =>
    rw [removeRuns_cons]
    have hrest := ih (removeRun outDir run.2 t).1
    rcases removeRun_fst outDir run.2 t with hsame | hless
    · rw [hsame] at hrest ⊢
      exact hrest.imp_right fun ⟨gone, hgone, h⟩ => ⟨gone, List.mem_cons_of_mem _ hgone, h⟩
    · rw [hless] at hrest ⊢
      by_cases hbelow : Path.locate outDir ++ [run.2] <+: l'
      · exact .inr ⟨run, List.mem_cons_self, hbelow, fun _ => at?_removeRuns_removeAll⟩
      · have hkept : (t.removeAll (Path.locate outDir ++ [run.2])).at? l' = t.at? l' := by
          rw [at?_removeAll, if_neg hbelow]
          split
          · next habove => rw [at?_of_isAbove habove]
          · rfl
        rw [hkept] at hrest
        exact hrest.imp_right fun ⟨gone, hgone, h⟩ => ⟨gone, List.mem_cons_of_mem _ hgone, h⟩

/-- What stands neither at nor below a run that is to be removed stays. -/
theorem at?_removeRuns_of_not_prefix (h : ∀ run ∈ runs, ¬ Path.locate outDir ++ [run.2] <+: l') :
    (removeRuns outDir runs t).1.at? l' = t.at? l' :=
  (at?_removeRuns outDir runs t l').resolve_right fun ⟨run, hrun, hbelow, _⟩ => h run hrun hbelow

/-- Where a path still leads after a run has been removed, it led before. -/
theorem resolve_of_removeRun {p name : Bytes}
    (h : (removeRun outDir name t).1.resolve p = .ok l) : t.resolve p = .ok l :=
  Extends.resolve (t := (removeRun outDir name t).1)
    ⟨fun _ => at?_of_removeRun, fun _ s hs => ⟨s, at?_of_removeRun hs⟩⟩ h

theorem resolve_of_removeRuns {p : Bytes} (h : (removeRuns outDir runs t).1.resolve p = .ok l) :
    t.resolve p = .ok l :=
  Extends.resolve (t := (removeRuns outDir runs t).1)
    ⟨fun _ => at?_of_removeRuns, fun _ s hs => ⟨s, at?_of_removeRuns hs⟩⟩ h

/-- Runs can be removed in two goes. -/
theorem removeRuns_append (outDir : Bytes) (runs runs' : List (Nat × Bytes)) (t : FileTree) :
    (removeRuns outDir (runs ++ runs') t).1 =
      (removeRuns outDir runs' (removeRuns outDir runs t).1).1 := by
  induction runs generalizing t with
  | nil => rfl
  | cons run runs ih => rw [List.cons_append, removeRuns_cons, ih, removeRuns_cons]

/-- A run is removed if the path of the output directory leads there and its own is not too
long. -/
theorem removeRun_eq {name : Bytes} (hleads : t.resolve outDir = .ok l)
    (hshort : (Path.join outDir name).length < maxPath) :
    removeRun outDir name t = (t.removeAll (Path.locate outDir ++ [name]), none) := by
  rw [removeRun, hleads, resolve_eq_locate hleads]
  dsimp only
  rw [if_neg (Nat.not_le.2 hshort)]

/-- A run that is to be removed is gone, with all that is below, if the path of the output
directory still leads there in the end and that of the run is not too long. -/
theorem at?_removeRuns_of_mem (hrun : run ∈ runs)
    (hleads : (removeRuns outDir runs t).1.resolve outDir = .ok l)
    (hshort : (Path.join outDir run.2).length < maxPath)
    (hbelow : Path.locate outDir ++ [run.2] <+: l') (habove : Path.isAbove l' = false) :
    (removeRuns outDir runs t).1.at? l' = none := by
  obtain ⟨before, after, rfl⟩ := List.append_of_mem hrun
  rw [removeRuns_append, removeRuns_cons] at hleads ⊢
  rw [removeRun_eq (resolve_of_removeRun (resolve_of_removeRuns hleads)) hshort]
  exact at?_removeRuns_removeAll hbelow habove

/-- A run that is not to be removed stays. -/
theorem at?_removeRuns_run (hname : RunName.time? s = some time)
    (hruns : ∀ run ∈ runs, RunName.time? run.2 = some run.1) (hkept : (time, s) ∉ runs) :
    (removeRuns outDir runs t).1.at? (Path.locate outDir ++ [s]) =
      t.at? (Path.locate outDir ++ [s]) := by
  refine at?_removeRuns_of_not_prefix ?_
  rintro ⟨time', name⟩ hrun hprefix
  obtain rfl : name = s := by simpa using hprefix
  obtain rfl : time = time' := Option.some.inj (hname.symm.trans (hruns _ hrun))
  exact hkept hrun

end FileTree

/-! ## Opening a run -/

/-- The directory of a run. -/
def RunInfo.directory (run : RunInfo) : Bytes :=
  Path.join run.outDir (RunName.ofTime run.startedAt)

/-- The manifest of a run. -/
def RunInfo.manifestPath (run : RunInfo) : Bytes := Path.join run.directory "manifest.jsonl"

namespace RunDirectory

variable {ε : Type} {env : Surroundings ε} {d : RunDirectory ε} {run : RunInfo}

/-- The files once the directory of a run has been made. -/
def made (run : RunInfo) (d : RunDirectory ε) : FileTree :=
  (d.tree.createDirectories run.directory).1

/-- The files once old runs have been pruned as well. -/
def cleared (run : RunInfo) (d : RunDirectory ε) : FileTree :=
  { d with tree := d.made run }.pruned run.outDir

/-- The directory of the run and, if nothing were pruned, its manifest can be created. -/
structure Creatable (run : RunInfo) (d : RunDirectory ε) : Prop where
  directory : (d.tree.createDirectories run.directory).2 = none
  manifest : ((d.made run).writeFile run.manifestPath []).isSome = true

instance (run : RunInfo) (d : RunDirectory ε) : Decidable (Creatable run d) :=
  decidable_of_iff (_ ∧ _) ⟨fun h => ⟨h.1, h.2⟩, fun h => ⟨h.directory, h.manifest⟩⟩

/-- The runs in the output directory, the new one among them. -/
def runsBeside (run : RunInfo) (d : RunDirectory ε) : List (Nat × Bytes) :=
  match (d.made run).resolve run.outDir with
  | .ok l => runsIn (d.made run) l
  | .error _ => []

/-- Once the directory of the run has been made, all depends on its manifest. -/
theorem status_begin (h : (d.tree.createDirectories run.directory).2 = none) :
    (d.begin run).1 = if ((d.cleared run).writeFile run.manifestPath []).isSome then .ok
      else ⟨.ioError, "failed opening '" ++ run.manifestPath ++ "'"⟩ := by
  have hmade : d.tree.createDirectories (Path.join run.outDir (RunName.ofTime run.startedAt)) =
      (d.made run, none) := Prod.ext rfl h
  unfold begin
  dsimp only
  rw [hmade]
  dsimp only
  split
  · next hwrite =>
    have hfail : (d.cleared run).writeFile run.manifestPath [] = none := hwrite
    rw [hfail]
    rfl
  · next t l hwrite =>
    have hdone : (d.cleared run).writeFile run.manifestPath [] = some (t, l) := hwrite
    rw [hdone]
    rfl

/-- Once its directory is made, a run can be opened if its manifest can be created. -/
theorem begin_isOk (h : Creatable run d) :
    (d.begin run).1.isOk = ((d.cleared run).writeFile run.manifestPath []).isSome := by
  rw [status_begin h.directory]
  split
  · next hdone => exact hdone.symm
  · next hfail => exact (Bool.eq_false_iff.2 hfail).symm

namespace Creatable

/-- The path of the directory has no zero byte, or the manifest could not be written. -/
theorem nul_notMem (h : Creatable run d) : (0 : UInt8) ∉ run.directory := by
  obtain ⟨hne, hslash, hname⟩ := Path.join_ofTime run.outDir run.startedAt
  obtain ⟨-, hdot, hdots⟩ := RunName.safePart_ofTime run.startedAt
  have hpath : run.manifestPath = Path.below run.directory "manifest.jsonl" :=
    Path.join_eq_below hne hslash (by decide)
  have hparent : Path.parent run.manifestPath = run.directory := by
    rw [hpath]
    exact Path.parent_below hne hslash (by decide)
  have hstored : FileTree.Stored run.manifestPath [] :=
    ⟨d.tree, by rw [hparent, h.directory], by rw [hparent]; exact h.manifest⟩
  rw [hpath] at hstored
  exact FileTree.nul_notMem_of_stored hstored hne hslash
    (by rw [RunInfo.directory, hname]; exact hdot) (by rw [RunInfo.directory, hname]; exact hdots)
    (by decide)

theorem nul_notMem_outDir (h : Creatable run d) : (0 : UInt8) ∉ run.outDir := by
  intro hnul
  refine h.nul_notMem ?_
  rw [RunInfo.directory]
  unfold Path.join
  split
  · next habs =>
    exfalso
    rcases habs with habs | hempty
    · have hhead : (RunName.ofTime run.startedAt).head? = some Path.slash := by
        simpa [Path.isAbsolute] using habs
      exact RunName.slash_notMem_ofTime _ (List.mem_of_mem_head? hhead)
    · rw [List.isEmpty_iff] at hempty
      rw [hempty] at hnul
      cases hnul
  · split
    · exact List.mem_append_left _ hnul
    · exact List.mem_append_left _ hnul

/-- The manifest can be written while the directory is there. -/
theorem writeFile_iff (h : Creatable run d) {t : FileTree}
    (hfiles : ∀ l, t.at? l = some .directory → (d.made run).at? l = some .directory) :
    (t.writeFile run.manifestPath []).isSome = true ↔ t.stat run.directory = .ok .directory := by
  obtain ⟨hne, hslash, -⟩ := Path.join_ofTime run.outDir run.startedAt
  have hresolve : ∀ (t : FileTree) (l : Location), t.resolve run.manifestPath = .ok l ↔ _ :=
    fun t l => FileTree.resolve_join_iff hne h.nul_notMem
      ((RecordName.isSafePart_iff _).1 (by decide)) (by decide) (by decide)
  constructor
  · intro hwrite
    obtain ⟨⟨t', l⟩, hwritten⟩ := Option.isSome_iff_exists.1 hwrite
    obtain ⟨hl, -, -⟩ := FileTree.writeFile_eq_some hwritten
    exact ((hresolve t l).1 hl).2.2.1
  · intro hstat
    obtain ⟨⟨t', l⟩, hwritten⟩ := Option.isSome_iff_exists.1 h.manifest
    obtain ⟨hl, hfile, -⟩ := FileTree.writeFile_eq_some hwritten
    obtain ⟨hlong, hname, -, hplace⟩ := (hresolve _ l).1 hl
    have hl' : t.resolve run.manifestPath = .ok l := (hresolve t l).2 ⟨hlong, hname, hstat, hplace⟩
    have hlast : ¬ (Path.visible run.manifestPath).getLast? = some Path.slash := by
      intro hlast
      rw [FileTree.writeFile, if_pos hlast] at hwritten
      cases hwritten
    rw [FileTree.writeFile, if_neg hlast, hl']
    dsimp only
    split
    · next hat => exact absurd (hfiles l hat) hfile
    · rfl

/-- The path of the directory is not too long. -/
theorem directory_short (h : Creatable run d) : run.directory.length < FileTree.maxPath := by
  obtain ⟨hne, -, -⟩ := Path.join_ofTime run.outDir run.startedAt
  have hthere : (d.made run).stat run.directory = .ok .directory :=
    (h.writeFile_iff fun _ hl => hl).1 h.manifest
  obtain ⟨l, hl, -⟩ := FileTree.stat_eq_directory_iff.1 hthere
  exact ((FileTree.resolve_eq_ok_iff h.nul_notMem hne).1 hl).1

/-- The directory was made in the output directory. -/
theorem resolve_outDir (h : Creatable run d) (hout : run.outDir ≠ []) :
    ∃ l, (d.made run).resolve run.outDir = .ok l ∧
      (d.made run).at? l = some .directory ∧
      Path.locate run.directory = l ++ [RunName.ofTime run.startedAt] ∧
      (d.made run).at? (Path.locate run.directory) = some .directory ∧
      ∀ t : FileTree, t.stat run.directory = .ok .directory ↔
        t.stat run.outDir = .ok .directory ∧
          t.at? (Path.locate run.directory) = some .directory := by
  have hresolve : ∀ (t : FileTree) (l : Location), t.resolve run.directory = .ok l ↔ _ :=
    fun t l => FileTree.resolve_join_iff hout h.nul_notMem_outDir
      (RunName.safePart_ofTime run.startedAt) (RunName.slash_notMem_ofTime run.startedAt)
      (RunName.nul_notMem_ofTime run.startedAt)
  have hthere : (d.made run).stat run.directory = .ok .directory :=
    (h.writeFile_iff fun _ hl => hl).1 h.manifest
  obtain ⟨l', hl', hat'⟩ := FileTree.stat_eq_directory_iff.1 hthere
  obtain rfl := FileTree.resolve_eq_locate hl'
  obtain ⟨hlong, hname, hstat, hplace⟩ := (hresolve _ _).1 hl'
  obtain ⟨l, hl, hat⟩ := FileTree.stat_eq_directory_iff.1 hstat
  refine ⟨l, hl, hat, FileTree.resolve_eq_locate hl ▸ hplace, hat', fun t => ?_⟩
  rw [FileTree.stat_eq_directory_iff]
  constructor
  · rintro ⟨l, hl, hat⟩
    exact ⟨((hresolve t l).1 hl).2.2.1, FileTree.resolve_eq_locate hl ▸ hat⟩
  · rintro ⟨hstat, hat⟩
    exact ⟨_, (hresolve t _).2 ⟨hlong, hname, hstat, hplace⟩, hat⟩

end Creatable

theorem time_of_mem_runsBeside {r : Nat × Bytes} (h : r ∈ d.runsBeside run) :
    RunName.time? r.2 = some r.1 := by
  unfold runsBeside at h
  split at h
  · exact FileTree.time_of_mem_runsIn h
  · cases h

/-- Pruning removes the runs beyond the newest of those in the output directory. -/
theorem cleared_eq (hkeep : 0 < d.keepLast) : d.cleared run =
    (removeRuns run.outDir (surplus d.keepLast (d.runsBeside run)) (d.made run)).1 := by
  unfold cleared pruned pruning runsBeside
  rw [if_neg (Nat.ne_of_gt hkeep)]
  dsimp only
  cases (d.made run).resolve run.outDir with
  | ok l =>
    dsimp only
    rw [prune, FileTree.runsListed_listing]
  | error e =>
    dsimp only
    rw [surplus, newestFirst, List.mergeSort_nil, List.drop_nil]
    rfl

/-- The same where the order of the runs is known. -/
theorem cleared_of_perm {runs : List (Nat × Bytes)} (hkeep : 0 < d.keepLast)
    (hruns : (d.runsBeside run).Perm runs) (horder : runs.Pairwise fun a b => b.1 < a.1) :
    d.cleared run = (removeRuns run.outDir (runs.drop d.keepLast) (d.made run)).1 := by
  rw [cleared_eq hkeep, surplus_eq hruns horder]

/-- The path of the output directory leads there after pruning, if there is one. -/
def Leads (run : RunInfo) (d : RunDirectory ε) : Prop :=
  run.outDir = [] ∨ (d.cleared run).stat run.outDir = .ok .directory

/-- When a run can be opened, from a closed recorder. -/
theorem begin_isOk_iff (hkeep : 0 < d.keepLast) (hstart : 0 ≤ run.startedAt)
    (h : Creatable run d) :
    let start := run.startedAt.toInt.toNat
    let stays := (d.cleared run).at? (Path.locate run.directory) = some .directory
    ((d.runsBeside run).countP (fun r => decide (start ≤ r.1)) ≤ d.keepLast → stays) ∧
      (stays → Leads run d →
        (d.runsBeside run).countP (fun r => decide (start < r.1)) < d.keepLast) ∧
      ((d.begin run).1.isOk = true ↔ stays ∧ Leads run d) := by
  intro start stays
  have hwrite := h.writeFile_iff (t := d.cleared run) fun l hl =>
    at?_of_pruned { d with tree := d.made run } run.outDir hl
  rw [← begin_isOk h] at hwrite
  rw [hwrite]
  by_cases hout : run.outDir = []
  · have hstat : (d.made run).stat run.directory = .ok .directory :=
      (h.writeFile_iff fun _ hl => hl).1 h.manifest
    obtain ⟨l, hl, hat⟩ := FileTree.stat_eq_directory_iff.1 hstat
    have hnone : d.runsBeside run = [] := by
      rw [runsBeside, hout]
      rfl
    have hall : d.cleared run = d.made run := by
      rw [cleared_eq hkeep, hnone, surplus, newestFirst, List.mergeSort_nil, List.drop_nil]
      rfl
    have hstays : stays := by
      show (d.cleared run).at? _ = _
      rw [hall, ← FileTree.resolve_eq_locate hl, hat]
    exact ⟨fun _ => hstays, fun _ _ => by simpa [hnone] using hkeep,
      iff_of_true (hall ▸ hstat) ⟨hstays, .inl hout⟩⟩
  · obtain ⟨l, hl, hat, hplace, hthere, hstat⟩ := h.resolve_outDir hout
    have hname := RunName.time?_ofTime hstart
    obtain rfl := FileTree.resolve_eq_locate hl
    have hself : (start, RunName.ofTime run.startedAt) ∈ d.runsBeside run := by
      rw [runsBeside, hl]
      exact FileTree.mem_runsIn hname (RunName.isAbove_concat hname _) (hplace ▸ hthere)
    refine ⟨fun hcount => ?_, fun hstays hleads => ?_, ?_⟩
    · show (d.cleared run).at? _ = _
      rw [cleared_eq hkeep, hplace, FileTree.at?_removeRuns_run hname
        (fun r hr => time_of_mem_runsBeside (mem_of_mem_surplus hr)) (notMem_surplus hcount),
        ← hplace, hthere]
    · by_contra hcount
      have hsurplus := mem_surplus hself (Nat.le_of_not_lt hcount)
      obtain ⟨l, hleads, -⟩ := FileTree.stat_eq_directory_iff.1 (hleads.resolve_left hout)
      rw [cleared_eq hkeep] at hleads
      have hgone := FileTree.at?_removeRuns_of_mem hsurplus hleads h.directory_short List.prefix_rfl
        (RunName.isAbove_concat hname _)
      rw [← cleared_eq hkeep, ← hplace] at hgone
      exact absurd (hgone.symm.trans hstays) (by simp)
    · rw [hstat, and_comm]
      simp [hout, stays, Leads]

theorem keepLast_close (d : RunDirectory ε) (e : ε) :
    (d.close env e).1.keepLast = d.keepLast := by
  rw [close_eq]
  unfold flushManifest
  split
  · rfl
  · rfl

variable (env) in
/-- When a run can be opened whose directory and manifest can be created. Its directory stays
there if no more runs than are kept are as new as it is. It goes if as many as are kept are newer,
unless the path of the output directory goes through a run that is removed before it. The run is
opened just when the directory stays and the path of the output directory still leads there. -/
theorem openRun_ok_iff (run : RunInfo) (d : RunDirectory ε) (e : ε) (hkeep : 0 < d.keepLast)
    (hstart : 0 ≤ run.startedAt) (h : Creatable run (d.close env e).1) :
    let closed := (d.close env e).1
    let start := run.startedAt.toInt.toNat
    let stays := (closed.cleared run).at? (Path.locate run.directory) = some .directory
    ((closed.runsBeside run).countP (fun r => decide (start ≤ r.1)) ≤ d.keepLast → stays) ∧
      (stays → Leads run closed →
        (closed.runsBeside run).countP (fun r => decide (start < r.1)) < d.keepLast) ∧
      ((d.openRun env run e).1.1.isOk = true ↔ stays ∧ Leads run closed) := by
  have hkeep' : 0 < (d.close env e).1.keepLast := by rwa [keepLast_close]
  have hbegin := begin_isOk_iff hkeep' hstart h
  rwa [keepLast_close] at hbegin

/-- A run between an older one and one that is dated later, of which two are kept. -/
theorem openRun_between :
    let d : RunDirectory Unit := { keepLast := 2, tree := ⟨[(["out"], .directory),
      (["out", "insights-1"], .directory), (["out", "insights-9"], .directory)]⟩ }
    let run : RunInfo := ⟨"out", "cfg.yaml", "abc", 5⟩
    Creatable run (d.close quiet ()).1 ∧
      ((d.close quiet ()).1.cleared run).at? (Path.locate run.directory) = some .directory ∧
      ((d.close quiet ()).1.cleared run).at? ["out", "insights-1"] = none ∧
      (d.openRun quiet run ()).1.1.isOk = true := by
  intro d run
  have hcreatable : Creatable run (d.close quiet ()).1 := by decide +kernel
  let runs : List (Nat × Bytes) := [(9, "insights-9"), (5, "insights-5"), (1, "insights-1")]
  have hruns : ((d.close quiet ()).1.runsBeside run).Perm runs := by decide +kernel
  have hcleared := cleared_of_perm (by decide) hruns (by decide)
  have hleads : ((d.close quiet ()).1.cleared run).stat run.outDir = .ok .directory := by
    rw [hcleared]
    decide +kernel
  obtain ⟨hstays, -, hopened⟩ :=
    openRun_ok_iff quiet run d () (by decide) (by decide) hcreatable
  have hthere := hstays (by decide +kernel)
  refine ⟨hcreatable, hthere, ?_, hopened.2 ⟨hthere, .inr hleads⟩⟩
  rw [hcleared]
  decide +kernel

/-- One run is kept, and the one that is there is dated later : the directory of the new run
is made and removed again, and the run is not opened. -/
theorem later_runs_displace :
    let d : RunDirectory Unit := { keepLast := 1, tree := ⟨[(["out"], .directory),
      (["out", "insights-2"], .directory)]⟩ }
    let run : RunInfo := ⟨"out", "cfg.yaml", "abc", 1⟩
    0 < d.keepLast ∧ 0 ≤ run.startedAt ∧ Creatable run (d.close quiet ()).1 ∧
      ((d.close quiet ()).1.cleared run).at? (Path.locate run.directory) = none ∧
      (d.openRun quiet run ()).1.1 =
        ⟨.ioError, "failed opening 'out/insights-1/manifest.jsonl'"⟩ := by
  intro d run
  have hcreatable : Creatable run (d.close quiet ()).1 := by decide +kernel
  let runs : List (Nat × Bytes) := [(2, "insights-2"), (1, "insights-1")]
  have hruns : ((d.close quiet ()).1.runsBeside run).Perm runs := by decide +kernel
  have hcleared := cleared_of_perm (by decide) hruns (by decide)
  refine ⟨by decide, by decide, hcreatable, ?_, ?_⟩
  · rw [hcleared]
    decide +kernel
  · show ((d.close quiet ()).1.begin run).1 = _
    rw [status_begin hcreatable.directory, hcleared]
    decide +kernel

end RunDirectory

end ClusterEvidence
