import ClusterEvidence.Proofs.Run.Prune

/-!
# Earlier runs when a run cannot be opened

Old runs are pruned between the two steps of opening a run that can fail. Where the directory of the
run cannot be made, nothing has been pruned yet and every earlier run stays. Where its manifest
cannot be created, the surplus has been removed already, although there is no new run to make room
for (`failed_run_displaces`). `openRun_failed_stays_iff` says which runs stay when opening fails :
all, or those that pruning keeps and those that it cannot reach.
-/

namespace ClusterEvidence

namespace RunDirectory

variable {ε : Type} {env : Surroundings ε} {d : RunDirectory ε} {run : RunInfo} {time : Nat}
  {name : Bytes}

/-- Closing a run leaves its files, and everything else, where they are. -/
theorem extends_close (d : RunDirectory ε) (e : ε) :
    d.tree.Extends (d.close env e).1.tree := by
  rw [close_eq]
  show d.tree.Extends d.flushManifest.tree
  cases hm : d.manifest with
  | none =>
    rw [flushManifest, hm]
    exact .refl d.tree
  | some m =>
    rw [flushManifest_some hm]
    exact (m.moves_flush d.tree).extended

/-- What is left of the files depends on the step that failed. -/
theorem tree_begin_of_failed (h : (d.begin run).1.isOk = false) :
    (d.begin run).2.tree =
      if (d.tree.createDirectories run.directory).2 = none then d.cleared run else d.made run := by
  cases hmade : (d.tree.createDirectories run.directory).2 with
  | some why =>
    have hdir : d.tree.createDirectories (Path.join run.outDir (RunName.ofTime run.startedAt)) =
        (d.made run, some why) := Prod.ext rfl hmade
    unfold begin
    dsimp only
    rw [hdir, if_neg (by simp)]
  | none =>
    have hdir : d.tree.createDirectories (Path.join run.outDir (RunName.ofTime run.startedAt)) =
        (d.made run, none) := Prod.ext rfl hmade
    unfold begin at h ⊢
    dsimp only at h ⊢
    rw [hdir] at h ⊢
    dsimp only at h ⊢
    rw [if_pos rfl]
    split at h
    · rfl
    · exact absurd h.symm Bool.false_ne_true

/-- A run in the output directory is listed, if the path of the output directory leads there. -/
theorem mem_runsBeside (hname : RunName.time? name = some time)
    (hthere : (d.made run).at? (Path.locate run.outDir ++ [name]) = some .directory) :
    d.runsBeside run = [] ∨ (time, name) ∈ d.runsBeside run := by
  rw [runsBeside]
  cases hl : (d.made run).resolve run.outDir with
  | error why => exact .inl rfl
  | ok l =>
    obtain rfl := FileTree.resolve_eq_locate hl
    exact .inr (FileTree.mem_runsIn hname (RunName.isAbove_concat hname _) hthere)

/-- If no runs are pruned, all files are still there. -/
theorem cleared_of_keepLast_eq (hkeep : d.keepLast = 0) : d.cleared run = d.made run := by
  unfold cleared pruned pruning
  rw [if_pos hkeep]

/-- Of the runs in the output directory, those that are not in the surplus are still there. -/
theorem at?_cleared_run (hname : RunName.time? name = some time)
    (hthere : (d.made run).at? (Path.locate run.outDir ++ [name]) = some .directory)
    (hkept : d.keepLast = 0 ∨ (time, name) ∉ surplus d.keepLast (d.runsBeside run)) :
    (d.cleared run).at? (Path.locate run.outDir ++ [name]) = some .directory := by
  by_cases hkeep : d.keepLast = 0
  · rwa [cleared_of_keepLast_eq hkeep]
  · rw [cleared_eq (Nat.pos_of_ne_zero hkeep), FileTree.at?_removeRuns_run hname
      (fun r hr => time_of_mem_runsBeside (mem_of_mem_surplus hr)) (hkept.resolve_left hkeep)]
    exact hthere

/-- Those in the surplus are gone, if they can be reached in the end. -/
theorem at?_cleared_surplus (hkeep : 0 < d.keepLast)
    (hsurplus : (time, name) ∈ surplus d.keepLast (d.runsBeside run))
    (hleads : (d.cleared run).stat run.outDir = .ok .directory)
    (hshort : (Path.join run.outDir name).length < FileTree.maxPath) :
    (d.cleared run).at? (Path.locate run.outDir ++ [name]) = none := by
  have hname := time_of_mem_runsBeside (mem_of_mem_surplus hsurplus)
  obtain ⟨l, hl, -⟩ := FileTree.stat_eq_directory_iff.1 hleads
  rw [cleared_eq hkeep] at hl ⊢
  exact FileTree.at?_removeRuns_of_mem hsurplus hl hshort List.prefix_rfl
    (RunName.isAbove_concat hname _)

variable (env) in
/-- Which earlier runs are still there when a run could not be opened. All of them are if its
directory could not be made. Otherwise old runs have been pruned : a run stays if no more runs than
are kept are as new as it is, the new one included, and goes if as many as are kept are newer. One
that should go stays only where it cannot be reached : the path of the output directory does not
lead there any more, or that of the run is too long. -/
theorem openRun_failed_stays_iff (run : RunInfo) (d : RunDirectory ε) (e : ε)
    (hfailed : (d.openRun env run e).1.1.isOk = false) (hname : RunName.time? name = some time)
    (hthere : d.tree.at? (Path.locate run.outDir ++ [name]) = some .directory) :
    let closed := (d.close env e).1
    let runs := closed.runsBeside run
    let after := (d.openRun env run e).1.2.tree
    let stays := after.at? (Path.locate run.outDir ++ [name]) = some .directory
    let refused := (closed.tree.createDirectories run.directory).2 ≠ none
    let kept := refused ∨ d.keepLast = 0 ∨ (time, name) ∉ surplus d.keepLast runs
    let reached := after.stat run.outDir = .ok .directory ∧
      (Path.join run.outDir name).length < FileTree.maxPath
    (kept → stays) ∧ (reached → (stays ↔ kept)) ∧
      (runs.countP (fun r => decide (time ≤ r.1)) ≤ d.keepLast → stays) ∧
      (reached → stays → refused ∨ d.keepLast = 0 ∨
        runs.countP (fun r => decide (time < r.1)) < d.keepLast) := by
  intro closed runs after stays refused kept reached
  have hclosed : closed.keepLast = d.keepLast := keepLast_close d e
  have hmade : (closed.made run).at? (Path.locate run.outDir ++ [name]) = some .directory :=
    (closed.tree.sameFiles_createDirectories run.directory).directories _
      ((extends_close d e).directories _ hthere)
  have htree : after = if (closed.tree.createDirectories run.directory).2 = none
      then closed.cleared run else closed.made run :=
    tree_begin_of_failed (d := closed) hfailed
  have hstays : kept → stays := by
    intro hkept
    show after.at? _ = _
    rw [htree]
    split
    · next hdone =>
      refine at?_cleared_run hname hmade ?_
      rw [hclosed]
      exact hkept.resolve_left (not_not.2 hdone)
    · exact hmade
  have hgoes : reached → stays → kept := by
    intro hreached hstays
    by_contra hgone
    obtain ⟨hdone, hkeep, hsurplus⟩ : ¬ refused ∧ d.keepLast ≠ 0 ∧
        (time, name) ∈ surplus d.keepLast runs := by simpa [kept] using hgone
    have hcleared : after = closed.cleared run := by rw [htree, if_pos (not_not.1 hdone)]
    rw [← hclosed] at hkeep hsurplus
    have hnone := at?_cleared_surplus (Nat.pos_of_ne_zero hkeep) hsurplus
      (hcleared ▸ hreached.1) hreached.2
    rw [← hcleared] at hnone
    exact absurd (hnone.symm.trans hstays) (by simp)
  refine ⟨hstays, fun hreached => ⟨hgoes hreached, hstays⟩,
    fun hcount => hstays (.inr (.inr (notMem_surplus hcount))), fun hreached hthere' => ?_⟩
  refine (hgoes hreached hthere').imp_right fun hkept => ?_
  rw [or_iff_not_imp_left] at hkept ⊢
  intro hkeep
  by_contra hcount
  rcases mem_runsBeside hname hmade with hnone | hrun
  · rw [show runs = [] from hnone] at hcount
    exact hcount (Nat.pos_of_ne_zero hkeep)
  · exact hkept hkeep (mem_surplus hrun (Nat.le_of_not_lt hcount))

/-- A directory is where the manifest would be. Of two earlier runs and the new one two are kept, so
the newer of the earlier ones stays. -/
theorem newer_run_stays :
    let d : RunDirectory Unit := { keepLast := 2, tree := ⟨[(["out"], .directory),
      (["out", "insights-1"], .directory), (["out", "insights-3"], .directory),
      (["out", "insights-5"], .directory), (["out", "insights-5", "manifest.jsonl"], .directory)]⟩ }
    let run : RunInfo := ⟨"out", "cfg.yaml", "abc", 5⟩
    (d.openRun quiet run ()).1.1.isOk = false ∧ RunName.time? "insights-3" = some 3 ∧
      d.tree.at? ["out", "insights-3"] = some .directory ∧
      (d.openRun quiet run ()).1.2.tree.at? ["out", "insights-3"] = some .directory ∧
      (d.openRun quiet run ()).1.2.tree.at? ["out", "insights-1"] = none := by
  intro d run
  let closed := (d.close quiet ()).1
  let runs : List (Nat × Bytes) := [(5, "insights-5"), (3, "insights-3"), (1, "insights-1")]
  have hruns : (closed.runsBeside run).Perm runs := by decide +kernel
  have hcleared := cleared_of_perm (by decide) hruns (by decide)
  have hmade : (closed.tree.createDirectories run.directory).2 = none := by decide +kernel
  have hfailed : (d.openRun quiet run ()).1.1.isOk = false := by
    show (closed.begin run).1.isOk = false
    rw [status_begin hmade, hcleared]
    decide +kernel
  have hname : RunName.time? "insights-3" = some 3 := by decide
  have hthere : d.tree.at? ["out", "insights-3"] = some .directory := by decide
  obtain ⟨-, -, hstays, -⟩ := openRun_failed_stays_iff quiet run d () hfailed hname hthere
  refine ⟨hfailed, hname, hthere, hstays (by decide +kernel), ?_⟩
  rw [show (d.openRun quiet run ()).1.2.tree = _ from tree_begin_of_failed hfailed, if_pos hmade,
    hcleared]
  decide +kernel

/-- One run is kept. The new run cannot be opened, and the earlier one has been removed for it. -/
theorem failed_run_displaces :
    let d : RunDirectory Unit := { keepLast := 1, tree := ⟨[(["out"], .directory),
      (["out", "insights-1"], .directory), (["out", "insights-5"], .directory),
      (["out", "insights-5", "manifest.jsonl"], .directory)]⟩ }
    let run : RunInfo := ⟨"out", "cfg.yaml", "abc", 5⟩
    (d.openRun quiet run ()).1.1 =
        ⟨.ioError, "failed opening 'out/insights-5/manifest.jsonl'"⟩ ∧
      RunName.time? "insights-1" = some 1 ∧
      d.tree.at? ["out", "insights-1"] = some .directory ∧
      (d.openRun quiet run ()).1.2.tree.at? ["out", "insights-1"] = none := by
  intro d run
  let closed := (d.close quiet ()).1
  let runs : List (Nat × Bytes) := [(5, "insights-5"), (1, "insights-1")]
  have hruns : (closed.runsBeside run).Perm runs := by decide +kernel
  have hcleared := cleared_of_perm (by decide) hruns (by decide)
  have hmade : (closed.tree.createDirectories run.directory).2 = none := by decide +kernel
  have hstatus : (d.openRun quiet run ()).1.1 =
      ⟨.ioError, "failed opening 'out/insights-5/manifest.jsonl'"⟩ := by
    show (closed.begin run).1 = _
    rw [status_begin hmade, hcleared]
    decide +kernel
  refine ⟨hstatus, by decide, by decide, ?_⟩
  rw [show (d.openRun quiet run ()).1.2.tree = _ from
    tree_begin_of_failed (congrArg Status.isOk hstatus), if_pos hmade, hcleared]
  decide +kernel

end RunDirectory

end ClusterEvidence
