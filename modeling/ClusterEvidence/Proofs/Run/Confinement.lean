import ClusterEvidence.Proofs.Files.Resolve
import ClusterEvidence.Proofs.Run.Storage

/-!
# Records stay in their run directory

The names of records come from the cluster, so they could try to lead anywhere. A location
is `Below` another if every step from there has a name of its own : it is neither empty nor
dots. The parts of an accepted name are such steps, and an extension cannot turn the last of
them into another thing, whatever it is, if it has no slash (`Fitting.visible`). So the file
of a record is below the run directory. The directories that have to be made for it are
looked for from below, and the run directory itself stands (`Seated`), so that the search
ends there (`FileTree.below_of_missingOn`).

`records_confined` puts this together : of the whole tree, a flush changes only what is below
the run directory.
-/

namespace ClusterEvidence

variable {ε : Type}

namespace FileTree

variable {t t' t'' : FileTree} {base l : Location} {dir rest p : Bytes}

/-! ## Below a location -/

/-- One gets to the location by steps down from the other, at least one. -/
def Below (base l : Location) : Prop :=
  ∃ way, way ≠ [] ∧ (∀ p ∈ way, RecordName.SafePart p) ∧ l = base ++ way

/-- What the system sees of the path leads down from the directory. -/
theorem below_locate (hdir : dir ≠ []) (hnul : (0 : UInt8) ∉ dir)
    (hrest : RecordName.Safe (Path.visible rest)) :
    Below (Path.locate dir) (Path.locate (Path.below dir rest)) := by
  refine ⟨Path.parts (Path.visible rest), Bytes.pieces_ne_nil _ _, hrest, ?_⟩
  rw [Path.locate_below hdir hnul, Path.normalize_of_safe _ hrest]

/-- The trees are the same, but for what is below the location. -/
def Confined (base : Location) (t t' : FileTree) : Prop :=
  ∀ l, ¬ Below base l → t'.at? l = t.at? l

namespace Confined

theorem refl (base : Location) (t : FileTree) : Confined base t t := fun _ _ => rfl

theorem trans (h : Confined base t t') (h' : Confined base t' t'') : Confined base t t'' :=
  fun l hl => (h' l hl).trans (h l hl)

/-- A change of one place below the base is confined to it. -/
theorem of_elsewhere (hl : Below base l) (h : ∀ l', l' ≠ l → t'.at? l' = t.at? l') :
    Confined base t t' :=
  fun l' hl' => h l' fun heq => hl' (heq ▸ hl)

theorem put (hl : Below base l) (t : FileTree) (e : Entry) : Confined base t (t.put l e) :=
  .of_elsewhere hl fun _ hne => at?_put_of_ne hne t e

end Confined

/-! ## Directories on the way -/

/-- Making a directory below the base is confined to it. -/
theorem confined_makeDirectory (hp : Below base (Path.locate p)) (h : t.makeDirectory p = .ok t') :
    Confined base t t' := by
  unfold makeDirectory at h
  split at h
  · cases h
  · next l hl =>
    obtain rfl := resolve_eq_locate hl
    split at h
    · cases h
      exact .put hp t _
    · cases h
      exact .refl base t
    · cases h

theorem confined_makeAll {ps : List Bytes} (hps : ∀ p ∈ ps, Below base (Path.locate p))
    (t : FileTree) : Confined base t (t.makeAll ps).1 := by
  induction ps generalizing t with
  | nil => exact .refl base t
  | cons p ps ih =>
    rw [List.forall_mem_cons] at hps
    unfold makeAll
    split
    · next t' hmake => exact (confined_makeDirectory hps.1 hmake).trans (ih hps.2 t')
    · exact .refl base t

/-- What is found to be missing above a path is below the directory that stands. The search
goes up one part at a time, and ends there. -/
theorem below_of_missingOn (hdir : dir ≠ []) (hslash : dir.getLast? ≠ some Path.slash)
    (hnul : (0 : UInt8) ∉ dir) (hstands : t.stat dir = .ok .directory) {n : Nat}
    {found missing : List Bytes} (hrest : RecordName.Safe rest) (hnul' : (0 : UInt8) ∉ rest)
    (hfound : ∀ p ∈ found, Below (Path.locate dir) (Path.locate p))
    (h : t.missingOn n (Path.below dir rest) found = .ok missing) :
    ∀ p ∈ missing, Below (Path.locate dir) (Path.locate p) := by
  induction n generalizing rest found with
  | zero =>
    cases h
    exact hfound
  | succ n ih =>
    have hself : Below (Path.locate dir) (Path.locate (Path.below dir rest)) :=
      below_locate hdir hnul (by rwa [Path.visible_of_notMem hnul'])
    have hname := hrest _ (Path.fileName_mem_parts rest)
    unfold missingOn at h
    dsimp only at h
    rw [Path.fileName_below_eq, if_neg (not_or.2 hname.2)] at h
    have hfound' : ∀ p ∈ Path.below dir rest :: found, Below (Path.locate dir) (Path.locate p) :=
      List.forall_mem_cons.2 ⟨hself, hfound⟩
    split at h
    · cases h
    · split at h
      · cases h
        exact hfound'
      · split at h
        · cases h
          exact hfound'
        · cases h
        · cases h
        · next e _ hstat =>
          by_cases hup : Path.slash ∈ rest
          · obtain ⟨dir', s, rfl, hs⟩ := Path.exists_last_part hup
            have hdir' := ((RunDirectory.safe_below_last hs).1 hrest).1
            rw [Path.parent_below_below (hdir' _ (Path.fileName_mem_parts dir')).1 hs] at h
            exact ih hdir' (fun h0 => hnul' (List.mem_append_left _ h0)) hfound' h
          · rw [Path.parent_below hdir hslash hup, hstands] at hstat
            cases hstat

/-- The directories on the way to one below a directory that stands are below it, too. -/
theorem confined_createDirectories (hdir : dir ≠ []) (hslash : dir.getLast? ≠ some Path.slash)
    (hnul : (0 : UInt8) ∉ dir) (hstands : t.stat dir = .ok .directory)
    (hrest : RecordName.Safe rest) (hnul' : (0 : UInt8) ∉ rest) :
    Confined (Path.locate dir) t (t.createDirectories (Path.below dir rest)).1 := by
  have hlast : (Path.below dir rest).getLast? ≠ some Path.slash :=
    Path.getLast?_ne_slash (by
      rw [Path.fileName_below_eq]
      exact (hrest _ (Path.fileName_mem_parts rest)).1)
  unfold createDirectories
  rw [if_neg (by simp [Path.below])]
  split
  · exact .refl _ t
  · exact .refl _ t
  · exact .refl _ t
  · dsimp only
    rw [if_neg hlast]
    split
    · exact .refl _ t
    · next missing h =>
      exact confined_makeAll
        (below_of_missingOn hdir hslash hnul hstands hrest hnul' (by simp) h) t

end FileTree

namespace RunDirectory

open FileTree (Below Confined)

variable {env : Surroundings ε} {d : RunDirectory ε} {run : RunInfo} {j : Journal ε}
  {q : Queued ε} {t : FileTree}

/-! ## Paths of records -/

/-- A record that can be stored where its name says : the name is safe, no zero byte cuts it,
and the extension is part of the last part. -/
structure Fitting (q : Queued ε) : Prop where
  name : RecordName.Safe q.name
  nul : (0 : UInt8) ∉ q.name
  ext : Path.slash ∉ q.content.ext

/-- The path of a file is safe if the name of its record is. -/
theorem Fitting.relativePath (h : Fitting q) : RecordName.Safe (relativePath q) :=
  h.name.fileName h.ext

/-- The extension may have a zero byte, and then the system sees less of it. -/
theorem Fitting.visible (h : Fitting q) :
    RecordName.Safe (Path.visible (RunDirectory.relativePath q)) := by
  by_cases hempty : q.content.ext = []
  · rw [relativePath_raw hempty, Path.visible_of_notMem h.nul]
    exact h.name
  · have hseen : Path.visible (RunDirectory.relativePath q) =
        q.name ++ 0x2e :: Path.visible q.content.ext := by
      rw [RunDirectory.relativePath, RecordName.fileName_eq_append hempty]
      unfold Path.visible
      rw [List.takeWhile_append_of_pos fun b hb => by
        simpa using fun h0 : b = 0 => h.nul (h0 ▸ hb), List.takeWhile_cons_of_pos (by decide)]
    rw [hseen]
    exact h.name.append_ending fun hslash => h.ext ((List.takeWhile_sublist _).subset hslash)

/-- Only the name of a record leads into directories. -/
theorem Fitting.directory (h : Fitting q) : Path.slash ∉ RunDirectory.relativePath q ∨
    ∃ dir s, RunDirectory.relativePath q = Path.below dir s ∧ Path.slash ∉ s ∧
      RecordName.Safe dir ∧ (0 : UInt8) ∉ dir := by
  obtain ⟨ending, hfile, hending⟩ :
      ∃ ending, RunDirectory.relativePath q = q.name ++ ending ∧ Path.slash ∉ ending := by
    by_cases hempty : q.content.ext = []
    · exact ⟨[], by rw [relativePath_raw hempty, List.append_nil], List.not_mem_nil⟩
    · refine ⟨0x2e :: q.content.ext, RecordName.fileName_eq_append hempty _, ?_⟩
      rw [List.mem_cons, not_or]
      exact ⟨by decide, h.ext⟩
  by_cases hslash : Path.slash ∈ q.name
  · obtain ⟨dir, s, hname, hs⟩ := Path.exists_last_part hslash
    have hsafe := h.name
    have hnul := h.nul
    rw [hname] at hsafe hnul
    refine .inr ⟨dir, s ++ ending, by rw [hfile, hname]; simp [Path.below], by simp [hs, hending],
      ((safe_below_last hs).1 hsafe).1, fun h0 => hnul (List.mem_append_left _ h0)⟩
  · exact .inl (by rw [hfile]; simp [hslash, hending])

/-- The file of a record stands in the run directory. -/
theorem Housed.filePath_eq (h : Housed d) (hq : Fitting q) :
    d.filePath q = Path.below d.runDir (RunDirectory.relativePath q) :=
  Path.join_eq_below h.runDir_ne.1 h.runDir_ne.2 hq.relativePath.head?_ne_slash

/-- The file of a record is below the run directory. -/
theorem Housed.below_filePath (h : Housed d) (hq : Fitting q) :
    Below (Path.locate d.runDir) (Path.locate (d.filePath q)) := by
  rw [h.filePath_eq hq]
  exact FileTree.below_locate h.runDir_ne.1 h.nul hq.visible

theorem Housed.below_manifestPath (h : Housed d) :
    Below (Path.locate d.runDir) (Path.locate d.manifestPath) :=
  ⟨["manifest.jsonl"], by simp,
    List.forall_mem_singleton.2 ((RecordName.isSafePart_iff _).1 (by decide)),
    h.locate_manifestPath⟩

/-- While the run directory stands, so are the directories that are made for a record. -/
theorem Housed.confined_parent (h : Housed d) (hq : Fitting q)
    (hstands : t.stat d.runDir = .ok .directory) :
    Confined (Path.locate d.runDir) t
      (t.createDirectories (Path.parent (d.filePath q))).1 := by
  obtain ⟨hne, hslash⟩ := h.runDir_ne
  rw [h.filePath_eq hq]
  rcases hq.directory with hlast | ⟨dir, s, hfile, hs, hdir, hnul⟩
  · rw [Path.parent_below hne hslash hlast]
    unfold FileTree.createDirectories
    rw [if_neg (by simpa using hne), hstands]
    exact .refl _ t
  · rw [hfile, Path.parent_below_below (hdir _ (Path.fileName_mem_parts dir)).1 hs]
    exact FileTree.confined_createDirectories hne hslash h.nul hstands hdir hnul

/-! ## The run directory stands -/

/-- The directory of an open run can be reached, and its manifest is in it. -/
structure Seated (d : RunDirectory ε) : Prop extends Housed d where
  stands : d.tree.stat d.runDir = .ok .directory
  seat : ∃ m, d.manifest = some m ∧ m.location = Path.locate d.manifestPath

theorem Seated.isOpen (h : Seated d) : d.isOpen = true := by
  obtain ⟨m, hm, -⟩ := h.seat
  rw [RunDirectory.isOpen, hm]
  rfl

/-- What waits does not matter. -/
theorem Seated.queue (h : Seated d) (pending : List (Queued ε)) (names : List Bytes) :
    Seated { d with pending, names } :=
  ⟨h.toHoused.congr rfl rfl, h.stands, h.seat⟩

theorem Seated.extends (h : Seated d) (ht : d.tree.Extends t) : Seated { d with tree := t } :=
  ⟨h.toHoused.congr rfl rfl, ht.stat_directory h.stands, h.seat⟩

/-- Writing to the manifest changes its file, which is in the run directory. -/
theorem Seated.moves (h : Seated d) {m m' : Manifest} (hm : d.manifest = some m)
    (hmoves : m.Moves d.tree m' t) :
    Seated { d with manifest := some m', tree := t } ∧
      Confined (Path.locate d.runDir) d.tree t := by
  obtain ⟨m₀, hm₀, hlocation⟩ := h.seat
  obtain rfl : m₀ = m := Option.some.inj (hm₀.symm.trans hm)
  refine ⟨⟨h.toHoused.congr rfl rfl, hmoves.extended.stat_directory h.stands, m', rfl,
    hmoves.location.trans hlocation⟩, ?_⟩
  exact .of_elsewhere h.below_manifestPath (hlocation ▸ hmoves.elsewhere)

theorem Seated.writeLine (h : Seated d) (line : Json) : Seated (d.writeLine line) ∧
    Confined (Path.locate d.runDir) d.tree (d.writeLine line).tree := by
  obtain ⟨m, hm, -⟩ := h.seat
  rw [writeLine_some hm]
  exact h.moves hm (m.moves_writeLine line d.tree)

theorem Seated.flushManifest (h : Seated d) : Seated d.flushManifest ∧
    Confined (Path.locate d.runDir) d.tree d.flushManifest.tree := by
  obtain ⟨m, hm, -⟩ := h.seat
  rw [flushManifest_some hm]
  exact h.moves hm (m.moves_flush d.tree)

/-! ## Writing records -/

/-- Storing a record keeps the run directory, and a fitting one is stored below it. -/
theorem Seated.store (h : Seated d) (q : Queued ε) (bytes : Bytes) :
    Seated (d.store q bytes).2 ∧
      (Fitting q → Confined (Path.locate d.runDir) d.tree (d.store q bytes).2.tree) := by
  have hmade := (d.tree.sameFiles_createDirectories (Path.parent (d.filePath q))).extended
  have hparent := fun hq : Fitting q => h.confined_parent hq h.stands
  rcases store_cases q bytes d with ⟨-, hstate⟩ | ⟨-, t, l, hwrite, hstore⟩
  · rw [hstate]
    exact ⟨h.extends hmade, hparent⟩
  · rw [hstore]
    obtain ⟨hresolve, hfile, rfl⟩ := FileTree.writeFile_eq_some hwrite
    obtain rfl := FileTree.resolve_eq_locate hresolve
    obtain ⟨hseated, hline⟩ := (h.extends (hmade.trans (.put hfile))).writeLine
      (Manifest.recordLine q.name q.captured q.fingerprint bytes)
    exact ⟨hseated, fun hq => ((hparent hq).trans (.put (h.below_filePath hq) _ _)).trans hline⟩

/-- A record that fits is written in the run directory. -/
theorem Seated.writeRecord (h : Seated d) (q : Queued ε) (e : ε) :
    Seated (d.writeRecord q e).1.2 ∧
      (Fitting q → Confined (Path.locate d.runDir) d.tree (d.writeRecord q e).1.2.tree) := by
  rw [writeRecord_run]
  split
  · exact ⟨h, fun _ => .refl _ _⟩
  · exact h.store q _

variable (env) in
/-- A queue of records that fit is written in the run directory. -/
theorem Seated.flushQueue (h : Seated d) (qs : List (Queued ε)) (e : ε) :
    Seated (flushQueue env qs d e).1.2 ∧ ((∀ q ∈ qs, Fitting q) →
      Confined (Path.locate d.runDir) d.tree (flushQueue env qs d e).1.2.tree) := by
  have hrun := flushQueue_induct env (P := fun d' _ => Seated d' ∧ d'.runDir = d.runDir ∧
    ((∀ q ∈ qs, Fitting q) → Confined (Path.locate d.runDir) d.tree d'.tree)) qs []
    (fun q hq d' _ e' h' => ?_) ⟨h, rfl, fun _ => .refl _ _⟩ e
  · exact ⟨hrun.1, hrun.2.2⟩
  · obtain ⟨hseated, hrunDir, hconfined⟩ := h'
    obtain ⟨hnext, hwritten⟩ := hseated.writeRecord q e'
    rw [hrunDir] at hwritten
    exact ⟨hnext, (sameRun_writeRecord q d' e').runDir.trans hrunDir,
      fun hqs => (hconfined hqs).trans (hwritten (hqs q hq))⟩

variable (env) in
/-- A flush keeps the run directory, and writes fitting records below it. -/
theorem Seated.flush (h : Seated d) (e : ε) : Seated (d.flush env e).1.2 ∧
    ((∀ q ∈ d.pending, Fitting q) →
      Confined (Path.locate d.runDir) d.tree (d.flush env e).1.2.tree) := by
  obtain ⟨hqueue, hwritten⟩ := h.flushQueue env d.pending e
  obtain ⟨hmanifest, hconfined⟩ := hqueue.flushManifest
  rw [(sameRun_flushQueue env d.pending d e).runDir] at hconfined
  rw [(attempt_open env h.isOpen e).2]
  exact ⟨hmanifest.queue _ _, fun hqs => (hwritten hqs).trans hconfined⟩

/-! ## A run -/

/-- A run that was opened has its manifest in its directory. -/
theorem seated_begin (h : (d.begin run).1.isOk = true) : Seated (d.begin run).2 := by
  have hhoused := housed_begin h
  obtain ⟨-, t, l, hwrite, hbegin⟩ := begin_ok h
  rw [hbegin] at hhoused ⊢
  obtain ⟨hresolve, hfile, rfl⟩ := FileTree.writeFile_eq_some hwrite
  have hopened := hhoused.congr (sameRun_writeLine _ _).runDir.symm
    (sameRun_writeLine _ _).manifestPath.symm
  have hstands := ((FileTree.resolve_join_iff hopened.runDir_ne.1 hopened.nul
    ((RecordName.isSafePart_iff _).1 (by decide)) (by decide) (by decide)).1 hresolve).2.2.1
  exact (Seated.writeLine ⟨hopened, (FileTree.Extends.put hfile).stat_directory hstands, _, rfl,
    FileTree.resolve_eq_locate hresolve⟩ _).1

variable (env) in
/-- Adding records and flushing keeps the run directory. -/
theorem seated_serve (l : List (Request ε)) (hl : ∀ q ∈ l, q.InRun) (h : Seated d) :
    Seated (serve env l (d, j)).1 := by
  induction l generalizing d j with
  | nil => exact h
  | cons q l ih =>
    rw [List.forall_mem_cons] at hl
    refine ih hl.2 ?_
    cases q with
    | record r =>
      show Seated (d.record r).2
      cases hq : d.accept r with
      | error why => rwa [record_of_error hq]
      | ok q =>
        rw [record_of_ok hq]
        exact h.queue _ _
    | flush e => exact (h.flush env e).1
    | openRun _ _ => exact hl.1.elim
    | close _ => exact hl.1.elim
    | meanwhile _ => exact hl.1.elim

variable (env) in
/-- A name is taken for safe if none of its parts is empty or dots. In a run that was opened,
the path of an accepted record without zero bytes in its name and slashes in its extension
leads below the run directory in any tree, and so do those of the directories that are made
for it while the run directory stands; and the run directory stands, so a flush of such
records changes nothing that is not below it. -/
theorem records_confined (x : RunDirectory ε × Journal ε) (run : RunInfo) (e : ε)
    (hopen : (x.1.openRun env run e).1.1.isOk = true) (l : List (Request ε))
    (hl : ∀ q ∈ l, q.InRun) :
    let d := (serve env (.openRun run e :: l) x).1
    (∀ name, RecordName.isSafe name = true ↔
      ∀ p ∈ Path.parts name, p ≠ [] ∧ p ≠ ("." : Bytes) ∧ p ≠ (".." : Bytes)) ∧
    (∀ r q, d.accept r = .ok q → (0 : UInt8) ∉ r.name → Path.slash ∉ q.content.ext →
      Below (Path.locate d.runDir) (Path.locate (d.filePath q)) ∧
      (∀ t l, FileTree.resolve t (d.filePath q) = .ok l → Below (Path.locate d.runDir) l) ∧
      ∀ t, FileTree.stat t d.runDir = .ok .directory → Confined (Path.locate d.runDir) t
        (t.createDirectories (Path.parent (d.filePath q))).1) ∧
    d.tree.stat d.runDir = .ok .directory ∧
    ∀ e, (∀ q ∈ d.pending, (0 : UInt8) ∉ q.name ∧ Path.slash ∉ q.content.ext) →
      Confined (Path.locate d.runDir) d.tree (d.flush env e).1.2.tree := by
  intro d
  have hseated : Seated d := seated_serve env l hl (seated_begin hopen)
  have hconsistent : Consistent d _ := consistent_serve l (consistent_openRun env run x.1 e)
  refine ⟨RecordName.isSafe_iff, fun r q hr hnul hext => ?_, hseated.stands, fun e hfit => ?_⟩
  · obtain ⟨-, hname, -, rfl⟩ := (accept_ok_iff r q).1 hr
    have hq : Fitting q := ⟨hname, hnul, hext⟩
    have hbelow := hseated.below_filePath hq
    exact ⟨hbelow, fun t l hl => FileTree.resolve_eq_locate hl ▸ hbelow,
      fun t => hseated.confined_parent hq⟩
  · refine (hseated.flush env e).2 fun q hq => ?_
    obtain ⟨hnul, hext⟩ := hfit q hq
    refine ⟨hconsistent.safe q ?_, hnul, hext⟩
    rw [hconsistent.order]
    exact List.mem_append_right _ (List.mem_append_right _ hq)

/-- Parts that look like the way up, and an extension that the system sees nothing of. -/
theorem dotted_names_confined :
    let run : RunInfo := ⟨"out/../out", "cfg.yaml", "abc", 1⟩
    let l : List (Request Bool) := [.record ⟨".../c", 0, [], some (.raw "y")⟩, .flush false,
      .record ⟨"..c", 0, [], some (.raw "z")⟩]
    let q : Queued Bool :=
      ⟨"a/..b/...", 0, [], .custom [0, 0x2e, 0x2e] fun raised => (.ok "x", raised)⟩
    let d := (serve flagOnly (.openRun run false :: l) ({}, {})).1
    (({} : RunDirectory Bool).openRun flagOnly run false).1.1.isOk = true ∧
      d.accept q.record = .ok q ∧
      Below (Path.locate d.runDir) (Path.locate (d.filePath q)) ∧
      d.pending.map Queued.name = ["..c"] ∧ (d.flush flagOnly false).1.1 = .ok ∧
      Confined (Path.locate d.runDir) d.tree (d.flush flagOnly false).1.2.tree := by
  intro run l q d
  have hopen : (({} : RunDirectory Bool).openRun flagOnly run false).1.1.isOk = true := by
    decide +kernel
  obtain ⟨-, hrecords, -, hflush⟩ := records_confined flagOnly ({}, {}) run false hopen l
    (by simp [l, Request.InRun])
  have haccept : d.accept q.record = .ok q :=
    (accept_ok_iff _ _).2 ⟨by decide +kernel, (RecordName.isSafe_iff _).1 (by decide),
      by decide +kernel, rfl⟩
  exact ⟨hopen, haccept, (hrecords q.record q haccept (by decide) (by decide)).1, by decide +kernel,
    by decide +kernel, hflush false (by decide +kernel)⟩

end RunDirectory

end ClusterEvidence
