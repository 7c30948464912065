import ClusterEvidence.Proofs.Run.Flush
import ClusterEvidence.Proofs.Run.Manifest

/-!
# What a run leaves on disk

`OnDisk` says of an open run which records it has written, each with its bytes : the tree has
come from the one before by writing their files (`FileTree.Placed`), and the manifest holds
the line of the run and their lines, in order. A run that was opened has written nothing yet
(`onDisk_begin`), and a flush adds the records that it tried and could write
(`onDisk_flush`). A record may be written over the manifest, and then nothing is said about
what the manifest holds.
-/

namespace ClusterEvidence

variable {ε : Type}

/-- A content that cannot be marshalled says so : the status is no success. -/
def Content.Sound (c : Content ε) : Prop := ∀ e st, (c.marshal e).1 = .error st → st.isOk = false

theorem Content.Sound.of_ok {c : Content ε} (h : ∀ e, ∃ bytes, (c.marshal e).1 = .ok bytes) :
    c.Sound := by
  intro e st hst
  obtain ⟨bytes, hbytes⟩ := h e
  rw [hbytes] at hst
  cases hst

namespace FileTree

variable {t : FileTree} {l l' : Location} {e : Entry} {outDir name : Bytes}

/-! ## Pruning makes nothing new -/

theorem at?_of_removeAll (h : (t.removeAll l).at? l' = some e) : t.at? l' = some e := by
  rw [at?_removeAll] at h
  split at h
  · next habove =>
    cases h
    exact at?_of_isAbove habove t
  · split at h
    · cases h
    · exact h

/-- A run is removed from the place of the output directory, or nothing is. -/
theorem removeRun_fst (outDir name : Bytes) (t : FileTree) :
    (removeRun outDir name t).1 = t ∨
      (removeRun outDir name t).1 = t.removeAll (Path.locate outDir ++ [name]) := by
  unfold removeRun
  split
  · exact .inl rfl
  · exact .inl rfl
  · next l hl =>
    split
    · exact .inl rfl
    · exact .inr (by rw [resolve_eq_locate hl])

theorem at?_of_removeRun (h : (removeRun outDir name t).1.at? l = some e) :
    t.at? l = some e := by
  rcases removeRun_fst outDir name t with hsame | hless
  · rwa [hsame] at h
  · exact at?_of_removeAll (hless ▸ h)

theorem removeRuns_cons (outDir : Bytes) (run : Nat × Bytes) (runs : List (Nat × Bytes))
    (t : FileTree) : (removeRuns outDir (run :: runs) t).1 =
      (removeRuns outDir runs (removeRun outDir run.2 t).1).1 :=
  rfl

theorem at?_of_removeRuns {runs : List (Nat × Bytes)}
    (h : (removeRuns outDir runs t).1.at? l = some e) : t.at? l = some e := by
  induction runs generalizing t with
  | nil => exact h
  | cons run runs ih =>
    rw [removeRuns_cons] at h
    exact at?_of_removeRun (ih h)

/-- What is there after pruning was there before. -/
theorem at?_of_prune {keep : Nat} {listing : List ListedEntry}
    (h : (prune keep outDir listing t).1.at? l = some e) : t.at? l = some e := by
  unfold prune at h
  split at h
  · exact h
  · exact at?_of_removeRuns h

end FileTree

namespace RunDirectory

variable {env : Surroundings ε} {t₀ : FileTree} {run : RunInfo} {d d' : RunDirectory ε}
  {W : List (Queued ε × Bytes)}

/-! ## The invariant -/

/-- The line of a record that was written with these bytes. -/
def line (w : Queued ε × Bytes) : Bytes :=
  (Manifest.recordLine w.1.name w.1.captured w.1.fingerprint w.2).render

/-- The text of a manifest : the line of the run and those of the records. -/
def manifestText (run : RunInfo) (W : List (Queued ε × Bytes)) : Bytes :=
  Manifest.linesText ((Manifest.header run).render :: W.map line)

/-- No record is written over the manifest. -/
def Spared (d : RunDirectory ε) (qs : List (Queued ε)) : Prop :=
  ∀ q ∈ qs, Path.locate (d.filePath q) ≠ Path.locate d.manifestPath

/-- The records that the open run has written, each with its bytes. -/
structure OnDisk (t₀ : FileTree) (run : RunInfo) (d : RunDirectory ε)
    (W : List (Queued ε × Bytes)) : Prop where
  runDir : d.runDir = Path.join run.outDir (RunName.ofTime run.startedAt)
  manifestPath : d.manifestPath = Path.join d.runDir "manifest.jsonl"
  placed : t₀.Placed d.tree d.manifestPath (W.map fun w => (d.filePath w.1, w.2))
  stored : ∀ w ∈ W, FileTree.Stored (d.filePath w.1) w.2
  marshalled : ∀ w ∈ W, ∃ e, (w.1.content.marshal e).1 = .ok w.2
  manifest : ∃ m, d.manifest = some m ∧ m.location = Path.locate d.manifestPath ∧
    (d.Spared (W.map Prod.fst) → m.Holds d.tree (manifestText run W))

/-- What waits does not matter. -/
theorem OnDisk.queue (h : OnDisk t₀ run d W) (pending : List (Queued ε)) (names : List Bytes) :
    OnDisk t₀ run { d with pending, names } W :=
  ⟨h.runDir, h.manifestPath, h.placed, h.stored, h.marshalled, h.manifest⟩

theorem manifestText_nil (run : RunInfo) :
    manifestText run ([] : List (Queued ε × Bytes)) = (Manifest.header run).render ++ [0x0a] := by
  simp [manifestText, Manifest.linesText]

/-- A record that is written adds its line to the text of the manifest. -/
theorem manifestText_concat (run : RunInfo) (W : List (Queued ε × Bytes)) (w : Queued ε × Bytes) :
    manifestText run (W ++ [w]) = manifestText run W ++ (line w ++ [0x0a]) := by
  simp [manifestText, Manifest.linesText]

/-- The lines of a manifest are that of the run and those of the records. -/
theorem pieces_manifestText (run : RunInfo) (W : List (Queued ε × Bytes)) :
    Bytes.pieces 0x0a (manifestText run W) =
      (Manifest.header run).render :: W.map line ++ [[]] := by
  refine Bytes.pieces_lines (List.forall_mem_cons.2 ⟨Json.newline_notMem_render _, fun l hl => ?_⟩)
  obtain ⟨w, -, rfl⟩ := List.mem_map.1 hl
  exact Json.newline_notMem_render _

/-! ## Writing a record -/

/-- The record was written with these bytes, or was not and says so. -/
def Wrote (q : Queued ε) (st : Status) (W' : List (Queued ε × Bytes)) : Prop :=
  (st.isOk = true ∧ ∃ bytes, W' = [(q, bytes)]) ∨ (st.isOk = false ∧ W' = [])

/-- Directories that are made leave the run on the disk. -/
theorem OnDisk.sameFiles (h : OnDisk t₀ run d W) {t : FileTree} (ht : d.tree.SameFiles t) :
    OnDisk t₀ run { d with tree := t } W := by
  obtain ⟨m, hm, hlocation, hholds⟩ := h.manifest
  refine ⟨h.runDir, h.manifestPath, h.placed.sameFiles ht, h.stored, h.marshalled, m, hm, hlocation,
    fun hspared => ?_⟩
  obtain ⟨content, hfile, hrest⟩ := hholds hspared
  exact ⟨content, (ht.files _ _).2 hfile, hrest⟩

theorem writeLine_some {m : Manifest} (hm : d.manifest = some m) (j : Json) :
    d.writeLine j = { d with
      manifest := some (m.writeLine j d.tree).1
      tree := (m.writeLine j d.tree).2 } := by
  unfold writeLine
  rw [hm]

theorem flushManifest_some {m : Manifest} (hm : d.manifest = some m) :
    d.flushManifest = { d with
      manifest := some (m.flush d.tree).1
      tree := (m.flush d.tree).2 } := by
  unfold flushManifest
  rw [hm]

/-- Storing a record makes the directories above its file, and then writes the file and the
line, or has failed. -/
theorem store_cases (q : Queued ε) (bytes : Bytes) (d : RunDirectory ε) :
    let made := d.tree.createDirectories (Path.parent (d.filePath q))
    ((d.store q bytes).1.isOk = false ∧ (d.store q bytes).2 = { d with tree := made.1 }) ∨
      made.2 = none ∧ ∃ t l, made.1.writeFile (d.filePath q) bytes = some (t, l) ∧
        d.store q bytes = (.ok, RunDirectory.writeLine
          (Manifest.recordLine q.name q.captured q.fingerprint bytes) { d with tree := t }) := by
  intro made
  have hmade : d.tree.createDirectories (Path.parent (d.filePath q)) = made := rfl
  clear_value made
  unfold store
  dsimp only
  rw [hmade]
  obtain ⟨t, _ | why⟩ := made
  · dsimp only
    cases hwrite : t.writeFile (d.filePath q) bytes with
    | none => exact .inl ⟨rfl, rfl⟩
    | some r => exact .inr ⟨rfl, r.1, r.2, rfl, rfl⟩
  · exact .inl ⟨rfl, rfl⟩

/-- A record that was stored is on the disk with its line. -/
theorem onDisk_stored (h : OnDisk t₀ run d W) {q : Queued ε} {bytes : Bytes} {t : FileTree}
    {l : Location} (hwrite : d.tree.writeFile (d.filePath q) bytes = some (t, l))
    (hstored : FileTree.Stored (d.filePath q) bytes)
    (hbytes : ∃ e, (q.content.marshal e).1 = .ok bytes) :
    OnDisk t₀ run (RunDirectory.writeLine
      (Manifest.recordLine q.name q.captured q.fingerprint bytes) { d with tree := t })
      (W ++ [(q, bytes)]) := by
  obtain ⟨hresolve, hdir, rfl⟩ := FileTree.writeFile_eq_some hwrite
  obtain ⟨m, hm, hlocation, hholds⟩ := h.manifest
  rw [writeLine_some
    (show RunDirectory.manifest { d with tree := d.tree.put l (.file bytes) } = some m from hm)]
  have hmoves := m.moves_writeLine (Manifest.recordLine q.name q.captured q.fingerprint bytes)
    (d.tree.put l (.file bytes))
  refine ⟨h.runDir, h.manifestPath, ?_, fun w hw => ?_, fun w hw => ?_, _, rfl,
    hmoves.location.trans hlocation, fun hspared => ?_⟩
  · rw [List.map_append]
    exact (h.placed.put hresolve hdir).touched hmoves.extended
      fun l' hl' => hmoves.elsewhere l' (hlocation ▸ hl')
  · rcases List.mem_append.1 hw with hw | hw
    · exact h.stored w hw
    · obtain rfl := List.mem_singleton.1 hw
      exact hstored
  · rcases List.mem_append.1 hw with hw | hw
    · exact h.marshalled w hw
    · obtain rfl := List.mem_singleton.1 hw
      exact hbytes
  · rw [List.map_append] at hspared
    have hne : Path.locate (d.filePath q) ≠ m.location :=
      hlocation ▸ hspared q (List.mem_append_right _ (List.mem_singleton_self q))
    have hother : m.Holds (d.tree.put l (.file bytes)) (manifestText run W) :=
      (hholds fun q' hq' => hspared q' (List.mem_append_left _ hq')).congr
        (FileTree.at?_put_of_ne (FileTree.resolve_eq_locate hresolve ▸ Ne.symm hne) _ _)
    rw [manifestText_concat]
    exact Manifest.holds_writeLine hother _

/-- A record that can be stored is written, and one that cannot leaves the files alone. -/
theorem onDisk_store (h : OnDisk t₀ run d W) {q : Queued ε} {bytes : Bytes}
    (hbytes : ∃ e, (q.content.marshal e).1 = .ok bytes) :
    ∃ W', OnDisk t₀ run (d.store q bytes).2 (W ++ W') ∧ Wrote q (d.store q bytes).1 W' := by
  have hmade := h.sameFiles (d.tree.sameFiles_createDirectories (Path.parent (d.filePath q)))
  rcases store_cases q bytes d with ⟨hfail, hstate⟩ | ⟨hok, t, l, hwrite, hstore⟩
  · rw [hstate]
    exact ⟨[], by rwa [List.append_nil], .inr ⟨hfail, rfl⟩⟩
  · rw [hstore]
    have hstored : FileTree.Stored (d.filePath q) bytes := ⟨d.tree, hok, by rw [hwrite]; rfl⟩
    exact ⟨[(q, bytes)], onDisk_stored hmade hwrite hstored hbytes, .inl ⟨rfl, bytes, rfl⟩⟩

/-- A record that was tried is written, or its status says that it was not. -/
theorem onDisk_writeRecord (h : OnDisk t₀ run d W) {q : Queued ε} (hq : q.content.Sound) (e : ε) :
    ∃ W', OnDisk t₀ run (d.writeRecord q e).1.2 (W ++ W') ∧ Wrote q (d.writeRecord q e).1.1 W' := by
  rw [writeRecord_run]
  cases hmarshal : (q.content.marshal e).1 with
  | error st => exact ⟨[], by rwa [List.append_nil], .inr ⟨hq e st hmarshal, rfl⟩⟩
  | ok bytes => exact onDisk_store h ⟨e, hmarshal⟩

/-! ## Flushing -/

/-- The records that were tried and could be written. -/
def written (tried : List (Queued ε × Status)) : List (Queued ε) :=
  (tried.filter fun x => x.2.isOk).map Prod.fst

/-- Only what was tried is written. -/
theorem written_subset {tried : List (Queued ε × Status)} : written tried ⊆ tried.map Prod.fst :=
  (List.filter_sublist.map Prod.fst).subset

theorem Wrote.written {q : Queued ε} {st : Status} {W' : List (Queued ε × Bytes)}
    (h : Wrote q st W') : W'.map Prod.fst = written [(q, st)] := by
  rcases h with ⟨hst, bytes, rfl⟩ | ⟨hst, rfl⟩
  · simp [RunDirectory.written, hst]
  · simp [RunDirectory.written, hst]

theorem written_append (l l' : List (Queued ε × Status)) :
    written (l ++ l') = written l ++ written l' := by
  simp [written]

variable (env) in
/-- What was tried and could be written is on disk. -/
theorem onDisk_flushQueue (h : OnDisk t₀ run d W) {qs : List (Queued ε)}
    (hqs : ∀ q ∈ qs, q.content.Sound) (e : ε) :
    ∃ W', OnDisk t₀ run (flushQueue env qs d e).1.2 (W ++ W') ∧
      W'.map Prod.fst = written (flushQueue env qs d e).1.1.tried := by
  have hrun := flushQueue_induct env (d := d)
    (P := fun d' done => ∃ W', OnDisk t₀ run d' (W ++ W') ∧ W'.map Prod.fst = written done)
    qs [] (fun q hq d' done e' => ?_) ⟨[], by rwa [List.append_nil], rfl⟩ e
  · simpa only [List.nil_append] using hrun
  · rintro ⟨W', hdisk, hwritten⟩
    obtain ⟨W'', hdisk', hwrote⟩ := onDisk_writeRecord hdisk (hqs q hq) e'
    refine ⟨W' ++ W'', by rwa [← List.append_assoc], ?_⟩
    rw [List.map_append, hwritten, hwrote.written, written_append]

/-- Everything written to the manifest goes to its file. -/
theorem onDisk_flushManifest (h : OnDisk t₀ run d W) :
    OnDisk t₀ run d.flushManifest W ∧
      (d.Spared (W.map Prod.fst) →
        d.flushManifest.tree.readFile? d.manifestPath = some (manifestText run W)) := by
  obtain ⟨m, hm, hlocation, hholds⟩ := h.manifest
  have hmoves := m.moves_flush d.tree
  have hplaced := h.placed.touched hmoves.extended
    fun l hl => hmoves.elsewhere l (hlocation ▸ hl)
  rw [flushManifest_some hm]
  refine ⟨⟨h.runDir, h.manifestPath, hplaced, h.stored, h.marshalled, _, rfl,
    hmoves.location.trans hlocation,
    fun hspared => Manifest.holds_flush (hholds hspared)⟩, fun hspared => ?_⟩
  have hfile := (Manifest.holds_flush (hholds hspared)).file (m.flush_buffer d.tree)
  rw [hmoves.location, hlocation] at hfile
  exact FileTree.readFile?_of_at? hplaced.resolved hfile

variable (env) in
/-- A flush adds the records that it tried and could write, and then the manifest is in its
file. -/
theorem onDisk_flush (h : OnDisk t₀ run d W) (hopen : d.isOpen = true)
    (hqs : ∀ q ∈ d.pending, q.content.Sound) (e : ε) :
    ∃ W', OnDisk t₀ run (d.flush env e).1.2 (W ++ W') ∧
      W'.map Prod.fst = written (d.attempt env e).tried ∧
      ((d.flush env e).1.2.Spared ((W ++ W').map Prod.fst) →
        (d.flush env e).1.2.tree.readFile? (d.flush env e).1.2.manifestPath =
          some (manifestText run (W ++ W'))) := by
  obtain ⟨W', hdisk, hwritten⟩ := onDisk_flushQueue env h hqs e
  obtain ⟨hflushed, hread⟩ := onDisk_flushManifest hdisk
  rw [flush_open hopen, attempt, if_pos hopen]
  have hsame := sameRun_flushManifest (flushQueue env d.pending d e).1.2
  refine ⟨W', hflushed.queue _ _, hwritten, fun hspared => ?_⟩
  show (flushQueue env d.pending d e).1.2.flushManifest.tree.readFile?
    (flushQueue env d.pending d e).1.2.flushManifest.manifestPath = _
  rw [hsame.manifestPath]
  refine hread fun q hq => ?_
  have hne := hspared q hq
  show Path.locate _ ≠ Path.locate _
  rw [← hsame.manifestPath, ← hsame.filePath]
  exact hne

/-! ## Opening -/

/-- What is there after pruning was there before. -/
theorem at?_of_pruned (d : RunDirectory ε) (outDir : Bytes) {l : Location} {e : Entry}
    (h : (d.pruned outDir).at? l = some e) : d.tree.at? l = some e := by
  unfold pruned pruning at h
  split at h
  · exact h
  · split at h
    · exact FileTree.at?_of_prune h
    · exact h

/-- What opening a run has done when it succeeded : the directory was made, old runs were
pruned, and the manifest was started. -/
theorem begin_ok (h : (d.begin run).1.isOk = true) :
    let runDir := Path.join run.outDir (RunName.ofTime run.startedAt)
    let manifestPath := Path.join runDir "manifest.jsonl"
    let made := d.tree.createDirectories runDir
    made.2 = none ∧ ∃ t l,
      (pruned run.outDir { d with runDir, manifestPath, tree := made.1 }).writeFile
        manifestPath [] = some (t, l) ∧
      (d.begin run).2 = RunDirectory.writeLine (Manifest.header run)
        { d with runDir, manifestPath, tree := t, manifest := some { location := l } } := by
  intro runDir manifestPath made
  have hmade : d.tree.createDirectories runDir = made := rfl
  have hdir : Path.join run.outDir (RunName.ofTime run.startedAt) = runDir := rfl
  have hpath : Path.join runDir "manifest.jsonl" = manifestPath := rfl
  clear_value made manifestPath runDir
  unfold begin at h ⊢
  dsimp only at h ⊢
  rw [hdir, hpath, hmade] at h ⊢
  obtain ⟨t, _ | why⟩ := made
  · dsimp only at h ⊢
    cases hwrite : (pruned run.outDir { d with runDir, manifestPath, tree := t }).writeFile
      manifestPath [] with
    | none =>
      rw [hwrite] at h
      exact absurd h Bool.false_ne_true
    | some r => exact ⟨rfl, r.1, r.2, rfl, rfl⟩
  · exact absurd h Bool.false_ne_true

/-- A run that was opened has written the line of the run and nothing else. -/
theorem onDisk_begin (h : (d.begin run).1.isOk = true) :
    OnDisk d.tree run (d.begin run).2 [] := by
  have hsame := d.tree.sameFiles_createDirectories
    (Path.join run.outDir (RunName.ofTime run.startedAt))
  obtain ⟨-, t, l, hwrite, hbegin⟩ := begin_ok h
  have hold := fun l' s => at?_of_pruned (l := l') (e := .file s) { d with
    runDir := Path.join run.outDir (RunName.ofTime run.startedAt)
    manifestPath := Path.join (Path.join run.outDir (RunName.ofTime run.startedAt)) "manifest.jsonl"
    tree := (d.tree.createDirectories (Path.join run.outDir (RunName.ofTime run.startedAt))).1 }
    run.outDir
  generalize RunDirectory.pruned _ _ = cleared at hwrite hold
  obtain ⟨hresolve, hdir, rfl⟩ := FileTree.writeFile_eq_some hwrite
  obtain rfl := FileTree.resolve_eq_locate hresolve
  rw [hbegin]
  generalize hpath : Path.join (Path.join run.outDir (RunName.ofTime run.startedAt))
    "manifest.jsonl" = path at hresolve hdir ⊢
  have hmoves := Manifest.moves_writeLine { location := Path.locate path } (Manifest.header run)
    (cleared.put (Path.locate path) (.file []))
  have hself := FileTree.at?_put_self (FileTree.isAbove_eq_false hdir) cleared (.file [])
  have hstart : FileTree.Placed d.tree (cleared.put (Path.locate path) (.file [])) path [] := by
    refine ⟨(FileTree.Extends.put hdir).resolve hresolve, ⟨[], hself⟩, by simp, by simp,
      fun l s hl => ?_⟩
    by_cases hplace : l = Path.locate path
    · exact .inr (.inl hplace)
    · rw [FileTree.at?_put_of_ne hplace] at hl
      exact .inl ⟨s, (hsame.files l s).1 (hold l s hl)⟩
  have hholds : Manifest.Holds { location := Path.locate path }
      (cleared.put (Path.locate path) (.file [])) [] := ⟨[], hself, rfl, rfl⟩
  rw [writeLine_some rfl]
  refine ⟨rfl, hpath.symm, hstart.touched hmoves.extended hmoves.elsewhere, by simp, by simp, _,
    rfl, hmoves.location, fun _ => ?_⟩
  rw [manifestText_nil]
  exact Manifest.holds_writeLine hholds (Manifest.header run)

end RunDirectory

end ClusterEvidence
