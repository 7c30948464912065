import ClusterEvidence.Proofs.Gather.Records
import ClusterEvidence.Proofs.Run.Accounting
import ClusterEvidence.Proofs.Run.Runner

/-!
# Runs that succeed are complete on disk

A run that is started on a new directory, whose batch runs through and which succeeds has
left in its directory exactly what the batch produced (`runOnce_complete`) : the manifest
has the line of the run, then one line for each record in the order of production, the
report being last, and each record has a file of its own with its bytes, of which the line
gives the fingerprint and the size. There is no other file.

The names of the resources may be hostile. Names that are unsafe or taken are refused, so
the run does not succeed; a name that is safe leads below the run directory, part by part,
and different names to different files. Only a zero byte could do harm, and then only in
the last part of a name : in other parts it makes the run fail.
-/

namespace ClusterEvidence

variable {ε : Type}

/-! ## Marshalling plain records -/

theorem Record.Plain.marshal_keeps {I : ε → Prop} {q : Queued ε} (h : q.record.Plain) :
    Keeps I (fun _ => True) q.content.marshal := by
  intro e he
  obtain ⟨c, hc, ⟨bytes, hbytes⟩, -⟩ := h.item
  obtain rfl : q.content = c := Option.some.inj hc
  rw [hbytes]
  exact ⟨trivial, he⟩

/-- A plain record is a sound request. -/
theorem Record.Plain.sound {r : Record ε} (h : r.Plain) :
    (RunDirectory.Request.record r).Sound := by
  intro c hc
  obtain ⟨c', hc', ⟨bytes, hbytes⟩, -⟩ := h.item
  obtain rfl : c' = c := Option.some.inj (hc'.symm.trans hc)
  exact .of_ok fun e => ⟨bytes, by rw [hbytes]⟩

namespace RunDirectory

variable {env : Surroundings ε} {t₀ : FileTree} {run : RunInfo} {d : RunDirectory ε}
  {W : List (Queued ε × Bytes)}

/-! ## What is complete -/

/-- The file of a record, seen from the run directory. -/
def relativePath (q : Queued ε) : Bytes := RecordName.fileName q.name q.content.ext

/-- The run directory holds the manifest with the lines of these records, each with its
bytes, a file of its own for each of them, and no other file. -/
structure CompleteOnDisk (d : RunDirectory ε) (run : RunInfo) (W : List (Queued ε × Bytes)) :
    Prop where
  marshalled : ∀ w ∈ W, w.1.content.Has w.2
  distinct : (W.map fun w => relativePath w.1).Nodup
  manifest : d.tree.readFile? (Path.join d.runDir "manifest.jsonl") =
    some (Manifest.linesText ((Manifest.header run).render :: W.map fun w =>
      (Manifest.recordLine w.1.name w.1.captured (Fnv.fingerprint w.2) w.2).render))
  files : ∀ w ∈ W, d.tree.readFile? (Path.join d.runDir (relativePath w.1)) = some w.2
  only : ∀ l s, d.tree.at? (Path.locate d.runDir ++ l) = some (.file s) →
    l = ["manifest.jsonl"] ∨ ∃ w ∈ W, l = Path.parts (relativePath w.1)

/-! ## Files of plain records -/

theorem relativePath_json {q : Queued ε} (h : q.content.ext = "json") :
    relativePath q = q.name ++ ".json" := by
  rw [relativePath, RecordName.fileName, h, if_neg (by decide), List.append_assoc]
  rfl

theorem relativePath_raw {q : Queued ε} (h : q.content.ext = []) : relativePath q = q.name := by
  rw [relativePath, RecordName.fileName, h]
  rfl

theorem parts_below_last (dir : Bytes) {s : Bytes} (hs : Path.slash ∉ s) :
    Path.parts (Path.below dir s) = Path.parts dir ++ [s] := by
  rw [Path.parts_below]
  exact congrArg (Path.parts dir ++ ·) (Bytes.pieces_of_notMem hs)

/-- A name in a directory is safe if the directory and the last part are. -/
theorem safe_below_last {dir s : Bytes} (hs : Path.slash ∉ s) :
    RecordName.Safe (Path.below dir s) ↔ RecordName.Safe dir ∧ RecordName.SafePart s := by
  rw [RecordName.Safe, parts_below_last dir hs, List.forall_mem_append, List.forall_mem_singleton]
  rfl

/-- The file of a plain record has a last part without zero bytes, in a directory of safe
parts. -/
theorem relativePath_of_plain {q : Queued ε} (hplain : q.record.Plain)
    (hsafe : RecordName.Safe q.name) :
    ∃ dir s, relativePath q = Path.below dir s ∧ RecordName.Safe dir ∧ RecordName.SafePart s ∧
      Path.slash ∉ s ∧ (0 : UInt8) ∉ s := by
  obtain ⟨dir, s, hname, hslash, hnul⟩ := hplain.last
  obtain ⟨c, hc, -, hext⟩ := hplain.item
  obtain rfl : q.content = c := Option.some.inj hc
  change q.name = _ at hname
  rw [hname, safe_below_last hslash] at hsafe
  rcases hext with hext | ⟨hext, -⟩
  · have hlong : 5 ≤ (s ++ (".json" : Bytes)).length := by
      rw [List.length_append, show (".json" : Bytes).length = 5 from rfl]
      omega
    refine ⟨dir, s ++ ".json", ?_, hsafe.1, ⟨?_, fun h => ?_, fun h => ?_⟩, ?_, ?_⟩
    · rw [relativePath_json hext, hname, Path.below, Path.below, List.append_assoc,
        List.cons_append]
    · exact List.append_ne_nil_of_right_ne_nil _ (by decide)
    · rw [h] at hlong
      exact absurd hlong (by decide)
    · rw [h] at hlong
      exact absurd hlong (by decide)
    · rw [List.mem_append, not_or]
      exact ⟨hslash, by decide⟩
    · rw [List.mem_append, not_or]
      exact ⟨hnul, by decide⟩
  · exact ⟨dir, s, (relativePath_raw hext).trans hname, hsafe.1, hsafe.2, hslash, hnul⟩

/-- Plain records of different names have different files. -/
theorem relativePath_inj {q q' : Queued ε} (h : q.record.Plain) (h' : q'.record.Plain)
    (heq : relativePath q = relativePath q') : q.name = q'.name := by
  obtain ⟨c, hc, -, hext⟩ := h.item
  obtain ⟨c', hc', -, hext'⟩ := h'.item
  obtain rfl : q.content = c := Option.some.inj hc
  obtain rfl : q'.content = c' := Option.some.inj hc'
  have hend : ∀ name : Bytes, name ++ ".json" ≠ "config/id" := fun name h =>
    absurd (congrArg List.getLast? h) (by
      rw [List.getLast?_append_of_ne_nil _ (by decide)]
      decide)
  rcases hext with hext | ⟨hext, hid⟩ <;> rcases hext' with hext' | ⟨hext', hid'⟩
  · rw [relativePath_json hext, relativePath_json hext'] at heq
    exact List.append_cancel_right heq
  · rw [relativePath_json hext, relativePath_raw hext'] at heq
    exact absurd (heq.trans hid') (hend _)
  · rw [relativePath_raw hext, relativePath_json hext'] at heq
    exact absurd (heq.symm.trans hid) (hend _)
  · exact hid.trans hid'.symm

/-! ## Below the run directory -/

theorem runDir_eq (h : OnDisk t₀ run d W) :
    d.runDir ≠ [] ∧ d.runDir.getLast? ≠ some Path.slash := by
  obtain ⟨hne, hslash, -⟩ := Path.join_ofTime run.outDir run.startedAt
  rw [h.runDir]
  exact ⟨hne, hslash⟩

/-- A plain record that was written has no zero byte in its path, and stands below the run
directory, part by part. -/
theorem filePath_of_plain (h : OnDisk t₀ run d W) {w : Queued ε × Bytes} (hw : w ∈ W)
    (hplain : w.1.record.Plain) (hsafe : RecordName.Safe w.1.name) :
    (0 : UInt8) ∉ d.runDir ∧
      Path.locate (d.filePath w.1) = Path.locate d.runDir ++ Path.parts (relativePath w.1) ∧
      1 < (Path.parts (relativePath w.1)).length := by
  obtain ⟨hrunDir, hslash⟩ := runDir_eq h
  obtain ⟨dir, s, hfile, hdir, hs, hlast, hnul⟩ := relativePath_of_plain hplain hsafe
  have hdirLast := hdir _ (Path.fileName_mem_parts dir)
  have hsafeFile : RecordName.Safe (relativePath w.1) := by
    rw [hfile, safe_below_last hlast]
    exact ⟨hdir, hs⟩
  have hjoin : d.filePath w.1 = Path.below d.runDir (relativePath w.1) :=
    Path.join_eq_below hrunDir hslash hsafeFile.head?_ne_slash
  have hpath : d.filePath w.1 = Path.below (Path.below d.runDir dir) s := by
    rw [hjoin, hfile]
    simp [Path.below]
  have hstored := h.stored w hw
  rw [hpath] at hstored
  have hclean := FileTree.nul_notMem_of_stored hstored (by simp [Path.below])
    (Path.getLast?_ne_slash (by rw [Path.fileName_below_eq]; exact hdirLast.1))
    (by rw [Path.fileName_below_eq]; exact hdirLast.2.1)
    (by rw [Path.fileName_below_eq]; exact hdirLast.2.2) hlast
  rw [Path.below, List.mem_append, List.mem_cons, not_or, not_or] at hclean
  have hnul' : (0 : UInt8) ∉ relativePath w.1 := by
    rw [hfile, Path.below, List.mem_append, List.mem_cons, not_or, not_or]
    exact ⟨hclean.2.2, by decide, hnul⟩
  refine ⟨hclean.1, Path.locate_join_of_safe hrunDir hslash hclean.1 hnul' hsafeFile, ?_⟩
  rw [hfile, parts_below_last dir hlast, List.length_append, List.length_singleton]
  have hpos : 0 < (Path.parts dir).length := List.length_pos_iff.2 (Bytes.pieces_ne_nil _ dir)
  omega

/-- The manifest is in its directory. -/
theorem locate_join_manifest {dir : Bytes} (hdir : dir ≠ [])
    (hslash : dir.getLast? ≠ some Path.slash) (hnul : (0 : UInt8) ∉ dir) :
    Path.locate (Path.join dir "manifest.jsonl") = Path.locate dir ++ [("manifest.jsonl" : Bytes)] :=
  Path.locate_join_of_safe hdir hslash hnul (by decide) ((RecordName.isSafe_iff _).1 (by decide))

/-- The location of the manifest. -/
theorem locate_manifestPath (h : OnDisk t₀ run d W) (hnul : (0 : UInt8) ∉ d.runDir) :
    Path.locate d.manifestPath = Path.locate d.runDir ++ [("manifest.jsonl" : Bytes)] := by
  obtain ⟨hrunDir, hslash⟩ := runDir_eq h
  rw [h.manifestPath, locate_join_manifest hrunDir hslash hnul]

/-- A plain record is written in a directory, so not over the manifest. -/
theorem filePath_ne_manifestPath (h : OnDisk t₀ run d W) {w : Queued ε × Bytes} (hw : w ∈ W)
    (hplain : w.1.record.Plain) (hsafe : RecordName.Safe w.1.name) :
    Path.locate (d.filePath w.1) ≠ Path.locate d.manifestPath := by
  obtain ⟨hnul, hpath, hlen⟩ := filePath_of_plain h hw hplain hsafe
  rw [hpath, locate_manifestPath h hnul]
  intro heq
  rw [List.append_cancel_left heq] at hlen
  exact absurd hlen (by decide)

/-! ## Complete on disk -/

/-- What was written of plain records of different safe names, into a directory that was
new, is complete. -/
theorem completeOnDisk (h : OnDisk t₀ run d W) (hW : W ≠ [])
    (hplain : ∀ w ∈ W, w.1.record.Plain) (hsafe : ∀ w ∈ W, RecordName.Safe w.1.name)
    (hdistinct : (W.map fun w => w.1.name).Nodup)
    (hread : d.Spared (W.map Prod.fst) →
      d.tree.readFile? d.manifestPath = some (manifestText run W))
    (hnew : ∀ l, t₀.at? (Path.locate d.runDir ++ l) = none) : CompleteOnDisk d run W := by
  have hpath := fun w hw => filePath_of_plain h hw (hplain w hw) (hsafe w hw)
  obtain ⟨w₀, hw₀⟩ := List.exists_mem_of_ne_nil W hW
  have hmanifest := locate_manifestPath h (hpath w₀ hw₀).1
  have hspared : ∀ w ∈ W, Path.locate (d.filePath w.1) ≠ Path.locate d.manifestPath :=
    fun w hw => filePath_ne_manifestPath h hw (hplain w hw) (hsafe w hw)
  have hinj : ∀ w ∈ W, ∀ w' ∈ W, relativePath w.1 = relativePath w'.1 → w = w' := by
    intro w hw w' hw' heq
    exact List.inj_on_of_nodup_map hdistinct hw hw'
      (relativePath_inj (hplain w hw) (hplain w' hw') heq)
  refine ⟨fun w hw => ?_, ?_, ?_, fun w hw => ?_, fun l s hl => ?_⟩
  · obtain ⟨e, he⟩ := h.marshalled w hw
    obtain ⟨c, hc, ⟨bytes, hbytes⟩, -⟩ := (hplain w hw).item
    obtain rfl : w.1.content = c := Option.some.inj hc
    rw [hbytes e] at he
    obtain rfl := Except.ok.inj he
    exact hbytes
  · exact (List.nodup_map_iff_inj_on (hdistinct.of_map _)).2 hinj
  · have hlines : W.map line = W.map fun w =>
        (Manifest.recordLine w.1.name w.1.captured (Fnv.fingerprint w.2) w.2).render := by
      refine List.map_congr_left fun w hw => ?_
      have hfingerprint : w.1.fingerprint = [] := (hplain w hw).fingerprint
      rw [line, hfingerprint, Manifest.recordLine_fingerprint]
    rw [← h.manifestPath, hread (List.forall_mem_map.2 hspared), manifestText, hlines]
  · have hmem := List.mem_map_of_mem (f := fun w => (d.filePath w.1, w.2)) hw
    obtain ⟨s, hs, hplace⟩ := h.placed.files _ hmem
    rcases hplace with hplace | ⟨x, hx, hlocate, rfl⟩
    · exact absurd hplace (hspared w hw)
    · obtain ⟨w', hw', rfl⟩ := List.mem_map.1 hx
      rw [(hpath w hw).2.1, (hpath w' hw').2.1] at hlocate
      obtain rfl := hinj w' hw' w hw (Bytes.eq_of_pieces_eq (List.append_cancel_left hlocate))
      exact FileTree.readFile?_of_at? (h.placed.reached _ hmem) hs
  · rcases h.placed.only _ s hl with ⟨s₀, hs₀⟩ | hplace | ⟨x, hx, hplace⟩
    · rw [hnew] at hs₀
      cases hs₀
    · rw [hmanifest] at hplace
      exact .inl (List.append_cancel_left hplace)
    · obtain ⟨w, hw, rfl⟩ := List.mem_map.1 hx
      rw [(hpath w hw).2.1] at hplace
      exact .inr ⟨w, hw, List.append_cancel_left hplace⟩

/-! ## While a batch runs -/

/-- The records that were taken. -/
def taken (h : List (Record ε × Status)) : List (Record ε) :=
  (h.filter fun x => x.2.isOk).map Prod.fst

/-- An open run into which the records of these handovers went, those that were taken. -/
structure Gathered (I : ε → Prop) (t₀ : FileTree) (run : RunInfo) (h : List (Record ε × Status))
    (s : RunDirectory ε × ε) : Prop where
  calm : I s.2
  plain : ∀ x ∈ h, x.1.Plain
  queued : ∃ j, Running t₀ run s.1 j ∧ j.flushes = [] ∧ j.accepted.map Queued.record = taken h

theorem taken_concat (h : List (Record ε × Status)) (r : Record ε) (st : Status) :
    taken (h ++ [(r, st)]) = taken h ++ if st.isOk then [r] else [] := by
  cases hst : st.isOk with
  | true => simp [taken, hst]
  | false => simp [taken, hst]

/-- Where nothing was refused, all has been taken. -/
theorem taken_of_ok {h : List (Record ε × Status)} (hok : ∀ x ∈ h, x.2.isOk = true) :
    taken h = h.map Prod.fst := by
  rw [taken, List.filter_eq_self.2 hok]

/-- Handing over one more record. -/
theorem gathered_record {I : ε → Prop} {h : List (Record ε × Status)} {s : RunDirectory ε × ε}
    (hs : Gathered I t₀ run h s) {r : Record ε} (hr : r.Plain) :
    Gathered I t₀ run (h ++ [(r, (s.1.record r).1)]) ((s.1.record r).2, s.2) := by
  obtain ⟨j, hrunning, hflushes, haccepted⟩ := hs.queued
  refine ⟨hs.calm, fun x hx => ?_, _, running_record hrunning hr.sound, hflushes, ?_⟩
  · rcases List.mem_append.1 hx with hx | hx
    · exact hs.plain x hx
    · obtain rfl := List.mem_singleton.1 hx
      exact hr
  · rw [taken_concat, List.map_append, haccepted]
    cases hq : s.1.accept r with
    | error why =>
      rw [record_of_error hq]
      rfl
    | ok q =>
      obtain ⟨-, -, -, rfl⟩ := (accept_ok_iff r q).1 hq
      rw [record_of_ok hq]
      rfl

/-- What keeps `I` leaves the recorder alone. -/
theorem gathered_keeps {I : ε → Prop} {α : Type} {Q : α → Prop} {x : StateM ε α}
    (hx : Keeps I Q x) (h : List (Record ε × Status)) (d : RunDirectory ε) :
    Keeps (fun e => Gathered I t₀ run h (d, e)) Q x := by
  intro e he
  obtain ⟨hq, he'⟩ := hx e he.calm
  exact ⟨hq, he', he.plain, he.queued⟩

/-- Clocks and messages leave what was gathered so far. -/
theorem gathered_steady {I : ε → Prop} (henv : env.Steady I) (h : List (Record ε × Status)) :
    (env.beside (RunDirectory ε)).Steady (Gathered I t₀ run h) :=
  .beside fun d => ⟨gathered_keeps henv.cancelled h d,
    fun l text => gathered_keeps (henv.note l text) h d, gathered_keeps henv.wallClock h d,
    gathered_keeps henv.stopwatch h d⟩

theorem gathered_source {I : ε → Prop} {src : Source ε} (hsrc : src.Plain I)
    (h : List (Record ε × Status)) :
    (src.beside (RunDirectory ε)).Plain (Gathered I t₀ run h) :=
  .beside fun d => ⟨gathered_keeps hsrc.operators h d, gathered_keeps hsrc.nodes h d,
    fun ns => gathered_keeps (hsrc.pods ns) h d, fun k name => gathered_keeps (hsrc.get k name) h d⟩

/-- A batch leaves in the queue what was taken of its records. -/
theorem gathered_gather {I : ε → Prop} (henv : env.Steady I) {src : Source ε} (hsrc : src.Plain I)
    (a : Anonymizer) (options : GatherOptions) (ns : Bytes) (c : VersionCache)
    {s : RunDirectory ε × ε} (hs : Gathered I t₀ run [] s) :
    let g : Gatherer := ⟨some a, options⟩
    Gathered I t₀ run
      (BatchEvent.handovers (g.trace (env.beside _) (src.beside _) (recorder env).record ns (c, s)))
      (g.gather (env.beside _) (src.beside _) (recorder env).record ns (c, s)).2.2 := by
  intro g
  exact collect_handovers (P := Record.Plain)
    (J := fun h (s : VersionCache × _) => Gathered I t₀ run h s.2)
    (fun h => .beside fun _ => gathered_steady henv h)
    (fun r h s hr hs => gathered_record hs hr) (Record.plain_report ns)
    (fun x hx h =>
      Gatherer.routines_plain rfl (gathered_steady henv h) (gathered_source hsrc h) x hx)
    hs

/-! ## The flush at the end -/

/-- A flush that succeeds while the flag is not raised has tried the whole queue and written
all of it. -/
theorem written_of_flush_ok {I : ε → Prop}
    (hlowered : Keeps I (fun raised => raised = false) env.cancelled) (hopen : d.isOpen = true)
    (hmarshal : ∀ q ∈ d.pending, Keeps I (fun _ => True) q.content.marshal) {e : ε} (he : I e)
    (hok : (d.flush env e).1.1.isOk = true) : written (d.attempt env e).tried = d.pending := by
  have hsplit := attempt_split env d e
  have hleft : (d.attempt env e).left = [] := by
    rw [attempt, if_pos hopen]
    exact flushQueue_left hlowered hmarshal d he
  rw [hleft, List.append_nil] at hsplit
  rw [written, List.filter_eq_self.2 (tried_of_flush_ok hok), hsplit]

/-- A flush that succeeds while the flag is not raised leaves on disk all that was taken. -/
theorem gathered_flush {I : ε → Prop}
    (hlowered : Keeps I (fun raised => raised = false) env.cancelled)
    {h : List (Record ε × Status)} {s : RunDirectory ε × ε} (hs : Gathered I t₀ run h s)
    (hok : (s.1.flush env s.2).1.1.isOk = true) (htaken : taken h ≠ [])
    (hnew : ∀ l, t₀.at? (Path.locate (Path.join run.outDir (RunName.ofTime run.startedAt)) ++ l) =
      none) :
    ∃ W, W.map (fun w => w.1.record) = taken h ∧
      (s.1.flush env s.2).1.2.runDir = Path.join run.outDir (RunName.ofTime run.startedAt) ∧
      CompleteOnDisk (s.1.flush env s.2).1.2 run W := by
  obtain ⟨d, e⟩ := s
  obtain ⟨j, hrunning, hflushes, haccepted⟩ := hs.queued
  dsimp only at hrunning hok ⊢
  have htried : j.tried = [] := by rw [Journal.tried, hflushes]; rfl
  have hqueue : j.accepted = d.pending := by
    rw [hrunning.consistent.order, htried, hrunning.consistent.kept hrunning.isOpen]
    rfl
  have hplain : ∀ q ∈ d.pending, q.record.Plain := by
    intro q hq
    have hmem : q.record ∈ taken h := haccepted ▸ List.mem_map_of_mem (hqueue ▸ hq)
    obtain ⟨x, hx, hrecord⟩ := List.mem_map.1 hmem
    exact hrecord ▸ hs.plain x (List.mem_filter.1 hx).1
  have hall : written (d.attempt env e).tried = d.pending :=
    written_of_flush_ok hlowered hrunning.isOpen (fun q hq => (hplain q hq).marshal_keeps) hs.calm
      hok
  obtain ⟨W₀, hdisk, hW₀⟩ := hrunning.onDisk
  obtain rfl : W₀ = [] := by
    rw [htried] at hW₀
    exact List.map_eq_nil_iff.1 hW₀
  obtain ⟨W, hdisk', hW, hread⟩ := onDisk_flush env hdisk hrunning.isOpen hrunning.sound e
  rw [List.nil_append] at hdisk' hread
  rw [hall, ← hqueue] at hW
  have hmem : ∀ w ∈ W, w.1 ∈ j.accepted := fun w hw => hW ▸ List.mem_map_of_mem hw
  have hrecords : W.map (fun w => w.1.record) = taken h := by
    rw [← haccepted, ← hW, List.map_map]
    rfl
  refine ⟨W, hrecords, hdisk'.runDir, completeOnDisk hdisk' ?_
    (fun w hw => hplain w.1 (hqueue ▸ hmem w hw))
    (fun w hw => hrunning.consistent.safe w.1 (hmem w hw)) ?_ hread ?_⟩
  · rintro rfl
    exact htaken hrecords.symm
  · have hdistinct := hrunning.consistent.distinct
    rwa [← hW, List.map_map] at hdistinct
  · rw [hdisk'.runDir]
    exact hnew

/-! ## Complete runs -/

/-- Closing makes nothing at a new place. -/
theorem close_new {d : RunDirectory ε} {l : Location} (h : d.tree.at? l = none) (e : ε) :
    (d.close env e).1.tree.at? l = none := by
  rw [close_eq]
  show d.flushManifest.tree.at? l = none
  cases hm : d.manifest with
  | none =>
    rw [flushManifest, hm]
    exact h
  | some m =>
    rw [flushManifest_some hm]
    by_cases hl : l = m.location
    · subst hl
      unfold Manifest.flush
      split
      · exact h
      · simp only [FileTree.writeAt, h]
    · exact ((m.moves_flush d.tree).elsewhere l hl).trans h

theorem close_keeps {I : ε → Prop} (henv : env.Steady I) (d : RunDirectory ε) :
    Keeps I (fun _ => True) (d.close env) := by
  intro e he
  show True ∧ I ((if !d.pending.isEmpty then _ else _ : StateM ε (RunDirectory ε)) e).2
  split
  · exact ⟨trivial, (henv.note _ _ e he).2⟩
  · exact ⟨trivial, he⟩

theorem warn_keeps {I : ε → Prop} (henv : env.Steady I) (texts : List Bytes) :
    Keeps I (fun _ => True) (warn env texts) := by
  induction texts with
  | nil => exact .pure trivial
  | cons text rest ih => exact (henv.note _ _).bind fun _ _ => ih

theorem openRun_keeps {I : ε → Prop} (henv : env.Steady I) (run : RunInfo) (d : RunDirectory ε) :
    Keeps I (fun _ => True) (d.openRun env run) := fun e he =>
  ⟨trivial, (warn_keeps henv _ _ (close_keeps henv d e he).2).2⟩

/-- A run that was started is open, and nothing has been handed over. -/
theorem gathered_start {I : ε → Prop} (henv : env.Steady I) {r : Runner} {d : RunDirectory ε}
    {e : ε} (he : I e) :
    let started := r.start (env.beside (RunDirectory ε)) (recorder env) (d, e)
    started.1.1.isOk = true →
    ∃ (run : RunInfo) (e₁ : ε), run.outDir = r.config.output.outDir ∧
      run.configPath = r.configPath ∧ run.configHash = r.configHash ∧
      started.2.1.runDir = Path.join run.outDir (RunName.ofTime run.startedAt) ∧
      Gathered I (d.close env e₁).1.tree run [] started.2 := by
  intro started hok
  obtain ⟨hopen, -, text, hend⟩ := Runner.start_ok hok
  let now := env.wallClock (env.stopwatch e).2
  let run : RunInfo := ⟨r.config.output.outDir, r.configPath, r.configHash, now.1⟩
  have hnow : I now.2 := (henv.wallClock _ (henv.stopwatch e he).2).2
  have hafter : I (d.openRun env run now.2).2 := (openRun_keeps henv run d _ hnow).2
  have hrunning : Running (d.close env now.2).1.tree run (d.openRun env run now.2).1.2 {} :=
    running_openRun hopen
  obtain ⟨W, hdisk, -⟩ := hrunning.onDisk
  refine ⟨run, now.2, rfl, rfl, rfl, ?_, ?_⟩
  · rw [hend]
    exact hdisk.runDir
  · rw [hend]
    exact ⟨(henv.note .info text _ hafter).2, by simp, {}, hrunning, rfl, rfl⟩

/-- A run that starts in a new directory, gathers from a source whose names have no zero
bytes while the cancellation flag is not raised, and succeeds, is complete on disk : its
eleven routines have run, and the run directory holds their records and the report, in
order and byte by byte, and nothing else. -/
theorem runOnce_complete {I : ε → Prop} (henv : env.Steady I)
    (hlowered : Keeps I (fun raised => raised = false) env.cancelled) {src : Source ε}
    (hsrc : src.Plain I) (r : Runner) (d : RunDirectory ε) {e : ε} (he : I e) :
    let started := r.start (env.beside (RunDirectory ε)) (recorder env) (d, e)
    let r' := started.1.2
    let done := r'.runOnce (env.beside (RunDirectory ε)) (recorder env) (src.beside _) started.2
    started.1.1.isOk = true →
    (∀ l, d.tree.at? (Path.locate started.2.1.runDir ++ l) = none) →
    done.1.1.isOk = true →
    ∃ (run : RunInfo) (ran : List (Ran ε)) (report : Record ε) (entries : List ReportEntry)
        (answer : Status) (W : List (Queued ε × Bytes)),
      run.outDir = r.config.output.outDir ∧ run.configPath = r.configPath ∧
      run.configHash = r.configHash ∧
      done.2.1.runDir = Path.join run.outDir (RunName.ofTime run.startedAt) ∧
      r'.gatherer.trace (env.beside (RunDirectory ε)) (src.beside _) (recorder env).record
          r.config.reportNamespace (r'.cache, started.2) =
        ran.flatMap Ran.events ++ [.handed report answer] ∧
      ran.map Ran.name = ["cluster_operators", "nodes", "cluster_version", "cluster_id",
        "infrastructure", "network", "authentication", "feature_gate", "oauth", "ingress",
        "proxy"] ∧
      report.name = r.config.reportNamespace ++ "/gathers" ∧ report.item = some (.report entries) ∧
      W.map (fun w => w.1.record) = (ran.flatMap fun x => x.outcome.records) ++ [report] ∧
      CompleteOnDisk done.2.1 run W := by
  intro started r' done hstart hnew hok
  obtain ⟨run, e₁, houtDir, hpath, hhash, hrunDir, hstarted⟩ := gathered_start henv he hstart
  have hr' : r' = { r with startedAt := (env.stopwatch e).1, started := true } :=
    (Runner.start_ok hstart).2.1
  have hg :
      r'.gatherer = ⟨some (Anonymizer.ofVocabulary r.config.vocabulary), r.config.gather⟩ := by
    rw [hr']
    rfl
  have hns : r'.config.reportNamespace = r.config.reportNamespace := by rw [hr']
  obtain ⟨hgather, hflush, text, hend⟩ := Runner.runOnce_ok hok
  change done.2 = _ at hend
  rw [hns, hg] at hgather hflush hend
  rw [hg]
  obtain ⟨ran, report, entries, answer, htrace, hnames, hreport, hitem, hhanded, htaken⟩ :=
    batchTrace_of_ok _ _ hgather
  have hgathered := gathered_gather henv hsrc (Anonymizer.ofVocabulary r.config.vocabulary)
    r.config.gather r.config.reportNamespace r'.cache hstarted
  have hrecords := (taken_of_ok htaken).trans hhanded
  have hsome := hrecords.trans_ne
    (List.append_ne_nil_of_right_ne_nil _ (List.cons_ne_nil report []))
  obtain ⟨W, hW, hdir, hcomplete⟩ := gathered_flush hlowered hgathered hflush hsome
    (fun l => close_new (hrunDir ▸ hnew l) e₁)
  refine ⟨run, ran, report, entries, answer, W, houtDir, hpath, hhash, ?_, htrace, hnames, hreport,
    hitem, hW.trans hrecords, ?_⟩
  · rw [hend]
    exact hdir
  · rw [hend]
    exact hcomplete

/-- A cluster of one node, which is not ready, with a version. -/
def smallCluster : Source Unit where
  operators := pure (.ok [])
  nodes := pure (.ok
    [{ metadata := { name := "worker-0" }
       conditions := [{ type := "Ready", status := "False" }] }])
  pods := fun _ => pure (.ok [])
  get := fun
    | .clusterVersion, name => pure (.ok { metadata := { name := name }, clusterId := "c-1" })
    | _, name => pure (.error ⟨.notFound, name⟩)

theorem smallCluster_plain : smallCluster.Plain fun _ => True where
  operators := .pure fun l hl o ho => by
    obtain rfl := Except.ok.inj hl
    cases ho
  nodes := .pure fun l hl o ho => by
    obtain rfl := Except.ok.inj hl
    obtain rfl := List.mem_singleton.1 ho
    decide
  pods _ := .pure fun l hl p hp => by
    obtain rfl := Except.ok.inj hl
    cases hp
  get _ _ _ _ := ⟨trivial, trivial⟩

/-- The evidence of the small cluster is complete. -/
theorem runOnce_complete_small :
    let r : Runner := { config := { output := { outDir := "out" } }, configPath := "cfg.yaml" }
    let started := r.start (quiet.beside (RunDirectory Unit)) (recorder quiet) ({}, ())
    let done := started.1.2.runOnce (quiet.beside (RunDirectory Unit)) (recorder quiet)
      (smallCluster.beside _) started.2
    started.1.1.isOk = true ∧ done.1.1.isOk = true ∧ ∃ run W, CompleteOnDisk done.2.1 run W := by
  intro r started done
  have hstart : started.1.1.isOk = true := by decide +kernel
  have hok : done.1.1.isOk = true := by decide +kernel
  have hquiet : quiet.Steady fun _ => True :=
    ⟨.pure trivial, fun _ _ => .pure trivial, .pure trivial, .pure trivial⟩
  have hplace : (Path.locate started.2.1.runDir).all (· == "..") = false := by decide +kernel
  have hnew : ∀ l, ({} : FileTree).at? (Path.locate started.2.1.runDir ++ l) = none := by
    intro l
    simp [FileTree.at?, Path.isAbove, hplace]
  obtain ⟨run, -, -, -, -, W, -, -, -, -, -, -, -, -, -, hcomplete⟩ :=
    runOnce_complete hquiet (.pure rfl) smallCluster_plain r {} trivial hstart hnew hok
  exact ⟨hstart, hok, run, W, hcomplete⟩

end RunDirectory

end ClusterEvidence
