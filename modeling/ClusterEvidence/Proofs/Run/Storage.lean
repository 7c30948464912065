import ClusterEvidence.Proofs.Run.Completeness

/-!
# Where the records of a run are stored

A record is stored under its name and the extension of its content, below the run directory.
The names of the records that a run accepts differ, but names and extensions together may not :
a record `a` of JSON and a record `a.json` without an extension have one file
(`names_share_file`), a record `a/b` cannot be written where a record `a` is, and a record
`manifest.jsonl` is written over the manifest.

The files of two records are apart just when their paths, seen from the run directory, are,
and neither is that of the manifest (`accepted_apart_iff`). A zero byte ends a path for the
system, so what counts is where the path leads. It may end with dots then, and lead to the
directory above at worst.
-/

namespace ClusterEvidence

variable {ε : Type}

/-! ## Paths below a run directory -/

namespace RecordName

/-- A safe part stays safe with an ending. -/
theorem SafePart.append_ending {s : Bytes} (h : SafePart s) (ext : Bytes) :
    SafePart (s ++ 0x2e :: ext) := by
  obtain ⟨hempty, hdot, -⟩ := h
  refine ⟨by simp, fun heq => ?_, fun heq => ?_⟩
  · have hlen := congrArg List.length heq
    simp only [List.length_append, List.length_cons, show (("." : Bytes)).length = 1 from rfl] at hlen
    exact hempty (List.length_eq_zero_iff.1 (by omega))
  · obtain ⟨b, rest, rfl⟩ := List.exists_cons_of_ne_nil hempty
    obtain ⟨rfl, hrest⟩ : b = 0x2e ∧ rest ++ 0x2e :: ext = [0x2e] := List.cons.inj heq
    have hlen := congrArg List.length hrest
    simp only [List.length_append, List.length_cons, List.length_nil] at hlen
    obtain rfl : rest = [] := List.length_eq_zero_iff.1 (by omega)
    exact hdot rfl

/-- A dot and what follows it leave the last part of a safe name safe. -/
theorem Safe.append_ending {name ext : Bytes} (h : Safe name) (hext : Path.slash ∉ ext) :
    Safe (name ++ 0x2e :: ext) := by
  have hending : Path.slash ∉ (0x2e :: ext : Bytes) := by
    rw [List.mem_cons, not_or]
    exact ⟨by decide, hext⟩
  by_cases hname : Path.slash ∈ name
  · obtain ⟨dir, s, rfl, hs⟩ := Path.exists_last_part hname
    rw [RunDirectory.safe_below_last hs] at h
    rw [show Path.below dir s ++ 0x2e :: ext = Path.below dir (s ++ 0x2e :: ext) by
      simp [Path.below], RunDirectory.safe_below_last (by simp [hs, hending])]
    exact ⟨h.1, h.2.append_ending ext⟩
  · rw [Safe, Path.parts, Bytes.pieces_of_notMem hname, List.forall_mem_singleton] at h
    rw [Safe, Path.parts, Bytes.pieces_of_notMem (by simp [hname, hending]),
      List.forall_mem_singleton]
    exact h.append_ending ext

theorem fileName_eq_append {ext : Bytes} (hext : ext ≠ []) (name : Bytes) :
    fileName name ext = name ++ 0x2e :: ext := by
  rw [fileName, if_neg (by simpa using hext), List.append_assoc]
  rfl

/-- An extension without slashes leaves a safe name safe. -/
theorem Safe.fileName {name ext : Bytes} (h : Safe name) (hext : Path.slash ∉ ext) :
    Safe (fileName name ext) := by
  by_cases hempty : ext = []
  · subst hempty
    exact h
  · rw [fileName_eq_append hempty]
    exact h.append_ending hext

/-- The system sees safe parts, and then one that may be cut. -/
theorem Safe.parts_visible {file : Bytes} (h : Safe file) :
    ∃ front s, Path.parts (Path.visible file) = front ++ [s] ∧ ∀ p ∈ front, SafePart p := by
  obtain ⟨front, hfront⟩ := Path.parts_eq_concat (Path.visible file)
  refine ⟨front, _, hfront, fun p hp => h p ?_⟩
  have hprefix : front <+: Path.parts file := by
    have hcut := Bytes.dropLast_pieces_prefix Path.slash (Path.visible file)
      (file.dropWhile (· != 0))
    rwa [show Bytes.pieces Path.slash (Path.visible file) = _ from hfront, List.dropLast_concat,
      Path.visible, List.takeWhile_append_dropWhile] at hcut
  exact hprefix.subset hp

end RecordName

namespace Path

variable {p q s : Bytes} {base here front : List Bytes}

theorem up_concat (h : RecordName.SafePart s) (here : List Bytes) : up (here ++ [s]) = here := by
  obtain ⟨hempty, -, hdots⟩ := h
  have hroot : here ++ [s] ≠ [[]] := fun heq => by
    cases here with
    | nil => exact hempty (List.cons.inj heq).1
    | cons x here => simp at heq
  unfold up
  rw [if_neg hroot, if_neg (by simp [isAbove, hdots]), List.dropLast_concat]

/-- Behind safe parts, only a last part of dots is special. -/
theorem normalize_concat (here : List Bytes) (hfront : ∀ p ∈ front, RecordName.SafePart p)
    (s : Bytes) : normalize here (front ++ [s]) =
      if s = [] ∨ s = "." then here ++ front
      else if s = ".." then up (here ++ front)
      else here ++ front ++ [s] := by
  rw [normalize_append, normalize_of_safe _ hfront]
  rfl

/-- Seen from a directory, a path leads where it leads from the working directory. Only the way
to the directory above is spelled out. -/
theorem normalize_below (hs : RecordName.SafePart q) (hfront : ∀ p ∈ front, RecordName.SafePart p)
    (s : Bytes) : normalize (base ++ [q]) (front ++ [s]) =
      if normalize [] (front ++ [s]) = [".."] then base
      else base ++ [q] ++ normalize [] (front ++ [s]) := by
  have hdown : ∀ l : List Bytes, (∀ p ∈ l, RecordName.SafePart p) → l ≠ [".."] := by
    rintro _ hl rfl
    exact (hl _ (List.mem_singleton_self _)).2.2 rfl
  rw [normalize_concat _ hfront, normalize_concat _ hfront, List.nil_append]
  by_cases hdot : s = [] ∨ s = "."
  · rw [if_pos hdot, if_pos hdot, if_neg (hdown _ hfront)]
  · rw [if_neg hdot, if_neg hdot]
    by_cases hdots : s = ".."
    · rw [if_pos hdots, if_pos hdots]
      rcases List.eq_nil_or_concat front with rfl | ⟨front, p, rfl⟩
      · rw [List.append_nil, up_concat hs]
        rfl
      · rw [List.concat_eq_append, List.forall_mem_append, List.forall_mem_singleton] at hfront
        rw [List.concat_eq_append, ← List.append_assoc, up_concat hfront.2, up_concat hfront.2,
          if_neg (hdown _ hfront.1)]
    · rw [if_neg hdots, if_neg hdots, if_neg, List.append_assoc]
      refine hdown _ (List.forall_mem_append.2 ⟨hfront, ?_⟩)
      rw [not_or] at hdot
      exact List.forall_mem_singleton.2 ⟨hdot.1, hdot.2, hdots⟩

/-! ## Zero bytes -/

theorem locate_congr (h : visible p = visible q) : locate p = locate q := by
  rw [locate, h, locate]

/-- Behind a zero byte nothing is seen. -/
theorem visible_join (hp : (0 : UInt8) ∈ p) (hq : q.head? ≠ some slash) :
    visible (join p q) = visible p := by
  unfold join
  rw [if_neg]
  · split
    · exact visible_append_of_mem hp _
    · exact visible_append_of_mem hp _
  · rw [not_or]
    exact ⟨by simpa [isAbsolute] using hq, by simpa using List.ne_nil_of_mem hp⟩

theorem mem_join {b : UInt8} (hb : b ≠ slash) (h : b ∈ join p q) : b ∈ p ∨ b ∈ q := by
  unfold join at h
  split at h
  · exact .inr h
  · split at h
    · exact List.mem_append.1 h
    · simpa [hb] using h

end Path

namespace FileTree

variable {t : FileTree} {outDir : Bytes}

/-- Removing runs keeps the directory that they are in. -/
theorem at?_removeRuns_self {runs : List (Nat × Bytes)}
    (h : t.at? (Path.locate outDir) = some .directory) :
    (removeRuns outDir runs t).1.at? (Path.locate outDir) = some .directory := by
  induction runs generalizing t with
  | nil => exact h
  | cons run runs ih =>
    rw [removeRuns_cons]
    refine ih ?_
    rcases removeRun_fst outDir run.2 t with hsame | hless
    · rwa [hsame]
    · rw [hless, at?_removeAll]
      split
      · rfl
      · rw [if_neg (fun hprefix => absurd hprefix.length_le (by simp)), h]

/-- Pruning keeps the output directory. -/
theorem at?_prune_self {keep : Nat} {listing : List ListedEntry}
    (h : t.at? (Path.locate outDir) = some .directory) :
    (prune keep outDir listing t).1.at? (Path.locate outDir) = some .directory := by
  unfold prune
  split
  · exact h
  · exact at?_removeRuns_self h

end FileTree

namespace RunDirectory

variable {env : Surroundings ε} {d d' : RunDirectory ε} {run : RunInfo} {j : Journal ε}

/-! ## The paths of an open run -/

/-- The paths of a run that could be opened. -/
structure Housed (d : RunDirectory ε) : Prop where
  runDir : ∃ outDir t, d.runDir = Path.join outDir (RunName.ofTime t)
  nul : (0 : UInt8) ∉ d.runDir
  manifestPath : d.manifestPath = Path.join d.runDir "manifest.jsonl"

theorem Housed.congr (h : Housed d) (hrunDir : d'.runDir = d.runDir)
    (hmanifestPath : d'.manifestPath = d.manifestPath) : Housed d' := by
  obtain ⟨outDir, t, ht⟩ := h.runDir
  exact ⟨⟨outDir, t, hrunDir.trans ht⟩, hrunDir ▸ h.nul,
    by rw [hrunDir, hmanifestPath, h.manifestPath]⟩

theorem Housed.sameRun (h : Housed d) (hsame : SameRun d d') : Housed d' :=
  h.congr hsame.runDir hsame.manifestPath

/-- With a zero byte in the path of the output directory, that of the manifest would lead to
the output directory as well, and could not be written. -/
theorem nul_notMem_of_begin (h : (d.begin run).1.isOk = true) :
    (0 : UInt8) ∉ Path.join run.outDir (RunName.ofTime run.startedAt) := by
  intro hnul
  obtain ⟨hmade, t, l, hwrite, -⟩ := begin_ok h
  obtain ⟨-, hslash, hname⟩ := Path.join_ofTime run.outDir run.startedAt
  obtain ⟨-, hdot, hdots⟩ := RunName.safePart_ofTime run.startedAt
  have hstat := FileTree.stat_createDirectories hmade hslash (by rwa [hname]) (by rwa [hname])
  have hout : (0 : UInt8) ∈ run.outDir :=
    (Path.mem_join (by decide) hnul).resolve_right (RunName.nul_notMem_ofTime _)
  have hhead : (RunName.ofTime run.startedAt).head? ≠ some Path.slash := fun hhead =>
    RunName.slash_notMem_ofTime _ (List.mem_of_mem_head? hhead)
  have hvisible := Path.visible_join hout hhead
  have hmanifest := Path.visible_join (q := "manifest.jsonl") hnul (by decide)
  generalize Path.join run.outDir (RunName.ofTime run.startedAt) = runDir at *
  generalize d.tree.createDirectories runDir = made at *
  unfold FileTree.stat at hstat
  rw [FileTree.resolve_congr hvisible] at hstat
  cases hresolve : made.1.resolve run.outDir with
  | error why =>
    rw [hresolve] at hstat
    cases hstat
  | ok out =>
    have hdirectory : made.1.at? out = some .directory := by
      rw [hresolve] at hstat
      dsimp only at hstat
      split at hstat
      · cases hstat
      · next hat =>
        cases hstat
        exact hat
    obtain ⟨hresolve', hfile, -⟩ := FileTree.writeFile_eq_some hwrite
    obtain rfl : l = out := by
      rw [FileTree.resolve_eq_locate hresolve', FileTree.resolve_eq_locate hresolve]
      exact Path.locate_congr (hmanifest.trans hvisible)
    refine hfile ?_
    unfold pruned pruning
    split
    · exact hdirectory
    · obtain rfl := FileTree.resolve_eq_locate hresolve
      rw [hresolve]
      exact FileTree.at?_prune_self hdirectory

/-- A run that was opened has a place. -/
theorem housed_begin (h : (d.begin run).1.isOk = true) : Housed (d.begin run).2 := by
  have hnul := nul_notMem_of_begin h
  obtain ⟨-, t, l, -, hbegin⟩ := begin_ok h
  rw [hbegin]
  exact Housed.sameRun ⟨⟨run.outDir, run.startedAt, rfl⟩, hnul, rfl⟩ (sameRun_writeLine _ _)

/-- A run that could not be opened is not open. -/
theorem begin_of_open (hclosed : d.isOpen = false) (h : (d.begin run).2.isOpen = true) :
    (d.begin run).1.isOk = true := by
  unfold begin at h ⊢
  dsimp only at h ⊢
  split
  · next t why hmade =>
    rw [hmade] at h
    exact absurd (hclosed.symm.trans h) Bool.false_ne_true
  · next t hmade =>
    rw [hmade] at h
    dsimp only at h ⊢
    split
    · next hwrite =>
      rw [hwrite] at h
      exact absurd (hclosed.symm.trans h) Bool.false_ne_true
    · rfl

/-- Every request leaves a recorder that is open with such paths. -/
theorem Request.serve_housed (q : Request ε) (h : d.isOpen = true → Housed d)
    (hopen : (q.serve env (d, j)).1.isOpen = true) : Housed (q.serve env (d, j)).1 := by
  cases q with
  | openRun run e =>
    have hclosed : (d.close env e).1.isOpen = false := by
      rw [close_eq]
      rfl
    exact housed_begin (begin_of_open hclosed hopen)
  | record r =>
    change (d.record r).2.isOpen = true at hopen
    show Housed (d.record r).2
    cases hr : d.accept r with
    | error why =>
      rw [record_of_error hr] at hopen ⊢
      exact h hopen
    | ok q =>
      rw [record_of_ok hr] at hopen ⊢
      exact (h hopen).congr rfl rfl
  | flush e =>
    change (d.flush env e).1.2.isOpen = true at hopen
    show Housed (d.flush env e).1.2
    cases hd : d.isOpen with
    | false =>
      rw [flush_closed hd] at hopen ⊢
      exact h hopen
    | true =>
      have hsame := (sameRun_flushQueue env d.pending d e).trans (sameRun_flushManifest _)
      rw [flush_open hd]
      exact (h hd).congr hsame.runDir hsame.manifestPath
  | close e =>
    change (d.close env e).1.isOpen = true at hopen
    rw [close_eq] at hopen
    exact absurd hopen Bool.false_ne_true
  | meanwhile t => exact (h hopen).congr rfl rfl

theorem housed_serve (l : List (Request ε)) (h : d.isOpen = true → Housed d)
    (hopen : (serve env l (d, j)).1.isOpen = true) : Housed (serve env l (d, j)).1 := by
  induction l generalizing d j with
  | nil => exact h hopen
  | cons q l ih => exact ih (q.serve_housed h) hopen

/-! ## Files apart -/

/-- Where the file of a record is, as its path leads there from the run directory. -/
def place (q : Queued ε) : Location := Path.locate (relativePath q)

/-- A run directory stands in some directory under a safe name. -/
theorem Housed.locate_runDir (h : Housed d) :
    ∃ base name, Path.locate d.runDir = base ++ [name] ∧ RecordName.SafePart name := by
  obtain ⟨outDir, t, ht⟩ := h.runDir
  obtain ⟨-, -, hname⟩ := Path.join_ofTime outDir t
  rw [← ht] at hname
  have hsafe : RecordName.SafePart (Path.fileName d.runDir) := hname ▸ RunName.safePart_ofTime t
  obtain ⟨base, hbase⟩ := Path.locate_of_safe_last h.nul hsafe
  exact ⟨base, _, hbase, hsafe⟩

theorem Housed.runDir_ne (h : Housed d) :
    d.runDir ≠ [] ∧ d.runDir.getLast? ≠ some Path.slash := by
  obtain ⟨outDir, t, ht⟩ := h.runDir
  obtain ⟨hne, hslash, -⟩ := Path.join_ofTime outDir t
  rw [ht]
  exact ⟨hne, hslash⟩

theorem Housed.locate_manifestPath (h : Housed d) :
    Path.locate d.manifestPath = Path.locate d.runDir ++ [("manifest.jsonl" : Bytes)] := by
  obtain ⟨hne, hslash⟩ := h.runDir_ne
  rw [h.manifestPath, locate_join_manifest hne hslash h.nul]

/-- The file of a record is at its place below the run directory, or is to be at the directory
above. -/
theorem Housed.locate_filePath (h : Housed d) {q : Queued ε} (hname : RecordName.Safe q.name)
    (hext : Path.slash ∉ q.content.ext) {base : Location} {name : Bytes}
    (hbase : Path.locate d.runDir = base ++ [name]) (hsafe : RecordName.SafePart name) :
    Path.locate (d.filePath q) =
      if place q = [".."] then base else Path.locate d.runDir ++ place q := by
  have hfile : RecordName.Safe (relativePath q) := hname.fileName hext
  obtain ⟨hne, hslash⟩ := h.runDir_ne
  obtain ⟨front, s, hparts, hfront⟩ := hfile.parts_visible
  have hplace : place q = Path.normalize [] (front ++ [s]) := by
    rw [place, Path.locate_relative hfile.head?_ne_slash, hparts]
  rw [filePath, ← relativePath, Path.join_eq_below hne hslash hfile.head?_ne_slash,
    Path.locate_below hne h.nul, hparts, hbase, hplace]
  exact Path.normalize_below hsafe hfront s

/-- Neither of two records has its file at or above that of the other, and neither has it at
the manifest. -/
def Apart (d : RunDirectory ε) (q q' : Queued ε) : Prop :=
  ¬ Path.locate (d.filePath q) <+: Path.locate (d.filePath q') ∧
    ¬ Path.locate (d.filePath q') <+: Path.locate (d.filePath q) ∧
    Path.locate (d.filePath q) ≠ Path.locate d.manifestPath ∧
    Path.locate (d.filePath q') ≠ Path.locate d.manifestPath

instance (d : RunDirectory ε) (q q' : Queued ε) : Decidable (d.Apart q q') :=
  inferInstanceAs (Decidable (_ ∧ _ ∧ _ ∧ _))

theorem Housed.apart_iff (h : Housed d) {q q' : Queued ε} (hname : RecordName.Safe q.name)
    (hname' : RecordName.Safe q'.name) (hext : Path.slash ∉ q.content.ext)
    (hext' : Path.slash ∉ q'.content.ext) :
    d.Apart q q' ↔ (place q ≠ [".."] ∧ place q ≠ ["manifest.jsonl"]) ∧
      (place q' ≠ [".."] ∧ place q' ≠ ["manifest.jsonl"]) ∧
      ¬ place q <+: place q' ∧ ¬ place q' <+: place q := by
  obtain ⟨base, name, hbase, hsafe⟩ := h.locate_runDir
  have habove : ∀ p : Location,
      base <+: if p = [".."] then base else Path.locate d.runDir ++ p := by
    intro p
    split
    · exact List.prefix_rfl
    · rw [hbase, List.append_assoc]
      exact List.prefix_append _ _
  rw [Apart, h.locate_filePath hname hext hbase hsafe, h.locate_filePath hname' hext' hbase hsafe,
    h.locate_manifestPath]
  by_cases hq : place q = [".."]
  · rw [if_pos hq]
    exact iff_of_false (fun hapart => hapart.1 (habove _)) (fun hplace => hplace.1.1 hq)
  · by_cases hq' : place q' = [".."]
    · rw [if_pos hq']
      exact iff_of_false (fun hapart => hapart.2.1 (habove _)) (fun hplace => hplace.2.1.1 hq')
    · rw [if_neg hq, if_neg hq', List.prefix_append_right_inj, List.prefix_append_right_inj,
        Ne, Ne, List.append_cancel_left_eq, List.append_cancel_left_eq]
      tauto

/-- A path without zero bytes leads where it says, part by part. -/
theorem place_of_notMem {q : Queued ε} (hname : RecordName.Safe q.name)
    (hext : Path.slash ∉ q.content.ext) (hnul : (0 : UInt8) ∉ relativePath q) :
    place q = Path.parts (relativePath q) :=
  Path.locate_of_safe hnul (hname.fileName hext)

/-- Records of one ending that share a file share the name. -/
theorem name_eq_of_relativePath_eq {q q' : Queued ε} (hext : q.content.ext = q'.content.ext)
    (h : relativePath q = relativePath q') : q.name = q'.name := by
  rw [relativePath, relativePath, RecordName.fileName, RecordName.fileName, hext] at h
  split at h
  · exact h
  · exact List.append_cancel_right (List.append_cancel_right h)

/-- Records of different names and one extension have different files. -/
theorem Housed.locate_filePath_ne (h : Housed d) {q q' : Queued ε}
    (hname : RecordName.Safe q.name) (hname' : RecordName.Safe q'.name)
    (hext : Path.slash ∉ q.content.ext) (hsame : q.content.ext = q'.content.ext)
    (hnul : (0 : UInt8) ∉ relativePath q) (hnul' : (0 : UInt8) ∉ relativePath q')
    (hne : q.name ≠ q'.name) :
    Path.locate (d.filePath q) ≠ Path.locate (d.filePath q') := by
  obtain ⟨base, name, hbase, hsafe⟩ := h.locate_runDir
  have hbelow : ∀ {q : Queued ε}, RecordName.Safe q.name → Path.slash ∉ q.content.ext →
      (0 : UInt8) ∉ relativePath q →
      Path.locate (d.filePath q) = Path.locate d.runDir ++ Path.parts (relativePath q) := by
    intro q hname hext hnul
    have hplace := place_of_notMem hname hext hnul
    rw [h.locate_filePath hname hext hbase hsafe, hplace, if_neg]
    intro hup
    exact (hname.fileName hext _ (hup ▸ List.mem_singleton_self _)).2.2 rfl
  rw [hbelow hname hext hnul, hbelow hname' (hsame ▸ hext) hnul']
  intro heq
  exact hne (name_eq_of_relativePath_eq hsame (Bytes.eq_of_pieces_eq (List.append_cancel_left heq)))

variable (env) in
/-- Which records that an open run has accepted have their files apart : those whose places are
apart, and are neither the manifest nor the directory above. Records of one extension have
different files at least, if no zero byte cuts their paths. -/
theorem accepted_apart_iff (keepLast : Nat) (tree : FileTree) (l : List (Request ε)) :
    let x := serve env l ({ keepLast := keepLast, tree := tree }, {})
    x.1.isOpen = true → ∀ q ∈ x.2.accepted, ∀ q' ∈ x.2.accepted, q ≠ q' →
      Path.slash ∉ q.content.ext → Path.slash ∉ q'.content.ext →
      (x.1.Apart q q' ↔ (place q ≠ [".."] ∧ place q ≠ ["manifest.jsonl"]) ∧
        (place q' ≠ [".."] ∧ place q' ≠ ["manifest.jsonl"]) ∧
        ¬ place q <+: place q' ∧ ¬ place q' <+: place q) ∧
      (q.content.ext = q'.content.ext → (0 : UInt8) ∉ relativePath q →
        (0 : UInt8) ∉ relativePath q' →
        Path.locate (x.1.filePath q) ≠ Path.locate (x.1.filePath q')) := by
  intro x hopen q hq q' hq' hne hext hext'
  have h : Consistent x.1 x.2 := consistent_serve l (consistent_start rfl rfl)
  have hhoused : Housed x.1 := housed_serve l (fun h => absurd h Bool.false_ne_true) hopen
  have hname : q.name ≠ q'.name := fun heq => hne (List.inj_on_of_nodup_map h.distinct hq hq' heq)
  exact ⟨hhoused.apart_iff (h.safe q hq) (h.safe q' hq') hext hext', fun hsame hnul hnul' =>
    hhoused.locate_filePath_ne (h.safe q hq) (h.safe q' hq') hext hsame hnul hnul' hname⟩

/-- Two notes, each with a file of its own. -/
theorem notes_apart :
    let q : Queued Unit := ⟨"notes/a", 0, [], .raw "x"⟩
    let q' : Queued Unit := ⟨"notes/b", 0, [], .raw "y"⟩
    let x := serve quiet
      [.openRun ⟨"out", "cfg.yaml", "abc", 1⟩ (), .record q.record, .record q'.record] ({}, {})
    x.1.isOpen = true ∧ x.2.accepted = [q, q'] ∧ x.1.Apart q q' ∧
      Path.locate (x.1.filePath q) ≠ Path.locate (x.1.filePath q') := by
  intro q q' x
  have hopen : x.1.isOpen = true := by decide +kernel
  let opened := (({} : RunDirectory Unit).openRun quiet ⟨"out", "cfg.yaml", "abc", 1⟩ ()).1.2
  have hfirst : opened.accept q.record = .ok q :=
    (accept_ok_iff _ _).2 ⟨by decide +kernel, (RecordName.isSafe_iff _).1 (by decide),
      by decide +kernel, rfl⟩
  have hsecond : (opened.record q.record).2.accept q'.record = .ok q' :=
    (accept_ok_iff _ _).2 ⟨by decide +kernel, (RecordName.isSafe_iff _).1 (by decide),
      by decide +kernel, rfl⟩
  have haccepted : x.2.accepted = [q, q'] := by
    change ([] ++ (opened.accept q.record).toOption.toList) ++
      ((opened.record q.record).2.accept q'.record).toOption.toList = _
    rw [hfirst, hsecond]
    rfl
  obtain ⟨hapart, hfiles⟩ := accepted_apart_iff quiet 10 {} _ hopen q
    (haccepted ▸ by simp) q' (haccepted ▸ by simp)
    (fun heq => absurd (congrArg Queued.name heq) (by decide)) (by decide) (by decide)
  exact ⟨hopen, haccepted, hapart.2 (by decide +kernel),
    hfiles rfl (by decide +kernel) (by decide +kernel)⟩

/-- Two records of different names with one file, which has the bytes of the second. -/
theorem names_share_file :
    let x := serve quiet [.openRun ⟨"out", "cfg.yaml", "abc", 1⟩ (),
      .record ⟨"a", 0, [], some (.json (.arr []))⟩, .record ⟨"a.json", 0, [], some (.raw "y")⟩,
      .flush ()] ({}, {})
    x.1.isOpen = true ∧ (∀ q ∈ x.2.accepted, Path.slash ∉ q.content.ext) ∧
      x.2.flushes.map Prod.snd = [.ok] ∧ x.1.tree.readFile? "out/insights-1/a.json" = some "y" ∧
      ¬ ∀ q ∈ x.2.accepted, ∀ q' ∈ x.2.accepted, q ≠ q' → x.1.Apart q q' := by
  intro x
  have hshared : ¬ ∀ q ∈ x.2.accepted, ∀ q' ∈ x.2.accepted, q.name ≠ q'.name → x.1.Apart q q' := by
    decide +kernel
  refine ⟨by decide +kernel, by decide +kernel, by decide +kernel, by decide +kernel, fun hall => ?_⟩
  exact hshared fun q hq q' hq' hne => hall q hq q' hq' fun heq => hne (congrArg Queued.name heq)

end RunDirectory

end ClusterEvidence
