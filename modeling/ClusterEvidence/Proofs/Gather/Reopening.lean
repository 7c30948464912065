import ClusterEvidence.Proofs.Gather.Layout
import Mathlib.Data.List.Induction

/-!
# Snapshots that are opened again

A snapshot is opened and closed any number of times, and the files may be others each time
(`Snapshot.Call`). Opening ends in one of three ways (`Snapshot.Opening`). If all manifests are
well-formed the snapshot is open and holds what is kept of their documents, and nothing from
before. If there is no directory it is closed and empty. If a manifest is malformed
(`Snapshot.Broken`) it is closed, but not empty : what was kept of the files before that one is
still counted, though no query is answered from it.

`Snapshot.reopened` says so of every history, and `Snapshot.malformed_still_counted` is a snapshot
that failed to open and holds a document.
-/

namespace ClusterEvidence

open Indexed (keptOf PresentsAll)

namespace Snapshot

variable {σ : Type} {env : Surroundings σ} {t : FileTree} {s : Snapshot} {path file : Bytes}
  {docs : List Yaml} {x : σ}

/-! ## Calls -/

/-- A snapshot is opened on the files as they are then, or closed. -/
inductive Call
  | opened (t : FileTree)
  | closed

/-- The path of a snapshot stays, and without one nothing was ever read. -/
structure Sound (path : Bytes) (s : Snapshot) : Prop where
  path_eq : s.path = path
  unread : path = [] → s = ⟨[], false, []⟩

/-- A source that refuses every query. It looks at the namespace of pods first. -/
def refusing : Source σ where
  operators := pure (.error notOpened)
  nodes := pure (.error notOpened)
  pods := fun ns => pure (.error
    (if ns.isEmpty then ⟨.invalidArgument, "namespace is empty"⟩ else notOpened))
  get := fun _ _ => pure (.error notOpened)

/-- A snapshot that is closed refuses every query. -/
theorem source_of_closed (h : s.isOpen = false) : (s.source : Source σ) = refusing := by
  have hlist : ∀ k chosen, s.list k chosen = .error notOpened := by
    intro k chosen
    rw [list, h]
    rfl
  have hget : ∀ k name, s.get k name = .error notOpened := by
    intro k name
    rw [get, h]
    rfl
  have hpods : ∀ ns, s.pods ns = .error
      (if ns.isEmpty then ⟨.invalidArgument, "namespace is empty"⟩ else notOpened) := by
    intro ns
    rw [pods, hlist]
    split
    · rfl
    · rfl
  simp only [source, refusing, hlist, hget, hpods]

/-! ## Ways that opening ends -/

section Reading

variable [Yaml.Reader]

/-- One of the manifests below the directory is malformed, and those before it hold the
documents. -/
structure Broken (t : FileTree) (path : Bytes) (docs : List Yaml) (file : Bytes) : Prop where
  directory : t.stat path = .ok .directory
  malformed : ∃ (before rest : List (Bytes × Bytes)) (content : Bytes) (files : List (List Yaml)),
    manifestFiles t path = before ++ (file, content) :: rest ∧ files.flatten = docs ∧
      before.map (fun f => Yaml.Reader.documents? f.2) = files.map some ∧
      Yaml.Reader.documents? content = none

/-- What comes of opening a snapshot. -/
inductive Opening (t : FileTree) (path : Bytes) : Status × Snapshot → Prop
  | read (docs : List Yaml) (h : Holds t path docs) :
      Opening t path (.ok, ⟨path, true, docs.flatMap (keptOf none)⟩)
  | malformed (docs : List Yaml) (file : Bytes) (h : Broken t path docs file) :
      Opening t path ((OpenError.malformed file).status, ⟨path, false, docs.flatMap (keptOf none)⟩)
  | noDirectory (e : OpenError) (h : t.stat path ≠ .ok .directory) :
      Opening t path (e.status, ⟨path, false, []⟩)

/-- Files are well-formed up to the first that is not. -/
theorem readable_or_malformed (found : List (Bytes × Bytes)) :
    (∃ files : List (List Yaml), found.map (fun f => Yaml.Reader.documents? f.2) = files.map some) ∨
      ∃ (before rest : List (Bytes × Bytes)) (file content : Bytes) (files : List (List Yaml)),
        found = before ++ (file, content) :: rest ∧
          before.map (fun f => Yaml.Reader.documents? f.2) = files.map some ∧
          Yaml.Reader.documents? content = none := by
  induction found with
  | nil => exact .inl ⟨[], rfl⟩
  | cons f found ih =>
    cases hdocs : Yaml.Reader.documents? f.2 with
    | none => exact .inr ⟨[], found, f.1, f.2, [], rfl, rfl, hdocs⟩
    | some docs =>
      rcases ih with ⟨files, hfiles⟩ | ⟨before, rest, file, content, files, hfound, hfiles, hnone⟩
      · exact .inl ⟨docs :: files, by rw [List.map_cons, hdocs, hfiles, List.map_cons]⟩
      · refine .inr ⟨f :: before, rest, file, content, docs :: files, ?_, ?_, hnone⟩
        · rw [hfound, List.cons_append]
        · rw [List.map_cons, hdocs, hfiles, List.map_cons]

/-- The manifests of a directory are all well-formed, or one is not. -/
theorem holds_or_broken (h : t.stat path = .ok .directory) :
    (∃ docs, Holds t path docs) ∨ ∃ docs file, Broken t path docs file := by
  rcases readable_or_malformed (manifestFiles t path) with
    ⟨files, hfiles⟩ | ⟨before, rest, file, content, files, hfound, hfiles, hnone⟩
  · exact .inl ⟨files.flatten, h, files, rfl, hfiles⟩
  · exact .inr ⟨files.flatten, file, h, before, rest, content, files, hfound, rfl, hfiles, hnone⟩

/-- A malformed manifest leaves what was kept of the files before it. -/
theorem openDir_of_broken (env : Surroundings σ) (x : σ) (h : Broken t s.path docs file) :
    (openDir env t s x).1 = ((OpenError.malformed file).status,
      { s with isOpen := false, documents := docs.flatMap (keptOf none) }) := by
  obtain ⟨hdir, before, rest, content, files, hfound, rfl, hfiles, hnone⟩ := h
  obtain ⟨x', hread⟩ := readFiles_append env x hfiles ((file, content) :: rest) s.close
  have hrun : readFiles env (manifestFiles t s.path) s.close x =
      ((some (.malformed file), { s.close with documents := files.flatten.flatMap (keptOf none) }),
        x') := by
    rw [hfound, hread]
    simp only [readFiles, hnone]
    rfl
  rw [openDir_of_directory env x hdir]
  simp only [readAll, bind, StateT.bind]
  rw [show s.close.path = s.path from rfl, hrun]
  rfl

/-! ## Histories -/

/-- Do a call to a snapshot. -/
def perform (env : Surroundings σ) (x : Snapshot × σ) : Call → Snapshot × σ
  | .opened t =>
    let y := openDir env t x.1 x.2
    (y.1.2, y.2)
  | .closed => (x.1.close, x.2)

/-- A new snapshot after calls. -/
def after (env : Surroundings σ) (path : Bytes) (x : σ) (calls : List Call) : Snapshot × σ :=
  calls.foldl (perform env) (⟨path, false, []⟩, x)

/-- Opening ends in one of its ways. -/
theorem opening_openDir (h : s.Sound path) (env : Surroundings σ) (t : FileTree) (x : σ) :
    Opening t path (openDir env t s x).1 := by
  obtain ⟨rfl, hunread⟩ := h
  by_cases hpath : s.path = []
  · rw [openDir, if_pos (by simpa using hpath), hunread hpath]
    exact .noDirectory .emptyPath (by intro hstat; cases hstat)
  cases hstat : t.stat s.path with
  | error e =>
    rw [openDir, if_neg (by simpa using hpath), hstat]
    exact .noDirectory (.notFound s.path) (by rw [hstat]; simp)
  | ok entry =>
    cases entry with
    | file content =>
      rw [openDir, if_neg (by simpa using hpath), hstat]
      exact .noDirectory (.notDirectory s.path) (by rw [hstat]; simp)
    | directory =>
      rcases holds_or_broken hstat with ⟨docs, hdocs⟩ | ⟨docs, file, hdocs⟩
      · rw [openDir_eq env x hdocs]
        exact .read docs hdocs
      · rw [openDir_of_broken env x hdocs]
        exact .malformed docs file hdocs

theorem Opening.sound {r : Status × Snapshot} (h : Opening t path r) : r.2.Sound path := by
  have hpath : t.stat path = .ok .directory → path ≠ [] := by
    rintro hdir rfl
    cases hdir
  cases h with
  | read docs h => exact ⟨rfl, fun hempty => absurd hempty (hpath h.directory)⟩
  | malformed docs file h => exact ⟨rfl, fun hempty => absurd hempty (hpath h.directory)⟩
  | noDirectory e h => exact ⟨rfl, by rintro rfl; rfl⟩

theorem Sound.perform {y : Snapshot × σ} (h : y.1.Sound path) (env : Surroundings σ) (c : Call) :
    (perform env y c).1.Sound path := by
  cases c with
  | opened t => exact (opening_openDir h env t y.2).sound
  | closed => exact ⟨h.path_eq, fun hempty => congrArg close (h.unread hempty)⟩

/-- The path stays over any calls. -/
theorem sound_after (env : Surroundings σ) (path : Bytes) (x : σ) (calls : List Call) :
    (after env path x calls).1.Sound path := by
  unfold after
  induction calls using List.reverseRecOn with
  | nil => exact ⟨rfl, by rintro rfl; rfl⟩
  | append_singleton calls c ih =>
    rw [List.foldl_append]
    exact ih.perform env c

/-! ## What is left after opening -/

/-- Opening a snapshot after it was opened and closed any number of times, on files of any kind.
It succeeds just when there is a directory of well-formed manifests. It is open then, and its
documents are those kept of the manifests, the objects that these stand for, each under its kind.
Otherwise it is closed and refuses every query. Behind a malformed manifest the documents kept of
those before it are left, and they are counted; if there is no such manifest, nothing is left. -/
theorem reopened (env : Surroundings σ) (path : Bytes) (x : σ) (calls : List Call) (t : FileTree) :
    let y := after env path x calls
    let r := (openDir env t y.1 y.2).1
    (r.1.isOk = true ↔ ∃ docs, Holds t path docs) ∧
      (∀ docs, Holds t path docs → r = (.ok, ⟨path, true, docs.flatMap (keptOf none)⟩) ∧
        ∀ objects, PresentsAll none docs objects →
          r.2.documents.map bare = objects.map fun o => bare (kindOf o, o)) ∧
      (r.1.isOk = false → r.2.isOpen = false ∧ (r.2.source : Source σ) = refusing) ∧
      (∀ docs file, Broken t path docs file → r =
        ((OpenError.malformed file).status, ⟨path, false, docs.flatMap (keptOf none)⟩)) ∧
      (r.1.isOk = false → (¬ ∃ docs file, Broken t path docs file) → r.2.documents = []) := by
  intro y r
  have hsound : y.1.Sound path := sound_after env path x calls
  have hholds : ∀ docs, Holds t path docs →
      r = (.ok, ⟨path, true, docs.flatMap (keptOf none)⟩) := by
    intro docs hdocs
    have hopen := openDir_eq (s := y.1) env y.2 (by rw [hsound.path_eq]; exact hdocs)
    rwa [hsound.path_eq] at hopen
  have hbroken : ∀ docs file, Broken t path docs file → r =
      ((OpenError.malformed file).status, ⟨path, false, docs.flatMap (keptOf none)⟩) := by
    intro docs file hdocs
    have hopen := openDir_of_broken (s := y.1) env y.2 (by rw [hsound.path_eq]; exact hdocs)
    rwa [hsound.path_eq] at hopen
  have hopening : Opening t path r := opening_openDir hsound env t y.2
  have hstatus : ∀ e : OpenError, e.status.isOk = false := by
    intro e
    cases e <;> rfl
  clear_value r
  refine ⟨⟨fun hok => ?_, fun ⟨docs, hdocs⟩ => by rw [hholds docs hdocs]; rfl⟩,
    fun docs hdocs => ⟨hholds docs hdocs, fun objects hlayout => ?_⟩, fun hfailed => ?_, hbroken,
    fun hfailed hnone => ?_⟩
  · cases hopening with
    | read docs h => exact ⟨docs, h⟩
    | malformed docs file h => exact absurd hok (by rw [hstatus]; simp)
    | noDirectory e h => exact absurd hok (by rw [hstatus]; simp)
  · rw [hholds docs hdocs]
    exact Indexed.keptOf_of_presentsAll hlayout
  · cases hopening with
    | read docs h => cases hfailed
    | malformed docs file h => exact ⟨rfl, source_of_closed rfl⟩
    | noDirectory e h => exact ⟨rfl, source_of_closed rfl⟩
  · cases hopening with
    | read docs h => cases hfailed
    | malformed docs file h => exact absurd ⟨docs, file, h⟩ hnone
    | noDirectory e h => rfl

end Reading

/-- A directory with a node in it. -/
def nodeFiles : FileTree := ⟨[(["snap"], .directory),
  (["snap", "a.yaml"], .file "kind: Node\nmetadata:\n  name: n\n")]⟩

/-- The same directory with a malformed manifest behind the node. -/
def brokenFiles : FileTree := ⟨[(["snap"], .directory),
  (["snap", "a.yaml"], .file "kind: Node\nmetadata:\n  name: n\n"),
  (["snap", "b.yml"], .file "\x7ba: ")]⟩

/-- The node in the first file. -/
def nodeDocument : Yaml := .map [(.scalar "kind", .scalar "Node"),
  (.scalar "metadata", .map [(.scalar "name", .scalar "n")])]

theorem holds_nodeFiles : Holds nodeFiles "snap" [nodeDocument] := by
  let files : List (Bytes × Bytes) := [("snap/a.yaml", "kind: Node\nmetadata:\n  name: n\n")]
  have hfiles : manifestFiles nodeFiles "snap" = files :=
    manifestFiles_eq (l := ["snap"]) rfl (by decide +kernel) (by decide +kernel)
  refine ⟨by decide +kernel, [[nodeDocument]], rfl, ?_⟩
  rw [hfiles]
  with_unfolding_all rfl

theorem broken_brokenFiles : Broken brokenFiles "snap" [nodeDocument] "snap/b.yml" := by
  let files : List (Bytes × Bytes) :=
    [("snap/a.yaml", "kind: Node\nmetadata:\n  name: n\n"), ("snap/b.yml", "\x7ba: ")]
  have hfiles : manifestFiles brokenFiles "snap" = files :=
    manifestFiles_eq (l := ["snap"]) rfl (by decide +kernel) (by decide +kernel)
  refine ⟨by decide +kernel, _, _, _, [[nodeDocument]], hfiles.trans List.singleton_append.symm,
    rfl, ?_, ?_⟩
  · with_unfolding_all rfl
  · with_unfolding_all rfl

/-- Opening fails over the second of two manifests, and the node in the first is counted. -/
theorem malformed_still_counted :
    let env : Surroundings Unit := ⟨pure false, fun _ _ => pure (), pure 0, pure 0⟩
    let r := (openDir env brokenFiles ⟨"snap", false, []⟩ ()).1
    r.1.isOk = false ∧ r.2.isOpen = false ∧ r.2.documents.length = 1 := by
  intro env r
  have hr : r = _ := openDir_of_broken (s := ⟨"snap", false, []⟩) env () broken_brokenFiles
  rw [hr]
  decide +kernel

/-- What was counted after that is gone once there is no directory, and is not counted twice once
the manifest is. -/
theorem reopened_without_malformed :
    let env : Surroundings Unit := ⟨pure false, fun _ _ => pure (), pure 0, pure 0⟩
    let calls := [Call.opened nodeFiles, .closed, .opened brokenFiles]
    let y := after env "snap" () calls
    let gone := (openDir env ⟨[]⟩ y.1 y.2).1
    let back := (openDir env nodeFiles y.1 y.2).1
    y.1.documents.length = 1 ∧ gone.1.isOk = false ∧ gone.2.documents = [] ∧
      (gone.2.source : Source Unit) = refusing ∧ back.1 = .ok ∧ back.2.documents.length = 1 := by
  intro env calls y gone back
  obtain ⟨-, -, -, hbroken, -⟩ := reopened env "snap" () [.opened nodeFiles, .closed] brokenFiles
  have hbefore : y.1 = _ := congrArg Prod.snd (hbroken _ _ broken_brokenFiles)
  have hnone : (⟨[]⟩ : FileTree).stat "snap" ≠ .ok .directory := by decide +kernel
  obtain ⟨hok, -, hclosed, -, hempty⟩ := reopened env "snap" () calls ⟨[]⟩
  obtain ⟨-, hholds, -⟩ := reopened env "snap" () calls nodeFiles
  have hfailed : gone.1.isOk = false := by
    refine Bool.eq_false_iff.2 fun h => ?_
    obtain ⟨docs, hdocs⟩ := hok.1 h
    exact hnone hdocs.directory
  have hsound : ¬ ∃ docs file, Broken ⟨[]⟩ "snap" docs file := by
    rintro ⟨docs, file, hdocs⟩
    exact hnone hdocs.directory
  obtain ⟨hback, -⟩ := hholds _ holds_nodeFiles
  refine ⟨?_, hfailed, hempty hfailed hsound, (hclosed hfailed).2, congrArg Prod.fst hback, ?_⟩
  · rw [hbefore]
    decide +kernel
  · rw [show back = _ from hback]
    decide +kernel

end Snapshot

end ClusterEvidence
