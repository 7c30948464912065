import ClusterEvidence.Proofs.Gather.Findings
import ClusterEvidence.Proofs.Run.Journal

/-!
# Records that do not collide

In a cluster where names are words (`Word`) and do not repeat (`Answers.Orderly`), no two records
of a batch are in each other's way : their names differ, and neither has its file at or above that
of the other, nor at the manifest (`records_apart`). The records come in groups, each with a name
of its own below `config` (`Record.Under`), so records of two groups are apart by this name;
within a group they are in directories of one depth, and it is the last directory or the name of
the resource that differs (`Record.Shelved`). A namespace is looked into once, however many
operators mention it.
-/

namespace ClusterEvidence

open Surroundings (onSnd)

variable {σ ε : Type}

/-! ## Words -/

/-- A name that is one part of a path. -/
structure Word (s : Bytes) : Prop where
  safe : RecordName.SafePart s
  slash : Path.slash ∉ s
  nul : (0 : UInt8) ∉ s

instance (s : Bytes) : Decidable (Word s) :=
  decidable_of_iff
    ((s ≠ [] ∧ s ≠ ("." : Bytes) ∧ s ≠ (".." : Bytes)) ∧ Path.slash ∉ s ∧ (0 : UInt8) ∉ s)
    ⟨fun h => ⟨h.1, h.2.1, h.2.2⟩, fun h => ⟨h.safe, h.slash, h.nul⟩⟩

variable {dir dir' w w' : Bytes}

/-- The name of a JSON file is a word too. -/
theorem Word.json (h : Word w) : Word (w ++ ".json") := by
  have hlong : 5 < (w ++ ".json").length := by
    have := List.length_pos_of_ne_nil h.safe.1
    rw [List.length_append, show (".json" : Bytes).length = 5 from rfl]
    omega
  refine ⟨⟨fun hw => ?_, fun hw => ?_, fun hw => ?_⟩, ?_, ?_⟩
  · exact absurd (hw ▸ hlong) (by decide)
  · exact absurd (hw ▸ hlong) (by decide)
  · exact absurd (hw ▸ hlong) (by decide)
  · rw [List.mem_append, not_or]
    exact ⟨h.slash, by decide⟩
  · rw [List.mem_append, not_or]
    exact ⟨h.nul, by decide⟩

/-- A word is one part of a path. -/
theorem Word.parts_below (h : Word w) (dir : Bytes) :
    Path.parts (Path.below dir w) = Path.parts dir ++ [w] := by
  rw [Path.parts_below, Path.parts, Path.parts, Bytes.pieces_of_notMem h.slash]

/-- Words lead on from a safe path. -/
theorem Word.safe_below (h : Word w) (hdir : RecordName.Safe dir) :
    RecordName.Safe (Path.below dir w) := by
  intro p hp
  rw [h.parts_below, List.mem_append, List.mem_singleton] at hp
  rcases hp with hp | rfl
  · exact hdir p hp
  · exact h.safe

theorem Word.nul_below (h : Word w) (hdir : (0 : UInt8) ∉ dir) :
    (0 : UInt8) ∉ Path.below dir w := by
  rw [Path.below, List.mem_append, List.mem_cons, not_or, not_or]
  exact ⟨hdir, by decide, h.nul⟩

/-! ## Records that are apart -/

/-- The file of the record, below the run directory. -/
def Record.file (r : Record ε) : Bytes :=
  RecordName.fileName r.name ((r.item.map Content.ext).getD [])

/-- Where the file of the record is, below the run directory. -/
def Record.place (r : Record ε) : Location := Path.locate r.file

/-- The names differ, and neither file is at or above the other. -/
structure Record.Apart (r r' : Record ε) : Prop where
  name : r.name ≠ r'.name
  below : ¬ r.place <+: r'.place
  above : ¬ r'.place <+: r.place

/-- A record of a group : its name leads to the one name below `config`, and its file to the
other. -/
structure Record.Under (key : Bytes × Bytes) (r : Record ε) : Prop where
  safe : RecordName.Safe r.name
  name : ∃ p, Path.parts r.name = ("config" : Bytes) :: key.1 :: p
  place : ∃ p, r.place = ("config" : Bytes) :: key.2 :: p

/-- A record of JSON with this name in this directory. -/
structure Record.Shelved (dir w : Bytes) (r : Record ε) : Prop where
  name : r.name = Path.below dir w
  file : r.file = Path.below dir (w ++ ".json")
  safe : RecordName.Safe dir
  nul : (0 : UInt8) ∉ dir
  word : Word w

variable {r r' : Record ε}

theorem Record.Shelved.parts (h : r.Shelved dir w) : Path.parts r.name = Path.parts dir ++ [w] := by
  rw [h.name, h.word.parts_below]

/-- A record stands in its directory, in a file of JSON. -/
theorem Record.Shelved.place (h : r.Shelved dir w) :
    r.place = Path.parts dir ++ [w ++ ".json"] := by
  rw [Record.place, h.file, Path.locate_of_safe (h.word.json.nul_below h.nul)
    (h.word.json.safe_below h.safe), h.word.json.parts_below]

/-- A record in a directory below a directory of `config` is of the group of that one. -/
theorem Record.Shelved.under (h : r.Shelved dir w) {key : Bytes} {p : List Bytes}
    (hdir : Path.parts dir = ("config" : Bytes) :: key :: p) : r.Under (key, key) where
  safe := h.name ▸ h.word.safe_below h.safe
  name := ⟨p ++ [w], by rw [h.parts, hdir]; rfl⟩
  place := ⟨p ++ [w ++ ".json"], by rw [h.place, hdir]; rfl⟩

/-- Records of two groups are apart. -/
theorem Record.apart_of_under {k k' : Bytes × Bytes} (h : r.Under k) (h' : r'.Under k')
    (hname : k.1 ≠ k'.1) (hplace : k.2 ≠ k'.2) : r.Apart r' := by
  obtain ⟨p, hp⟩ := h.name
  obtain ⟨p', hp'⟩ := h'.name
  obtain ⟨q, hq⟩ := h.place
  obtain ⟨q', hq'⟩ := h'.place
  refine ⟨fun heq => ?_, ?_, ?_⟩
  · rw [heq, hp'] at hp
    simp only [List.cons.injEq, true_and] at hp
    exact hname hp.1.symm
  · rw [hq, hq', List.prefix_cons_inj, List.cons_prefix_cons]
    exact fun hprefix => hplace hprefix.1
  · rw [hq, hq', List.prefix_cons_inj, List.cons_prefix_cons]
    exact fun hprefix => hplace hprefix.1.symm

/-- Records in directories of one depth are apart, if the directories or the names differ. -/
theorem Record.apart_of_shelved (h : r.Shelved dir w) (h' : r'.Shelved dir' w')
    (hdepth : (Path.parts dir).length = (Path.parts dir').length) (hne : dir = dir' → w ≠ w') :
    r.Apart r' := by
  have hdirs : Path.parts dir = Path.parts dir' → dir = dir' := Bytes.eq_of_pieces_eq
  have hlength : r.place.length = r'.place.length := by
    rw [h.place, h'.place, List.length_append, List.length_append, hdepth]
    rfl
  have hplace : r.place ≠ r'.place := by
    intro heq
    rw [h.place, h'.place] at heq
    obtain ⟨hdir, hlast⟩ := List.append_inj' heq rfl
    exact hne (hdirs hdir) (List.append_cancel_right (List.singleton_inj.1 hlast))
  refine ⟨fun heq => ?_, fun hp => hplace (hp.eq_of_length hlength),
    fun hp => hplace (hp.eq_of_length hlength.symm).symm⟩
  have hparts := congrArg Path.parts heq
  rw [h.parts, h'.parts] at hparts
  obtain ⟨hdir, hlast⟩ := List.append_inj' hparts rfl
  exact hne (hdirs hdir) (List.singleton_inj.1 hlast)

/-- Groups of records that are apart, with different names below `config`. -/
theorem pairwise_groups {groups : List ((Bytes × Bytes) × List (Record ε))}
    (hkeys : groups.Pairwise fun x y => x.1.1 ≠ y.1.1 ∧ x.1.2 ≠ y.1.2)
    (hunder : ∀ x ∈ groups, ∀ r ∈ x.2, r.Under x.1)
    (hwithin : ∀ x ∈ groups, x.2.Pairwise Record.Apart) :
    (groups.flatMap Prod.snd).Pairwise Record.Apart := by
  refine List.pairwise_flatMap.2 ⟨hwithin, hkeys.imp_of_mem ?_⟩
  rintro x y hx hy ⟨hname, hplace⟩ r hr r' hr'
  exact Record.apart_of_under (hunder x hx r hr) (hunder y hy r' hr') hname hplace

/-! ## Orderly clusters -/

/-- Operators with different names that are words, and the namespaces of failing ones are words. -/
def OrderlyOperators (l : List ClusterOperator) : Prop :=
  (l.map fun o => o.metadata.name).Nodup ∧
    ∀ o ∈ l, Word o.metadata.name ∧ (o.isHealthy = false → ∀ ns ∈ o.namespaces, Word ns)

/-- Nodes with different names that are words. -/
def OrderlyNodes (l : List Node) : Prop :=
  (l.map fun o => o.metadata.name).Nodup ∧ ∀ o ∈ l, Word o.metadata.name

/-- Pods with different names that are words, in the namespace that they are listed in, or in
none. -/
def OrderlyPods (ns : Bytes) (l : List Pod) : Prop :=
  (l.map fun p => p.metadata.name).Nodup ∧ ∀ p ∈ l, Word p.metadata.name ∧
    (p.metadata.namespaceName = [] ∨ p.metadata.namespaceName = ns)

/-- Whatever is listed is orderly. -/
structure Answers.Orderly (A : Answers) : Prop where
  operators : ∀ l, A.operators = .ok l → OrderlyOperators l
  nodes : ∀ l, A.nodes = .ok l → OrderlyNodes l
  pods : ∀ ns l, A.pods ns = .ok l → OrderlyPods ns l

/-- Whatever the source lists is orderly. -/
structure Source.Orderly (src : Source σ) : Prop where
  operators : ∀ s l, (src.operators s).1 = .ok l → OrderlyOperators l
  nodes : ∀ s l, (src.nodes s).1 = .ok l → OrderlyNodes l
  pods : ∀ ns s l, (src.pods ns s).1 = .ok l → OrderlyPods ns l

namespace Gatherer

variable {g : Gatherer} {A : Answers}

/-- What holds of the records of every answer that is no failure holds of what is found. -/
theorem found_pairwise {α : Type} {a : Fetched α} {records : α → List (Record ε)}
    (h : ∀ x, a = .ok x → (records x).Pairwise Record.Apart) :
    (found a records).records.Pairwise Record.Apart := by
  cases a with
  | ok x => exact h x rfl
  | error st =>
    rw [found, failed_records]
    exact .nil

/-- Records of the resources of a list, in one directory. -/
theorem shelved_pairwise {α : Type} {l : List α} {keep : α → Bool} {name : α → Bytes}
    {record : α → Record ε} (hnames : (l.map name).Nodup)
    (h : ∀ x ∈ l, (record x).Shelved dir (name x)) :
    ((l.filter keep).map record).Pairwise Record.Apart := by
  rw [List.pairwise_map]
  refine ((List.pairwise_map.1 hnames).filter _).imp_of_mem fun hx hy hne => ?_
  exact Record.apart_of_shelved (h _ (List.mem_filter.1 hx).1) (h _ (List.mem_filter.1 hy).1) rfl
    fun _ => hne

/-- The namespaces that are looked into are those of failing operators. -/
theorem mem_evidenceNamespaces {l : List ClusterOperator} {x : Bytes × Bytes}
    (hx : x ∈ evidenceNamespaces l) :
    ∃ o ∈ l, o.isHealthy = false ∧ x.1 ∈ o.namespaces := by
  obtain ⟨o, ho, hns⟩ := List.mem_flatMap.1 (firstOfEach_subset _ hx)
  obtain ⟨ns, hmem, rfl⟩ := List.mem_map.1 hns
  obtain ⟨ho, hhealth⟩ := List.mem_filter.1 ho
  exact ⟨o, ho, by simpa using hhealth, hmem⟩

/-- Namespaces that are looked into are words. -/
theorem evidenceNamespaces_word (hA : A.Orderly) {l : List ClusterOperator}
    (hl : A.operators = .ok l) {x : Bytes × Bytes} (hx : x ∈ evidenceNamespaces l) : Word x.1 := by
  obtain ⟨o, ho, hhealth, hns⟩ := mem_evidenceNamespaces hx
  exact ((hA.operators l hl).2 o ho).2 hhealth _ hns

/-- A record of JSON in a directory with safe parts. -/
theorem shelved_json {name : Bytes} {c : Content ε} (hname : name = Path.below dir w)
    (hext : c.ext = "json") (hdir : RecordName.Safe dir) (hnul : (0 : UInt8) ∉ dir) (hw : Word w) :
    Record.Shelved dir w { name := name, item := some c } where
  name := hname
  file := by
    have hending : (".json" : Bytes) = "." ++ "json" := rfl
    rw [Record.file, Option.map_some, Option.getD_some, hext, hname, Path.below, Path.below,
      ← List.cons_append, ← List.append_assoc, hending, ← List.append_assoc]
    rfl
  safe := hdir
  nul := hnul
  word := hw

theorem operatorFindings_shelved {o : ClusterOperator} (h : Word o.metadata.name) :
    Record.Shelved "config/clusteroperator" o.metadata.name
      { name := "config/clusteroperator/" ++ o.metadata.name
        item := some (g.hidden (ε := ε) .clusterOperator o) } :=
  shelved_json rfl rfl ((RecordName.isSafe_iff _).1 (by decide)) (by decide) h

theorem nodeFindings_shelved {o : Node} (h : Word o.metadata.name) :
    Record.Shelved "config/node" o.metadata.name
      { name := "config/node/" ++ o.metadata.name, item := some (g.hidden (ε := ε) .node o) } :=
  shelved_json rfl rfl ((RecordName.isSafe_iff _).1 (by decide)) (by decide) h

/-- Pods are in the directory of the namespace that they were listed in. -/
theorem podFindings_shelved {ns : Bytes} (hns : Word ns) {p : Pod} (h : Word p.metadata.name)
    (hown : p.metadata.namespaceName = [] ∨ p.metadata.namespaceName = ns) :
    Record.Shelved (Path.below "config/pod" ns) p.metadata.name
      { name := "config/pod/" ++ (if p.metadata.namespaceName.isEmpty then ns
          else p.metadata.namespaceName) ++ "/" ++ p.metadata.name
        item := some (g.hidden (ε := ε) .pod p) } := by
  have hpods : RecordName.Safe "config/pod" := (RecordName.isSafe_iff _).1 (by decide)
  have hname :
      (if p.metadata.namespaceName.isEmpty then ns else p.metadata.namespaceName) = ns := by
    rcases hown with hown | hown
    · rw [hown]
      rfl
    · rw [hown, ite_self]
  rw [hname]
  exact shelved_json (List.append_assoc _ _ _) rfl (hns.safe_below hpods)
    (hns.nul_below (by decide)) h

theorem operators_pairwise (hA : A.Orderly) :
    (found A.operators (g.operatorFindings (ε := ε))).records.Pairwise Record.Apart :=
  found_pairwise fun l hl => shelved_pairwise (hA.operators l hl).1 fun o ho =>
    operatorFindings_shelved ((hA.operators l hl).2 o ho).1

theorem nodes_pairwise (hA : A.Orderly) :
    (found A.nodes (g.nodeFindings (ε := ε))).records.Pairwise Record.Apart :=
  found_pairwise fun l hl => shelved_pairwise (hA.nodes l hl).1 fun o ho =>
    nodeFindings_shelved ((hA.nodes l hl).2 o ho)

/-- Records of pods stand in the directory of their namespace. -/
theorem evidence_shelved (hA : A.Orderly) {l : List ClusterOperator} (hl : A.operators = .ok l)
    {x : Bytes × Bytes} (hx : x ∈ evidenceNamespaces l)
    (hr : r ∈ g.podFindings (ε := ε) x.1 (A.pods x.1)) :
    ∃ w, r.Shelved (Path.below "config/pod" x.1) w := by
  have hword := evidenceNamespaces_word hA hl hx
  cases hpods : A.pods x.1 with
  | error st =>
    rw [hpods] at hr
    cases hr
  | ok pods =>
    rw [hpods] at hr
    obtain ⟨p, hp, rfl⟩ := List.mem_map.1 hr
    obtain ⟨hname, hown⟩ := (hA.pods _ _ hpods).2 p (List.mem_filter.1 hp).1
    exact ⟨_, podFindings_shelved hword hname hown⟩

theorem podFindings_pairwise (hA : A.Orderly) {ns : Bytes} (hns : Word ns) :
    (g.podFindings (ε := ε) ns (A.pods ns)).Pairwise Record.Apart := by
  cases hpods : A.pods ns with
  | error st => exact .nil
  | ok pods =>
    obtain ⟨hnames, hall⟩ := hA.pods ns pods hpods
    exact shelved_pairwise hnames fun p hp => podFindings_shelved hns (hall p hp).1 (hall p hp).2

/-- No namespace is looked into twice, so pods are apart across namespaces as well. -/
theorem evidence_pairwise (hA : A.Orderly) {l : List ClusterOperator} (hl : A.operators = .ok l) :
    (g.evidence (ε := ε) A l).Pairwise Record.Apart := by
  refine List.pairwise_flatMap.2
    ⟨fun x hx => podFindings_pairwise hA (evidenceNamespaces_word hA hl hx), ?_⟩
  refine (List.pairwise_map.1 (evidenceNamespaces_nodup l)).imp_of_mem ?_
  intro x y hx hy hne r hr r' hr'
  obtain ⟨w, hr⟩ := evidence_shelved hA hl hx hr
  obtain ⟨w', hr'⟩ := evidence_shelved hA hl hy hr'
  refine Record.apart_of_shelved hr hr' ?_ fun heq => absurd ?_ hne
  · rw [(evidenceNamespaces_word hA hl hx).parts_below,
      (evidenceNamespaces_word hA hl hy).parts_below,
      List.length_append, List.length_append]
    rfl
  · exact List.cons_injective (List.append_cancel_left heq)

/-- The records of a batch in groups. -/
def groups (g : Gatherer) (A : Answers) (c : VersionCache) :
    List ((Bytes × Bytes) × List (Record ε)) :=
  (("clusteroperator", "clusteroperator"), (found A.operators g.operatorFindings).records) ::
    (("pod", "pod"), (found A.operators (g.evidence A)).records) ::
    (("node", "node"), (found A.nodes g.nodeFindings).records) ::
    (("version", "version.json"), (g.resourceFindings A .clusterVersion).records) ::
    (("id", "id"), idFindings (c.observed (A.get .clusterVersion))) ::
    Kind.singletons.map fun k => ((k.entry, k.entry ++ ".json"), (g.resourceFindings A k).records)

theorem groups_flatMap (g : Gatherer) (A : Answers) (c : VersionCache) :
    (g.groups A c).flatMap Prod.snd =
      (g.findings (ε := ε) A c).flatMap fun x => x.2.records := by
  have hsplit :
      (found A.operators fun l => g.operatorFindings (ε := ε) l ++ g.evidence A l).records =
        (found A.operators g.operatorFindings).records ++
          (found A.operators (g.evidence A)).records := by
    cases A.operators with
    | ok l => rfl
    | error st => simp [found, failed_records]
  simp only [groups, findings, List.flatMap_cons, List.flatMap_map]
  rw [← List.append_assoc, ← hsplit]

/-! ## Names that are spelled out -/

/-- A record of JSON with a name that is spelled out. -/
theorem under_json {name : Bytes} {c : Content ε} {key : Bytes}
    (hsafe : RecordName.isSafe name = true) (hext : c.ext = "json")
    (hname : Path.parts name = [("config" : Bytes), key])
    (hplace : Path.locate (RecordName.fileName name "json") =
      [("config" : Bytes), key ++ ".json"]) :
    Record.Under (key, key ++ ".json") { name := name, item := some c } where
  safe := (RecordName.isSafe_iff name).1 hsafe
  name := ⟨[], hname⟩
  place := ⟨[], by rw [← hplace, ← hext]; rfl⟩

theorem content_ext (k : Kind) (o : k.Object) : (g.content (ε := ε) k o).ext = "json" := by
  cases k <;> rfl

theorem resourceFindings_under {k : Kind} (hk : k ∈ Kind.clusterVersion :: Kind.singletons)
    (hr : r ∈ (g.resourceFindings (ε := ε) A k).records) :
    r.Under (k.entry, k.entry ++ ".json") := by
  have hall : ∀ k ∈ Kind.clusterVersion :: Kind.singletons,
      RecordName.isSafe ("config/" ++ k.entry) = true ∧
        Path.parts ("config/" ++ k.entry) = [("config" : Bytes), k.entry] ∧
        Path.locate (RecordName.fileName ("config/" ++ k.entry) "json") =
          [("config" : Bytes), k.entry ++ ".json"] := by decide
  obtain ⟨hsafe, hname, hplace⟩ := hall k hk
  obtain ⟨o, -, hr⟩ := mem_found.1 hr
  obtain rfl := List.mem_singleton.1 hr
  exact under_json hsafe (content_ext k o) hname hplace

theorem idFindings_under {c : VersionCache} (hr : r ∈ idFindings (ε := ε) c) :
    r.Under ("id", "id") := by
  obtain ⟨v, -, rfl⟩ := List.mem_map.1 hr
  have hparts : Path.parts "config/id" = [("config" : Bytes), "id"] := by decide
  have hplace : Path.locate "config/id" = [("config" : Bytes), "id"] := by decide
  exact ⟨(RecordName.isSafe_iff "config/id").1 (by decide), ⟨[], hparts⟩, ⟨[], hplace⟩⟩

theorem resourceFindings_pairwise (k : Kind) :
    (g.resourceFindings (ε := ε) A k).records.Pairwise Record.Apart :=
  found_pairwise fun _ _ => List.pairwise_singleton _ _

theorem idFindings_pairwise (c : VersionCache) :
    (idFindings (ε := ε) c).Pairwise Record.Apart := by
  obtain ⟨_ | e⟩ := c
  · exact .nil
  · exact List.pairwise_singleton _ _

/-! ## The batch -/

/-- The names below `config`, of records and of files. -/
def groupKeys : List (Bytes × Bytes) :=
  ("clusteroperator", "clusteroperator") :: ("pod", "pod") :: ("node", "node") ::
    ("version", "version.json") :: ("id", "id") ::
    Kind.singletons.map fun k => (k.entry, k.entry ++ ".json")

/-- Each group has a place of its own. -/
theorem groups_keys (g : Gatherer) (A : Answers) (c : VersionCache) :
    (g.groups (ε := ε) A c).Pairwise fun x y => x.1.1 ≠ y.1.1 ∧ x.1.2 ≠ y.1.2 := by
  have hkeys : (g.groups (ε := ε) A c).map Prod.fst = groupKeys := rfl
  have hdifferent : groupKeys.Pairwise fun k k' => k.1 ≠ k'.1 ∧ k.2 ≠ k'.2 := by decide
  rw [← hkeys] at hdifferent
  exact List.pairwise_map.1 hdifferent

theorem groups_under (hA : A.Orderly) (c : VersionCache) :
    ∀ x ∈ g.groups (ε := ε) A c, ∀ r ∈ x.2, r.Under x.1 := by
  simp only [groups, List.forall_mem_cons, List.forall_mem_map]
  refine ⟨fun r hr => ?_, fun r hr => ?_, fun r hr => ?_,
    fun r hr => resourceFindings_under List.mem_cons_self hr, fun r hr => idFindings_under hr,
    fun k hk r hr => resourceFindings_under (List.mem_cons_of_mem _ hk) hr⟩
  · obtain ⟨l, hl, hr⟩ := mem_found.1 hr
    obtain ⟨o, ho, rfl⟩ := List.mem_map.1 hr
    exact (operatorFindings_shelved ((hA.operators l hl).2 o (List.mem_filter.1 ho).1).1).under
      (p := []) (by decide)
  · obtain ⟨l, hl, hr⟩ := mem_found.1 hr
    obtain ⟨x, hx, hr⟩ := List.mem_flatMap.1 hr
    obtain ⟨w, hr⟩ := evidence_shelved hA hl hx hr
    exact hr.under ((evidenceNamespaces_word hA hl hx).parts_below _)
  · obtain ⟨l, hl, hr⟩ := mem_found.1 hr
    obtain ⟨o, ho, rfl⟩ := List.mem_map.1 hr
    exact (nodeFindings_shelved ((hA.nodes l hl).2 o (List.mem_filter.1 ho).1)).under
      (p := []) (by decide)

/-- The records of a group stand apart. -/
theorem groups_pairwise (hA : A.Orderly) (c : VersionCache) :
    ∀ x ∈ g.groups (ε := ε) A c, x.2.Pairwise Record.Apart := by
  simp only [groups, List.forall_mem_cons, List.forall_mem_map]
  exact ⟨operators_pairwise hA, found_pairwise fun l hl => evidence_pairwise hA hl,
    nodes_pairwise hA, resourceFindings_pairwise _, idFindings_pairwise _,
    fun k _ => resourceFindings_pairwise k⟩

/-- In an orderly cluster, what is found is apart, and every name is safe. -/
theorem findings_apart (hA : A.Orderly) (c : VersionCache) :
    let rs := (g.findings (ε := ε) A c).flatMap fun x => x.2.records
    rs.Pairwise Record.Apart ∧ ∀ r ∈ rs, ∃ key, r.Under key := by
  intro rs
  rw [show rs = _ from (g.groups_flatMap A c).symm]
  refine ⟨pairwise_groups (g.groups_keys A c) (groups_under hA c) (groups_pairwise hA c), ?_⟩
  intro r hr
  obtain ⟨x, hx, hr⟩ := List.mem_flatMap.1 hr
  exact ⟨x.1, groups_under hA c x hx r hr⟩

/-- What is listed to a batch is what the source lists. -/
theorem podAnswers_orderly {env : Surroundings σ} {src : Source σ} (hsrc : src.Orderly)
    (names : List (Bytes × Bytes)) (s : σ) {ns : Bytes} {l : List Pod}
    (hl : g.podAnswers env src ε names s ns = .ok l) : OrderlyPods ns l := by
  induction names generalizing s with
  | nil =>
    obtain rfl := Except.ok.inj hl
    exact ⟨.nil, by simp⟩
  | cons x names ih =>
    rw [podAnswers] at hl
    split at hl
    · next heq => exact heq ▸ hsrc.pods x.1 s l (heq ▸ hl)
    · exact ih _ hl

/-- What an orderly source answers is orderly. -/
theorem heard_orderly {env : Surroundings σ} {src : Source σ} (hsrc : src.Orderly)
    (record : Record ε → StateM σ Status) (x : VersionCache × σ) :
    (g.heard env src record x).Orderly where
  operators := hsrc.operators _
  nodes := hsrc.nodes _
  pods := by
    intro ns l hl
    change g.heardPods env src ε (g.asking env src record x "cluster_operators") ns = .ok l at hl
    generalize g.asking env src record x "cluster_operators" = s at hl
    cases hs : (src.operators s).1 with
    | error st =>
      rw [heardPods, hs] at hl
      obtain rfl := Except.ok.inj hl
      exact ⟨.nil, by simp⟩
    | ok operators =>
      rw [heardPods, hs] at hl
      exact podAnswers_orderly hsrc _ _ hl

/-- In a cluster where names are words and do not repeat, the records that the routines of a batch
produce have different names, all of them safe, and neither of two has its file at or above that
of the other, nor one at the manifest. -/
theorem records_apart (g : Gatherer) (env : Surroundings σ) {src : Source σ} (hsrc : src.Orderly)
    (record : Record ε → StateM σ Status) (x : VersionCache × σ) :
    let rs := (turns (env.beside VersionCache) (fun r => onSnd (record r))
      (g.routines env src) x).flatMap fun t => t.outcome.records
    (rs.map Record.name).Nodup ∧ (∀ r ∈ rs, RecordName.isSafe r.name = true) ∧
      (rs.Pairwise fun r r' => ¬ r.place <+: r'.place ∧ ¬ r'.place <+: r.place) ∧
      ∀ r ∈ rs, r.place ≠ ["manifest.jsonl"] := by
  intro rs
  have hrecords := g.turns_records env src record x
  obtain ⟨hapart, hunder⟩ := findings_apart (g := g) (ε := ε) (heard_orderly hsrc record x) x.1
  rw [← hrecords] at hapart hunder
  rw [List.pairwise_map] at hapart
  rw [List.forall_mem_map] at hunder
  refine ⟨List.pairwise_map.2 (hapart.imp fun h => h.name), fun r hr => ?_,
    hapart.imp fun h => ⟨h.below, h.above⟩, fun r hr => ?_⟩
  · obtain ⟨key, h⟩ := hunder r hr
    exact (RecordName.isSafe_iff r.name).2 h.safe
  · obtain ⟨key, h⟩ := hunder r hr
    obtain ⟨p, hp⟩ := h.place
    rw [show r.place = _ from hp]
    intro hplace
    exact absurd (List.head_eq_of_cons_eq hplace) (by decide)

/-! ## Two operators and one namespace -/

/-- An operator that is degraded and mentions a namespace. -/
def degradedOperator (name ns : Bytes) : ClusterOperator where
  metadata := { name := name }
  conditions := [{ type := "Degraded", status := "True" }]
  relatedObjects := [{ resource := "namespaces", name := ns }]

/-- A pod that is waiting, in a namespace. -/
def pendingPod (ns name : Bytes) : Pod where
  metadata := { name := name, namespaceName := ns }
  phase := "Pending"

/-- Two failing operators that mention one namespace, with two waiting pods, and a node. -/
def sharedNamespace : Source Unit where
  operators := pure (.ok [degradedOperator "dns" "shared", degradedOperator "ingress" "shared"])
  nodes := pure (.ok
    [{ metadata := { name := "dns" }, conditions := [{ type := "Ready", status := "False" }] }])
  pods := fun ns => pure (.ok [pendingPod ns "a", pendingPod [] "b"])
  get := fun _ name => pure (.error ⟨.notFound, name⟩)

theorem sharedNamespace_orderly : sharedNamespace.Orderly where
  operators := by
    rintro s l ⟨⟩
    unfold OrderlyOperators
    decide
  nodes := by
    rintro s l ⟨⟩
    unfold OrderlyNodes
    decide
  pods := by
    rintro ns s l ⟨⟩
    have hnames : ([("a" : Bytes), "b"]).Nodup := by decide
    have ha : Word "a" := by decide
    have hb : Word "b" := by decide
    refine ⟨hnames, ?_⟩
    simp only [List.forall_mem_cons]
    exact ⟨⟨ha, .inr rfl⟩, ⟨hb, .inl rfl⟩, by simp⟩

/-- The namespace is looked into once, and the pods are apart from each other and from all else. -/
theorem sharedNamespace_apart :
    let g : Gatherer := ⟨some (.ofVocabulary {}), {}⟩
    let record : Record Unit → StateM Unit Status := fun _ => pure .ok
    let rs := (turns (RunDirectory.quiet.beside VersionCache) (fun r => onSnd (record r))
      (g.routines RunDirectory.quiet sharedNamespace) ({}, ())).flatMap fun t => t.outcome.records
    sharedNamespace.Orderly ∧ rs.length = 5 ∧ (rs.map Record.name).Nodup ∧
      rs.Pairwise fun r r' => ¬ r.place <+: r'.place ∧ ¬ r'.place <+: r.place := by
  intro g record rs
  obtain ⟨hnames, -, hplaces, -⟩ := records_apart g RunDirectory.quiet sharedNamespace_orderly
    record ({}, ())
  exact ⟨sharedNamespace_orderly, by decide +kernel, hnames, hplaces⟩

end Gatherer

end ClusterEvidence
