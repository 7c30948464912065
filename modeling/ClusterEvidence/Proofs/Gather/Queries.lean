import ClusterEvidence.Gather.Snapshot
import ClusterEvidence.Proofs.Resource.Fields

/-!
# What a query looks at

A query by name looks for the first document of its kind that has the name (`Snapshot.First`), and
a query for the pods of a namespace at the documents of pods that say they are in it
(`Snapshot.podsOf`). Both go by scalars in the documents, and a document that can be decoded is
decoded to an object with the same texts (`metadataText_of_decode`), so what is asked for is what
is answered.

Nothing else of the snapshot shows. Two snapshots in which a query finds the same give the same
answer, whatever other documents there are and whether or not these can be decoded
(`Snapshot.query_selected`).
-/

namespace ClusterEvidence

variable {k : Kind} {d : Yaml} {key name ns : Bytes}

/-! ## Texts in the metadata -/

/-- The text of the scalar at the end of a path of keys. -/
def Yaml.textAt? (p : List Bytes) (d : Yaml) : Option Bytes := (d.at? p).bind Yaml.text?

theorem metadataText_eq (key : Bytes) (d : Yaml) :
    metadataText key d = (d.textAt? ["metadata", key]).getD [] := by
  rw [metadataText, Yaml.textAt?, Yaml.at?_cons]
  cases d.get? "metadata" with
  | none => rfl
  | some m =>
    rw [Option.bind_some, Option.bind_some, Yaml.at?_cons]
    cases m.get? key with
    | none => rfl
    | some v => rfl

/-- A text of the metadata is what the object has. -/
theorem metadataText_of_decode {o : k.Object} {get : ObjectMeta → Bytes}
    (hf : (⟨[key], .text, get⟩ : PartField ObjectMeta) ∈ ObjectMeta.fields)
    (h : decode k d = .ok o) : metadataText key d = get (k.metadata o) := by
  have hmap : d.isMap = true := by
    by_contra hnot
    rw [decode, if_pos (by simpa using hnot)] at h
    cases h
  obtain ⟨l, rfl⟩ := Yaml.exists_map hmap
  have ho : (Part.resource k).decode (.map l) = .ok o :=
    mapError_eq_ok.1 ((decode_map k l).symm.trans h)
  have hread : Yaml.valueOr Yaml.toText [] (reach ["metadata", key] (some (.map l))) =
      .ok (get (k.metadata o)) :=
    Part.decode_eq_ok.1 ho _ (Part.metadata_subset k (List.mem_map_of_mem hf))
  rw [metadataText_eq, Yaml.textAt?]
  cases hat : Yaml.at? ["metadata", key] (.map l) with
  | none =>
    rcases reach_of_at?_eq_none hat with hreach | hreach
    · rw [hreach] at hread
      exact Except.ok.inj hread
    · rw [hreach] at hread
      exact Except.ok.inj hread
  | some v =>
    rw [reach_of_at? hat] at hread
    cases v with
    | null => exact Except.ok.inj hread
    | scalar s => exact Except.ok.inj hread
    | seq items => cases hread
    | map l => cases hread

namespace Snapshot

variable {s s' : Snapshot}

/-! ## Selections -/

/-- A query by this name is for the document. One without a name is found by the empty name. -/
def Named (name : Bytes) (d : Yaml) : Prop :=
  d.textAt? ["metadata", "name"] = some name ∨
    name = [] ∧ d.textAt? ["metadata", "name"] = none

/-- The first document of a kind that a query by the name is for. -/
def First (s : Snapshot) (k : Kind) (name : Bytes) (d : Yaml) : Prop :=
  ∃ before after, s.ofKind k = before ++ d :: after ∧ Named name d ∧ ∀ d' ∈ before, ¬Named name d'

/-- The documents of pods in a namespace, in order. -/
def podsOf (s : Snapshot) (ns : Bytes) : List Yaml :=
  (s.ofKind .pod).filter fun d => d.textAt? ["metadata", "namespace"] == some ns

theorem named_iff : Named name d ↔ metadataText "name" d = name := by
  rw [metadataText_eq, Named]
  cases d.textAt? ["metadata", "name"] with
  | none => simp [eq_comm]
  | some t => simp

/-- A search finds the first document of the name. -/
theorem find?_eq_some_iff : (s.ofKind k).find? (fun d => metadataText "name" d == name) = some d ↔
    First s k name d := by
  simp only [List.find?_eq_some_iff_append, First, named_iff, beq_iff_eq, Bool.not_eq_true',
    beq_eq_false_iff_ne, ne_eq]
  constructor
  · rintro ⟨hname, before, after, heq, hbefore⟩
    exact ⟨before, after, heq, hname, hbefore⟩
  · rintro ⟨before, after, heq, hname, hbefore⟩
    exact ⟨hname, before, after, heq, hbefore⟩

theorem find?_eq_none_iff : (s.ofKind k).find? (fun d => metadataText "name" d == name) = none ↔
    ∀ d ∈ s.ofKind k, ¬Named name d := by
  simp only [List.find?_eq_none, named_iff, beq_iff_eq]

/-! ## Answers -/

/-- A query answers with the first document of the name. -/
theorem get_of_first (hopen : s.isOpen = true) (h : First s k name d) :
    s.get k name = decode k d := by
  rw [get, if_neg (by simp [hopen]), find?_eq_some_iff.2 h]

/-- A name that no document has is not found. -/
theorem get_of_forall_not (hopen : s.isOpen = true) (h : ∀ d ∈ s.ofKind k, ¬Named name d) :
    s.get k name = .error ⟨.notFound, k.name ++ " \"" ++ name ++ "\" not found"⟩ := by
  rw [get, if_neg (by simp [hopen]), find?_eq_none_iff.2 h]

/-- There is a first document, or there is none. -/
theorem first_or (s : Snapshot) (k : Kind) (name : Bytes) :
    (∃ d, First s k name d) ∨ ∀ d ∈ s.ofKind k, ¬Named name d := by
  cases h : (s.ofKind k).find? fun d => metadataText "name" d == name with
  | none => exact .inr (find?_eq_none_iff.1 h)
  | some d => exact .inl ⟨d, find?_eq_some_iff.1 h⟩

theorem First.mem (h : First s k name d) : d ∈ s.ofKind k ∧ Named name d := by
  obtain ⟨before, after, heq, hnamed, -⟩ := h
  exact ⟨heq ▸ by simp, hnamed⟩

theorem pods_eq (hopen : s.isOpen = true) (hns : ns ≠ []) : s.pods ns =
    ((s.podsOf ns).mapM (decode .pod)).mapError (Status.annotate "SnapshotDirSource: listing Pod") := by
  have hchosen : (fun d => metadataText "namespace" d == ns) =
      fun d => d.textAt? ["metadata", "namespace"] == some ns := by
    funext d
    rw [metadataText_eq, Bool.eq_iff_iff, beq_iff_eq, beq_iff_eq]
    cases d.textAt? ["metadata", "namespace"] with
    | none => simpa using hns.symm
    | some t => simp
  rw [pods, if_neg (by simpa using hns), list, if_neg (by simp [hopen]), hchosen]
  rfl

/-- What is found has the name that was asked for. -/
theorem get_eq_ok_name {o : k.Object} (hopen : s.isOpen = true) (h : s.get k name = .ok o) :
    (k.metadata o).name = name := by
  rcases first_or s k name with ⟨d, hd⟩ | hnone
  · rw [get_of_first hopen hd] at h
    rw [← named_iff.1 hd.mem.2]
    exact (metadataText_of_decode (by simp [ObjectMeta.fields]) h).symm
  · rw [get_of_forall_not hopen hnone] at h
    cases h

/-- Only the first document of the name counts. -/
theorem get_congr (hopen : s.isOpen = true) (hopen' : s'.isOpen = true)
    (h : ∀ d, First s' k name d ↔ First s k name d) : s'.get k name = s.get k name := by
  rcases first_or s k name with ⟨d, hd⟩ | hnone
  · rw [get_of_first hopen hd, get_of_first hopen' ((h d).2 hd)]
  · rcases first_or s' k name with ⟨d, hd⟩ | hnone'
    · obtain ⟨hmem, hnamed⟩ := ((h d).1 hd).mem
      exact absurd hnamed (hnone d hmem)
    · rw [get_of_forall_not hopen hnone, get_of_forall_not hopen' hnone']

theorem pods_eq_ok {l : List Pod} (hopen : s.isOpen = true) (hns : ns ≠ []) :
    s.pods ns = .ok l ↔ List.Forall₂ (fun d o => decode .pod d = .ok o) (s.podsOf ns) l := by
  rw [pods_eq hopen hns, mapError_eq_ok, mapM_eq_ok]

/-- Pods that are listed are in the namespace that was asked for. -/
theorem pods_eq_ok_namespace {l : List Pod} {o : Pod} (hopen : s.isOpen = true) (hns : ns ≠ [])
    (h : s.pods ns = .ok l) (ho : o ∈ l) : o.metadata.namespaceName = ns := by
  have hdecoded := (pods_eq_ok hopen hns).1 h
  obtain ⟨i, hi, rfl⟩ := List.mem_iff_getElem.1 ho
  have hi' : i < (s.podsOf ns).length := hdecoded.length_eq ▸ hi
  have hselected : (s.podsOf ns)[i].textAt? ["metadata", "namespace"] = some ns :=
    beq_iff_eq.1 (List.mem_filter.1 (List.getElem_mem hi')).2
  have hf : (⟨["namespace"], .text, ObjectMeta.namespaceName⟩ : PartField ObjectMeta) ∈
      ObjectMeta.fields := by
    simp [ObjectMeta.fields]
  calc l[i].metadata.namespaceName
      = metadataText "namespace" (s.podsOf ns)[i] :=
        (metadataText_of_decode hf (hdecoded.get hi' hi)).symm
    _ = ns := by rw [metadataText_eq, hselected, Option.getD_some]

/-- In a snapshot that is open, a query by name answers with the first document of its kind that it
is for : what this is decoded to, an object with that name, or why it cannot be decoded. Only where
there is none, nothing is found. A query for the pods of a namespace answers with all that say they
are in it, in order, and fails just if one of them cannot be decoded. Another snapshot in which the
same is found gives the same answers. -/
theorem query_selected (hopen : s.isOpen = true) :
    (∀ (k : Kind) (name : Bytes),
      (∀ d, First s k name d → s.get k name = decode k d) ∧
      ((∃ st, s.get k name = .error st ∧ st.code = .notFound) ↔ ∀ d ∈ s.ofKind k, ¬Named name d) ∧
      ((∃ st, s.get k name = .error st ∧ st.code = .parseError) ↔
        ∃ d st, First s k name d ∧ decode k d = .error st) ∧
      (∀ o, s.get k name = .ok o → (k.metadata o).name = name) ∧
      ∀ s' : Snapshot, s'.isOpen = true → (∀ d, First s' k name d ↔ First s k name d) →
        s'.get k name = s.get k name) ∧
    ∀ ns : Bytes, ns ≠ [] →
      (∀ l, s.pods ns = .ok l ↔ List.Forall₂ (fun d o => decode .pod d = .ok o) (s.podsOf ns) l) ∧
      (∀ l, s.pods ns = .ok l → ∀ o ∈ l, o.metadata.namespaceName = ns) ∧
      ((∃ st, s.pods ns = .error st) ↔ ∃ d ∈ s.podsOf ns, ∃ st, decode .pod d = .error st) ∧
      ∀ s' : Snapshot, s'.isOpen = true → s'.podsOf ns = s.podsOf ns → s'.pods ns = s.pods ns := by
  refine ⟨fun k name => ⟨fun d hd => get_of_first hopen hd, ⟨?_, ?_⟩, ⟨?_, ?_⟩,
    fun o h => get_eq_ok_name hopen h, fun s' hopen' h => get_congr hopen hopen' h⟩,
    fun ns hns => ⟨fun l => pods_eq_ok hopen hns, fun l h o ho => pods_eq_ok_namespace hopen hns h ho,
      ?_, fun s' hopen' h => by rw [pods_eq hopen hns, pods_eq hopen' hns, h]⟩⟩
  · rintro ⟨st, hget, hcode⟩
    rcases first_or s k name with ⟨d, hd⟩ | hnone
    · rw [get_of_first hopen hd] at hget
      cases hcode.symm.trans (code_of_decode_error hget)
    · exact hnone
  · exact fun hnone => ⟨_, get_of_forall_not hopen hnone, rfl⟩
  · rintro ⟨st, hget, hcode⟩
    rcases first_or s k name with ⟨d, hd⟩ | hnone
    · exact ⟨d, st, hd, (get_of_first hopen hd).symm.trans hget⟩
    · cases (get_of_forall_not hopen hnone).symm.trans hget
      cases hcode
  · rintro ⟨d, st, hd, hdecode⟩
    exact ⟨st, (get_of_first hopen hd).trans hdecode, code_of_decode_error hdecode⟩
  · rw [pods_eq hopen hns, ← mapM_eq_error]
    simp only [mapError_eq_error]
    exact ⟨fun ⟨_, e, he, _⟩ => ⟨e, he⟩, fun ⟨e, he⟩ => ⟨_, e, he, rfl⟩⟩

/-- The manifest of a pod with this metadata. -/
def podManifest (name ns : Bytes) : Bytes × Yaml :=
  ("Pod", .map [(.scalar "metadata", .map [(.scalar "name", .scalar name),
    (.scalar "namespace", .scalar ns)])])

/-- A pod, and a proxy without a name. -/
def sparse : Snapshot where
  path := "snap"
  isOpen := true
  documents := [podManifest "dns-1" "dns", ("Proxy", .map [])]

/-- The same with a node that cannot be decoded, and a pod in another namespace that cannot. -/
def crowded : Snapshot where
  path := "snap"
  isOpen := true
  documents := [("Node", .map [(.scalar "status", .map [(.scalar "images", .scalar "none")])]),
    podManifest "dns-1" "dns",
    ("Pod", .map [(.scalar "metadata", .map [(.scalar "namespace", .scalar "etcd"),
      (.scalar "labels", .seq [])])]),
    ("Proxy", .map [])]

/-- What is in the way does not show : the pod of the namespace is found by its name, and both
snapshots give the same answers for the namespace and for a proxy that neither has. -/
theorem crowded_selected : sparse.isOpen = true ∧ crowded.isOpen = true ∧
    (∃ o : Pod, crowded.get .pod "dns-1" = .ok o ∧ o.metadata.name = "dns-1") ∧
    crowded.pods "dns" = sparse.pods "dns" ∧
    (∃ l, crowded.pods "dns" = .ok l ∧ ∀ o ∈ l, o.metadata.namespaceName = "dns") ∧
    crowded.get .proxy "cluster" = sparse.get .proxy "cluster" ∧
    ∃ st, crowded.get .proxy "cluster" = .error st ∧ st.code = .notFound := by
  obtain ⟨hget, hpods⟩ := query_selected (s := crowded) rfl
  obtain ⟨hfirst, -, -, hname, -⟩ := hget .pod "dns-1"
  obtain ⟨-, hnone, -, -, hproxies⟩ := hget .proxy "cluster"
  obtain ⟨-, hnamespace, -, hsame⟩ := hpods "dns" (by decide)
  have hpod : First crowded .pod "dns-1" (podManifest "dns-1" "dns").2 :=
    ⟨[], _, rfl, .inl rfl, nofun⟩
  have hanswer : crowded.get .pod "dns-1" =
      .ok { metadata := { name := "dns-1", namespaceName := "dns" } } :=
    (hfirst _ hpod).trans (by decide +kernel)
  refine ⟨rfl, rfl, ⟨_, hanswer, hname _ hanswer⟩, (hsame sparse rfl rfl).symm, ?_,
    (hproxies sparse rfl fun d => Iff.rfl).symm, hnone.2 ?_⟩
  · have hl : crowded.pods "dns" =
        .ok [{ metadata := { name := "dns-1", namespaceName := "dns" } }] := by
      decide +kernel
    exact ⟨_, hl, hnamespace _ hl⟩
  · intro d hd
    cases List.mem_singleton.1 (show d ∈ [Yaml.map []] from hd)
    rintro (hnamed | ⟨hempty, -⟩)
    · cases show (none : Option Bytes) = some "cluster" from hnamed
    · exact absurd hempty (by decide)

/-- The empty name finds what has no name. -/
theorem nameless_found :
    (∀ d ∈ sparse.ofKind .proxy, d.textAt? ["metadata", "name"] = none) ∧
      sparse.get .proxy [] = .ok {} := by
  refine ⟨fun d hd => ?_, by decide +kernel⟩
  cases List.mem_singleton.1 (show d ∈ [Yaml.map []] from hd)
  rfl

end Snapshot

end ClusterEvidence
