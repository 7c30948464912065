import ClusterEvidence.Proofs.Files.Order
import ClusterEvidence.Proofs.Yaml.Overlay
import ClusterEvidence.Yaml.Subset
import Mathlib.Data.List.Sort

/-!
# Ways to lay out a snapshot

A sequence of objects can be laid out as manifests in many ways : in one file or spread over
several (`Snapshot.Holds`), as documents of their own or as items of lists, of lists in lists,
with or without their kind where the list is named for it, and with null documents and documents
without a kind in between (`Indexed.PresentsAll`). What a document stands for depends on the kind
that is given to items without one in its place (`Indexed.Presents`).

Whatever the layout, indexing keeps exactly the objects, in order, each under its kind
(`Indexed.keptOf_of_presents`). A document may have got its kind from the list, but a query reads
no more of it than of the object, since decoding does not look at the kind (`decode_erase_kind`).
So a snapshot answers every query as if each object were a document of its own
(`Snapshot.openDir_layout`).
-/

namespace ClusterEvidence

/-! ## Apart from the kind -/

namespace Yaml

variable {k k' : Bytes} {d : Yaml}

theorem child_erase_of_ne (h : k' ≠ k) (d : Yaml) :
    child k' (some (d.erase k)) = child k' (some d) := by
  cases d with
  | map l => exact get?_erase_of_ne h (map l)
  | null => rfl
  | scalar s => rfl
  | seq l => rfl

theorem erase_set (k : Bytes) (v d : Yaml) : (set k v d).erase k = d.erase k := by
  have hentries : ∀ l : List (Yaml × Yaml),
      (setEntry k v l).filter (fun e => !keyIs k e.1) = l.filter fun e => !keyIs k e.1 := by
    intro l
    induction l with
    | nil => simp [setEntry, keyIs]
    | cons e rest ih =>
      unfold setEntry
      split
      · next he => simp [he]
      · next he => rw [List.filter_cons, List.filter_cons, ih]
  cases d with
  | map l => exact congrArg map (hentries l)
  | null => rfl
  | scalar s => rfl
  | seq l => rfl

end Yaml

theorem metadataText_erase_kind (k : Bytes) (d : Yaml) :
    metadataText k (d.erase "kind") = metadataText k d := by
  rw [metadataText, Yaml.get?_erase_of_ne (by decide), metadataText]

/-- The kind is not read when a resource is decoded. -/
theorem decodeFields_erase_kind (k : Kind) (d : Yaml) :
    decodeFields k (d.erase "kind") = decodeFields k d := by
  have hmetadata : Yaml.child "metadata" (some (d.erase "kind")) = Yaml.child "metadata" (some d) :=
    Yaml.child_erase_of_ne (by decide) d
  have hspec : Yaml.child "spec" (some (d.erase "kind")) = Yaml.child "spec" (some d) :=
    Yaml.child_erase_of_ne (by decide) d
  have hstatus : Yaml.child "status" (some (d.erase "kind")) = Yaml.child "status" (some d) :=
    Yaml.child_erase_of_ne (by decide) d
  cases k with
  | clusterOperator => simp only [decodeFields, ClusterOperator.decode, hmetadata, hstatus]
  | clusterVersion => simp only [decodeFields, ClusterVersion.decode, hmetadata, hspec, hstatus]
  | infrastructure => simp only [decodeFields, Infrastructure.decode, hmetadata, hstatus]
  | network => simp only [decodeFields, Network.decode, hmetadata, hspec]
  | authentication => simp only [decodeFields, Authentication.decode, hmetadata, hspec]
  | featureGate => simp only [decodeFields, FeatureGate.decode, hmetadata, hspec]
  | oauth => simp only [decodeFields, OAuth.decode, hmetadata, hspec]
  | ingress => simp only [decodeFields, Ingress.decode, hmetadata, hspec]
  | proxy => simp only [decodeFields, Proxy.decode, hmetadata, hspec, hstatus]
  | node => simp only [decodeFields, Node.decode, hmetadata, hspec, hstatus]
  | pod => simp only [decodeFields, Pod.decode, hmetadata, hspec, hstatus]

/-- Decoding does not look at the kind. -/
theorem decode_erase_kind (k : Kind) (d : Yaml) : decode k (d.erase "kind") = decode k d := by
  simp only [decode, Yaml.isMap_erase, decodeFields_erase_kind, metadataText_erase_kind]

/-- A kind and a document, apart from the kind in there. -/
def bare (e : Bytes × Yaml) : Bytes × Yaml := (e.1, e.2.erase "kind")

/-! ## What a document stands for -/

namespace Indexed

variable {given : Option Bytes} {d o : Yaml} {ds items objects : List Yaml}
  {entries : List (Yaml × Yaml)}

/-- The kind of a document in a place where documents without one are given one. -/
def kindIn (given : Option Bytes) (d : Yaml) : Bytes :=
  if (kindOf d).isEmpty then given.getD [] else kindOf d

/-- An object : a document of a kind that is not the kind of a list. -/
structure IsObject (o : Yaml) : Prop where
  kind : kindOf o ≠ []
  notList : isList (kindOf o) = false

mutual

/-- The document stands for the objects, in a place where documents without a kind are given
one. -/
inductive Presents : Option Bytes → Yaml → List Yaml → Prop
  | object {given : Option Bytes} {o : Yaml} (ho : IsObject o) : Presents given o [o]
  /-- The object but for its kind, which the place gives it. -/
  | kindless {d o : Yaml} (ho : IsObject o) (hkind : kindOf d = [])
      (hbare : d.erase "kind" = o.erase "kind") : Presents (some (kindOf o)) d [o]
  /-- A list, which may itself be without a kind in a list of lists. -/
  | list {given : Option Bytes} {d : Yaml} {items objects : List Yaml}
      (hlist : isList (kindIn given d) = true) (hitems : d.get? "items" = some (.seq items))
      (h : PresentsAll (itemKind (kindIn given d)) items objects) : Presents given d objects
  | notMap {given : Option Bytes} {d : Yaml} (h : d.isMap = false) : Presents given d []
  | noKind {d : Yaml} (h : kindOf d = []) : Presents none d []

/-- The documents stand for the objects, one after the other. -/
inductive PresentsAll : Option Bytes → List Yaml → List Yaml → Prop
  | nil {given : Option Bytes} : PresentsAll given [] []
  | cons {given : Option Bytes} {d : Yaml} {ds objects objects' : List Yaml}
      (h : Presents given d objects) (hs : PresentsAll given ds objects') :
      PresentsAll given (d :: ds) (objects ++ objects')

end

/-- The documents that are kept of those that a document stands for. -/
def keptOf (given : Option Bytes) (d : Yaml) : List (Bytes × Yaml) :=
  (ofYaml given d).filterMap document?

theorem exists_map_of_kindOf (h : kindOf d ≠ []) : ∃ entries, d = .map entries := by
  cases d with
  | map l => exact ⟨l, rfl⟩
  | null => exact absurd rfl h
  | scalar s => exact absurd rfl h
  | seq l => exact absurd rfl h

/-- What a document in such a place is kept as has that kind and is the document apart from it. -/
theorem bare_withKind (given : Option Bytes) (entries : List (Yaml × Yaml)) :
    bare (withKind given entries) = bare (kindIn given (.map entries), .map entries) := by
  unfold withKind kindIn
  cases given with
  | none => cases kindOf (.map entries) <;> rfl
  | some k =>
    cases hown : (kindOf (.map entries)).isEmpty with
    | true => simp only [hown, if_true, Option.getD_some, bare, Yaml.erase_set]
    | false => simp only [hown, Bool.false_eq_true, if_false]

theorem withKind_fst (given : Option Bytes) (entries : List (Yaml × Yaml)) :
    (withKind given entries).1 = kindIn given (.map entries) :=
  congrArg Prod.fst (bare_withKind given entries)

/-- A map is skipped, stands for its items or is kept, as its kind says. -/
theorem ofYaml_map (given : Option Bytes) (entries : List (Yaml × Yaml)) :
    ofYaml given (.map entries) =
      if (kindIn given (.map entries)).isEmpty then [skipped]
      else if isList (kindIn given (.map entries)) then
        ofListEntries (itemKind (kindIn given (.map entries))) entries
      else [kept (withKind given entries).1 (withKind given entries).2] := by
  rw [ofYaml, ← withKind_fst]

theorem ofListEntries_eq (h : Yaml.lookup "items" entries = some (.seq items)) :
    ofListEntries given entries = ofItems given items := by
  induction entries with
  | nil => cases h
  | cons e rest ih =>
    obtain ⟨key, v⟩ := e
    cases hkey : Yaml.keyIs "items" key with
    | true =>
      rw [Yaml.lookup, List.find?_cons_of_pos (by exact hkey)] at h
      cases h
      rw [ofListEntries, if_pos hkey]
    | false =>
      rw [Yaml.lookup, List.find?_cons_of_neg (by simp [hkey])] at h
      cases v with
      | seq l => rw [ofListEntries, if_neg (by simp [hkey]), ih h]
      | null => rw [ofListEntries, if_neg (by simp [hkey]), ih h]; simp
      | scalar text => rw [ofListEntries, if_neg (by simp [hkey]), ih h]; simp
      | map l => rw [ofListEntries, if_neg (by simp [hkey]), ih h]; simp

/-- Items stand for themselves, one after the other. -/
theorem ofItems_eq_flatMap (given : Option Bytes) (ds : List Yaml) :
    ofItems given ds = ds.flatMap (ofYaml given) := by
  induction ds with
  | nil => rfl
  | cons d ds ih => rw [ofItems, ih, List.flatMap_cons]

/-- Nothing is kept of what is no map. -/
theorem keptOf_of_notMap (h : d.isMap = false) : keptOf given d = [] := by
  cases d with
  | map l => cases h
  | null => rfl
  | scalar s => rfl
  | seq l => rfl

theorem keptOf_of_kindIn_nil (h : kindIn given d = []) : keptOf given d = [] := by
  cases d with
  | map entries =>
    rw [keptOf, ofYaml_map, h]
    rfl
  | null => rfl
  | scalar s => rfl
  | seq l => rfl

/-- A document of a kind that is not the kind of a list is kept. -/
theorem keptOf_of_kindIn (hmap : d.isMap = true) (h : kindIn given d ≠ [])
    (hlist : isList (kindIn given d) = false) :
    (keptOf given d).map bare = [bare (kindIn given d, d)] := by
  cases d with
  | map entries =>
    rw [← bare_withKind, keptOf, ofYaml_map, if_neg (by simpa using h), hlist]
    rfl
  | null => cases hmap
  | scalar s => cases hmap
  | seq l => cases hmap

/-- Of a list, what its items stand for is kept. -/
theorem keptOf_of_isList (hlist : isList (kindIn given d) = true)
    (hitems : d.get? "items" = some (.seq items)) :
    keptOf given d = items.flatMap (keptOf (itemKind (kindIn given d))) := by
  have hkind : kindIn given d ≠ [] := by
    intro h
    rw [h] at hlist
    exact absurd hlist (by decide)
  cases d with
  | map entries =>
    rw [keptOf, ofYaml_map, if_neg (by simpa using hkind), if_pos hlist,
      ofListEntries_eq hitems, ofItems_eq_flatMap, List.filterMap_flatMap]
    rfl
  | null => cases hitems
  | scalar s => cases hitems
  | seq l => cases hitems

mutual

/-- What is kept of a document are the objects that it stands for, each under its kind. -/
theorem keptOf_of_presents {given : Option Bytes} {d : Yaml} {objects : List Yaml} :
    Presents given d objects → (keptOf given d).map bare = objects.map fun o => bare (kindOf o, o)
  | .object ho => by
    obtain ⟨entries, rfl⟩ := exists_map_of_kindOf ho.kind
    have hkind : kindIn given (.map entries) = kindOf (.map entries) :=
      if_neg (by simpa using ho.kind)
    rw [keptOf_of_kindIn rfl (by rw [hkind]; exact ho.kind) (by rw [hkind]; exact ho.notList), hkind]
    rfl
  | @Presents.kindless d o ho hd hbare => by
    obtain ⟨entries, rfl⟩ := exists_map_of_kindOf ho.kind
    have hmap : d.isMap = true := by
      rw [← Yaml.isMap_erase "kind", hbare]
      rfl
    have hkind : kindIn (some (kindOf (.map entries))) d = kindOf (.map entries) := by
      rw [kindIn, hd]
      rfl
    rw [keptOf_of_kindIn hmap (by rw [hkind]; exact ho.kind) (by rw [hkind]; exact ho.notList), hkind]
    show [(_, d.erase "kind")] = _
    rw [hbare]
    rfl
  | .list hlist hitems h => by
    rw [keptOf_of_isList hlist hitems, keptOf_of_presentsAll h]
  | .notMap h => by
    rw [keptOf_of_notMap h]
    rfl
  | .noKind h => by
    rw [keptOf_of_kindIn_nil (by rw [kindIn, h]; rfl)]
    rfl

theorem keptOf_of_presentsAll {given : Option Bytes} {ds objects : List Yaml} :
    PresentsAll given ds objects →
      (ds.flatMap (keptOf given)).map bare = objects.map fun o => bare (kindOf o, o)
  | .nil => rfl
  | .cons h hs => by
    rw [List.flatMap_cons, List.map_append, keptOf_of_presents h, keptOf_of_presentsAll hs,
      List.map_append]

end

mutual

theorem Presents.isObject {given : Option Bytes} {d : Yaml} {objects : List Yaml} :
    Presents given d objects → ∀ o ∈ objects, IsObject o
  | .object ho => by simpa using ho
  | .kindless ho _ _ => by simpa using ho
  | .list _ _ h => h.isObject
  | .notMap _ => by simp
  | .noKind _ => by simp

theorem PresentsAll.isObject {given : Option Bytes} {ds objects : List Yaml} :
    PresentsAll given ds objects → ∀ o ∈ objects, IsObject o
  | .nil => by simp
  | .cons h hs => by
    intro o ho
    rcases List.mem_append.1 ho with ho | ho
    · exact h.isObject o ho
    · exact hs.isObject o ho

end

/-- Objects stand for themselves. -/
theorem PresentsAll.self (given : Option Bytes) (h : ∀ o ∈ objects, IsObject o) :
    PresentsAll given objects objects := by
  induction objects with
  | nil => exact .nil
  | cons o objects ih =>
    rw [List.forall_mem_cons] at h
    exact .cons (.object h.1) (ih h.2)

end Indexed

open Indexed (keptOf IsObject Presents PresentsAll)

/-- What is kept of documents is what is kept of each. -/
theorem filterMap_indexed (docs : List Yaml) :
    (indexed docs).filterMap Indexed.document? = docs.flatMap (keptOf none) := by
  induction docs with
  | nil => rfl
  | cons d docs ih =>
    unfold indexed at ih ⊢
    rw [List.flatMap_cons, ← ih]
    cases d with
    | null => rfl
    | scalar s => rfl
    | seq l => rfl
    | map l => exact List.filterMap_append ..

namespace Snapshot

variable {σ : Type} {t t' : FileTree} {s s' : Snapshot} {path : Bytes}
  {docs objects : List Yaml}

/-! ## Answers -/

section Answers

variable (hopen : s.isOpen = s'.isOpen) (hdocs : s.documents.map bare = s'.documents.map bare)

include hdocs in
theorem ofKind_bare (k : Kind) :
    (s.ofKind k).map (Yaml.erase "kind") = (s'.ofKind k).map (Yaml.erase "kind") := by
  have hkind : ∀ s : Snapshot, (s.ofKind k).map (Yaml.erase "kind") =
      ((s.documents.map bare).filter fun e => e.1 == k.name).map Prod.snd := by
    intro s
    rw [ofKind, List.filter_map, List.map_map, List.map_map]
    rfl
  rw [hkind, hkind, hdocs]

include hopen hdocs

theorem list_eq_of_bare (k : Kind) {chosen : Yaml → Bool}
    (hchosen : ∀ d : Yaml, chosen (d.erase "kind") = chosen d) :
    s.list k chosen = s'.list k chosen := by
  have hlist : ∀ s : Snapshot, ((s.ofKind k).filter chosen).mapM (decode k) =
      (((s.ofKind k).map (Yaml.erase "kind")).filter chosen).mapM (decode k) := by
    intro s
    rw [List.filter_map, List.mapM_map, show chosen ∘ Yaml.erase "kind" = chosen from funext hchosen,
      show decode k ∘ Yaml.erase "kind" = decode k from funext (decode_erase_kind k)]
  rw [list, list, hopen, hlist, hlist, ofKind_bare hdocs]

theorem get_eq_of_bare (k : Kind) (name : Bytes) : s.get k name = s'.get k name := by
  have hname : (fun d => metadataText "name" d == name) ∘ Yaml.erase "kind" =
      fun d => metadataText "name" d == name :=
    funext fun d => by rw [Function.comp_apply, metadataText_erase_kind]
  have hfound : ((s.ofKind k).find? fun d => metadataText "name" d == name).map (Yaml.erase "kind") =
      ((s'.ofKind k).find? fun d => metadataText "name" d == name).map (Yaml.erase "kind") := by
    simpa only [List.find?_map, hname] using
      congrArg (List.find? fun d => metadataText "name" d == name) (ofKind_bare hdocs k)
  rw [get, get, hopen]
  cases h : (s.ofKind k).find? fun d => metadataText "name" d == name with
  | none =>
    rw [h, Option.map_none, eq_comm, Option.map_eq_none_iff] at hfound
    rw [hfound]
  | some d =>
    rw [h, Option.map_some, eq_comm, Option.map_eq_some_iff] at hfound
    obtain ⟨d', hd', hbare⟩ := hfound
    have hdecode : decode k d' = decode k d := by
      rw [← decode_erase_kind, hbare, decode_erase_kind]
    simp only [hd', hdecode]

/-- Answers do not depend on the kinds inside of the documents. -/
theorem source_eq_of_bare : (s.source : Source σ) = s'.source := by
  have hlist : ∀ k, s.list k (fun _ => true) = s'.list k fun _ => true :=
    fun k => list_eq_of_bare hopen hdocs k fun _ => rfl
  have hpods : ∀ ns, s.pods ns = s'.pods ns := by
    intro ns
    rw [pods, pods, list_eq_of_bare hopen hdocs .pod fun d => by rw [metadataText_erase_kind]]
  simp only [source, hlist, hpods, get_eq_of_bare hopen hdocs]

end Answers

/-! ## Opening -/

/-- The snapshot of objects that are documents of their own. -/
def ofObjects (path : Bytes) (objects : List Yaml) : Snapshot where
  path := path
  isOpen := true
  documents := objects.map fun o => (kindOf o, o)

section Reading

variable [Yaml.Reader]

/-- The manifests below a directory hold these documents. -/
structure Holds (t : FileTree) (path : Bytes) (docs : List Yaml) : Prop where
  directory : t.stat path = .ok .directory
  readable : ∃ files : List (List Yaml), files.flatten = docs ∧
    (manifestFiles t path).map (fun f => Yaml.Reader.documents? f.2) = files.map some

/-- Behind files that are well-formed, reading goes on with what is kept of their documents. -/
theorem readFiles_append (env : Surroundings σ) (x : σ) {found : List (Bytes × Bytes)}
    {files : List (List Yaml)} (h : found.map (fun f => Yaml.Reader.documents? f.2) = files.map some)
    (rest : List (Bytes × Bytes)) (s : Snapshot) :
    ∃ x', readFiles env (found ++ rest) s x = readFiles env rest
      { s with documents := s.documents ++ files.flatten.flatMap (keptOf none) } x' := by
  induction found generalizing files s x with
  | nil =>
    obtain rfl : files = [] := by simpa using h.symm
    exact ⟨x, by simp⟩
  | cons f found ih =>
    obtain ⟨file, content⟩ := f
    cases files with
    | nil => cases h
    | cons docs files =>
      rw [List.map_cons, List.map_cons, List.cons.injEq] at h
      obtain ⟨x', hread⟩ := ih (noteSkipped env (indexed docs) x).2 h.2
        { s with documents := s.documents ++ docs.flatMap (keptOf none) }
      refine ⟨x', ?_⟩
      rw [List.flatten_cons, List.flatMap_append, ← List.append_assoc, ← hread, ← filterMap_indexed]
      simp only [List.cons_append, readFiles, h.1]
      rfl

/-- Reading files that are well-formed adds what is kept of their documents. -/
theorem readFiles_of_readable (env : Surroundings σ) (x : σ) {found : List (Bytes × Bytes)}
    {files : List (List Yaml)}
    (h : found.map (fun f => Yaml.Reader.documents? f.2) = files.map some) (s : Snapshot) :
    (readFiles env found s x).1 =
      (none, { s with documents := s.documents ++ files.flatten.flatMap (keptOf none) }) := by
  obtain ⟨x', hread⟩ := readFiles_append env x h [] s
  rw [List.append_nil] at hread
  rw [hread]
  rfl

/-- Where there is a directory, opening reads its manifests. -/
theorem openDir_of_directory (env : Surroundings σ) (x : σ) (h : t.stat s.path = .ok .directory) :
    openDir env t s x = readAll env t s.close x := by
  have hpath : s.path ≠ [] := by
    intro hempty
    rw [hempty] at h
    cases h
  rw [openDir, if_neg (by simpa using hpath), h]

/-- A directory of manifests opens as what is kept of their documents. -/
theorem openDir_eq (env : Surroundings σ) (x : σ) (h : Holds t s.path docs) :
    (openDir env t s x).1 =
      (.ok, { s with isOpen := true, documents := docs.flatMap (keptOf none) }) := by
  obtain ⟨hdir, files, rfl, hfiles⟩ := h
  have hread := readFiles_of_readable env x hfiles s.close
  cases hrun : readFiles env (manifestFiles t s.path) s.close x with
  | mk read x' =>
    rw [hrun] at hread
    cases hread
    rw [openDir_of_directory env x hdir]
    simp only [readAll, bind, StateT.bind]
    rw [show s.close.path = s.path from rfl, hrun]
    rfl

/-- The order in which files are listed does not matter. -/
theorem holds_of_perm (ht : t.Proper) (horder : t'.entries.Perm t.entries) (h : Holds t path docs) :
    Holds t' path docs where
  directory := (FileTree.stat_of_perm ht horder path).trans h.directory
  readable := by
    rw [manifestFiles_of_perm ht horder h.directory]
    exact h.readable

/-- However the objects are laid out, and in whatever order the files are listed, the snapshot
opens, counts them all and answers as if each were a document of its own. -/
theorem openDir_layout (env : Surroundings σ) (x : σ) (hdocs : Holds t s.path docs)
    (hlayout : PresentsAll none docs objects) (ht : t.Proper)
    (horder : t'.entries.Perm t.entries) :
    ∃ r, (openDir env t' s x).1 = (.ok, r) ∧ r.documents.length = objects.length ∧
      (r.source : Source σ) = (ofObjects s.path objects).source ∧
      ∀ t₀ s₀, Holds t₀ s₀.path objects →
        ∃ r₀, (openDir env t₀ s₀ x).1 = (.ok, r₀) ∧ (r.source : Source σ) = r₀.source := by
  have hkept := Indexed.keptOf_of_presentsAll hlayout
  have hself := Indexed.keptOf_of_presentsAll (PresentsAll.self none hlayout.isObject)
  refine ⟨_, openDir_eq env x (holds_of_perm ht horder hdocs), ?_, ?_, fun t₀ s₀ hobjects =>
    ⟨_, openDir_eq env x hobjects, source_eq_of_bare rfl (hkept.trans hself.symm)⟩⟩
  · simpa using congrArg List.length hkept
  · refine source_eq_of_bare rfl (hkept.trans ?_)
    rw [ofObjects, List.map_map]
    rfl

end Reading

/-- A node in a list within a list, where it has no kind of its own, and a pod in another file
behind a document without a kind. -/
theorem openDir_node_and_pod :
    let env : Surroundings Unit := ⟨pure false, fun _ _ => pure (), pure 0, pure 0⟩
    let listed : FileTree := ⟨[(["snap"], .directory),
      (["snap", "b.yml"], .file "note: x\n---\nkind: Pod\nmetadata:\n  name: p\n"),
      (["snap", "a.yaml"], .file
        "kind: List\nitems:\n- kind: NodeList\n  items:\n  - metadata:\n      name: n\n---\n---\n")]⟩
    let own : FileTree := ⟨[(["own"], .directory), (["own", "all.yaml"], .file
      "metadata:\n  name: n\nkind: Node\n---\nkind: Pod\nmetadata:\n  name: p\n")]⟩
    ∃ r r₀, (openDir env ⟨listed.entries.reverse⟩ ⟨"snap", false, []⟩ ()).1 = (.ok, r) ∧
      r.documents.length = 2 ∧ (openDir env own ⟨"own", false, []⟩ ()).1 = (.ok, r₀) ∧
      (r.source : Source Unit) = r₀.source := by
  intro env listed own
  let named (s : Bytes) : Yaml × Yaml :=
    (.scalar "metadata", .map [(.scalar "name", .scalar s)])
  let node : Yaml := .map [named "n", (.scalar "kind", .scalar "Node")]
  let pod : Yaml := .map [(.scalar "kind", .scalar "Pod"), named "p"]
  let nodes : Yaml := .map [(.scalar "kind", .scalar "NodeList"),
    (.scalar "items", .seq [.map [named "n"]])]
  let list : Yaml := .map [(.scalar "kind", .scalar "List"), (.scalar "items", .seq [nodes])]
  let note : Yaml := .map [(.scalar "note", .scalar "x")]
  have hnode : IsObject node := ⟨by decide, by decide⟩
  have hpod : IsObject pod := ⟨by decide, by decide⟩
  let texts : List (Bytes × Bytes) :=
    [("snap/a.yaml",
      "kind: List\nitems:\n- kind: NodeList\n  items:\n  - metadata:\n      name: n\n---\n---\n"),
     ("snap/b.yml", "note: x\n---\nkind: Pod\nmetadata:\n  name: p\n")]
  have htexts : manifestFiles listed "snap" = texts :=
    manifestFiles_eq (l := ["snap"]) rfl (by decide +kernel) (by decide +kernel)
  have hdocs : Holds listed "snap" [list, .null, .null, note, pod] := by
    refine ⟨by decide +kernel, [[list, .null, .null], [note, pod]], rfl, ?_⟩
    rw [htexts]
    with_unfolding_all rfl
  let ownTexts : List (Bytes × Bytes) := [("own/all.yaml",
    "metadata:\n  name: n\nkind: Node\n---\nkind: Pod\nmetadata:\n  name: p\n")]
  have hownTexts : manifestFiles own "own" = ownTexts :=
    manifestFiles_eq (l := ["own"]) rfl (by decide +kernel) (by decide +kernel)
  have hobjects : Holds own "own" [node, pod] := by
    refine ⟨by decide +kernel, [[node, pod]], rfl, ?_⟩
    rw [hownTexts]
    with_unfolding_all rfl
  have hitem : Presents (Indexed.itemKind "NodeList") (.map [named "n"]) [node] :=
    .kindless hnode (by decide) rfl
  have hnodes : Presents none nodes [node] := .list (by decide) rfl (.cons hitem .nil)
  have hlist : Presents none list [node] := .list (by decide) rfl (.cons hnodes .nil)
  have hlayout : PresentsAll none [list, .null, .null, note, pod] [node, pod] :=
    .cons hlist <| .cons (.notMap rfl) <| .cons (.notMap rfl) <|
      .cons (.noKind (by decide)) <| .cons (.object hpod) .nil
  have hproper : listed.Proper := ⟨by decide, by decide, by decide⟩
  obtain ⟨r, hopened, hcount, -, hsame⟩ :=
    openDir_layout (s := ⟨"snap", false, []⟩) env () hdocs hlayout hproper (List.reverse_perm _)
  obtain ⟨r₀, hopened₀, hsource⟩ := hsame own ⟨"own", false, []⟩ hobjects
  exact ⟨r, r₀, hopened, hcount, hopened₀, hsource⟩

end Snapshot

end ClusterEvidence
