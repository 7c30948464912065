import ClusterEvidence.Gather.Gatherer
import ClusterEvidence.Proofs.Batch.Handovers
import ClusterEvidence.Proofs.Files.Path

/-!
# The records of a batch

`Gatherer.trace` is what happens in a batch. A routine keeps what asking its source and looking
around keep, and its records have what the records of single resources have (`routines_make`).

From a source whose names hold no zero bytes (`Source.Plain`), every record that a routine
produces is plain (`routines_plain`) : its content has bytes whatever the surroundings are, it
brings no fingerprint, its name leads into a directory and has no zero byte behind the last
slash, and its file ends in `.json`, but for the identifier of the cluster, which is in
`config/id`.
-/

namespace ClusterEvidence

open Surroundings (onSnd)

variable {σ ε : Type}

/-! ## Plain records -/

/-- The bytes of the content, which do not depend on the surroundings and leave them as
they are. -/
def Content.Has (c : Content ε) (bytes : Bytes) : Prop := ∀ e, c.marshal e = (.ok bytes, e)

/-- A record as batches produce them. -/
structure Record.Plain (r : Record ε) : Prop where
  fingerprint : r.fingerprint = []
  item : ∃ c, r.item = some c ∧ (∃ bytes, c.Has bytes) ∧
    (c.ext = "json" ∨ c.ext = [] ∧ r.name = "config/id")
  last : ∃ dir s, r.name = Path.below dir s ∧ Path.slash ∉ s ∧ (0 : UInt8) ∉ s

/-- A path that leads into a directory has a last part there. -/
theorem Path.exists_last_part_below (dir : Bytes) {s : Bytes} (hs : (0 : UInt8) ∉ s) :
    ∃ dir' s', Path.below dir s = Path.below dir' s' ∧ Path.slash ∉ s' ∧ (0 : UInt8) ∉ s' := by
  by_cases hslash : Path.slash ∈ s
  · obtain ⟨between, last, rfl, hlast⟩ := Path.exists_last_part hslash
    refine ⟨Path.below dir between, last, ?_, hlast, fun h => hs ?_⟩
    · simp [Path.below]
    · exact List.mem_append_right _ (List.mem_cons_of_mem _ h)
  · exact ⟨dir, s, rfl, hslash, hs⟩

/-- A record of JSON in a directory. -/
theorem Record.plain_json (dir : Bytes) {name s : Bytes} {t : Nanoseconds} {c : Content ε}
    (hname : name = Path.below dir s) (hs : (0 : UInt8) ∉ s) (hext : c.ext = "json")
    (hc : ∃ bytes, c.Has bytes) :
    Record.Plain { name := name, captured := t, item := some c } where
  fingerprint := rfl
  item := ⟨c, rfl, hc, .inl hext⟩
  last := hname ▸ Path.exists_last_part_below dir hs

/-- A report has bytes, and leads into the directory of its namespace. -/
theorem Record.plain_report (ns : Bytes) (t : Nanoseconds) (entries : List ReportEntry) :
    Record.Plain (ε := ε) ⟨ns ++ "/gathers", t, [], some (.report entries)⟩ where
  fingerprint := rfl
  item := ⟨_, rfl, ⟨_, fun _ => rfl⟩, .inl rfl⟩
  last := ⟨ns, "gathers", rfl, by decide, by decide⟩

/-- The names that a source gives have no zero bytes, and asking it keeps `I`. -/
structure Source.Plain (I : σ → Prop) (src : Source σ) : Prop where
  operators : Keeps I (fun r => ∀ l, r = .ok l → ∀ o ∈ l,
    (0 : UInt8) ∉ o.metadata.name ∧ ∀ ns ∈ o.namespaces, (0 : UInt8) ∉ ns) src.operators
  nodes : Keeps I (fun r => ∀ l, r = .ok l → ∀ o ∈ l, (0 : UInt8) ∉ o.metadata.name) src.nodes
  pods : ∀ ns, Keeps I (fun r => ∀ l, r = .ok l → ∀ p ∈ l,
    (0 : UInt8) ∉ p.metadata.name ∧ (0 : UInt8) ∉ p.metadata.namespaceName) (src.pods ns)
  get : ∀ k name, Keeps I (fun _ => True) (src.get k name)

/-- The same source asked from a state that carries `κ` as well. -/
def Source.beside (κ : Type) (src : Source σ) : Source (κ × σ) where
  operators := onSnd src.operators
  nodes := onSnd src.nodes
  pods := fun ns => onSnd (src.pods ns)
  get := fun k name => onSnd (src.get k name)

theorem Source.Plain.beside {κ : Type} {J : κ × σ → Prop} {src : Source σ}
    (h : ∀ k, src.Plain fun s => J (k, s)) : (src.beside κ).Plain J where
  operators := .onSnd fun k => (h k).operators
  nodes := .onSnd fun k => (h k).nodes
  pods ns := .onSnd fun k => (h k).pods ns
  get kind name := .onSnd fun k => (h k).get kind name

/-- What lists hold has `A`, and asking keeps `I`. -/
structure Source.Gives (A : (k : Kind) → k.Object → Prop) (I : σ → Prop) (src : Source σ) :
    Prop where
  operators : Keeps I (fun r => ∀ l, r = .ok l → ∀ o ∈ l, A .clusterOperator o) src.operators
  nodes : Keeps I (fun r => ∀ l, r = .ok l → ∀ o ∈ l, A .node o) src.nodes
  pods : ∀ ns, Keeps I (fun r => ∀ l, r = .ok l → ∀ p ∈ l, A .pod p) (src.pods ns)
  get : ∀ k name, Keeps I (fun _ => True) (src.get k name)

namespace Gatherer

variable (g : Gatherer) (env : Surroundings σ) (src : Source σ)

/-- What happens in a batch that starts with a cached version and in a state. -/
def trace (record : Record ε → StateM σ Status) (ns : Bytes) (s : VersionCache × σ) :
    List (BatchEvent ε) :=
  batchTrace (env.beside VersionCache) (fun r => onSnd (record r)) ns (g.routines env src) s

variable {g env src} {I : σ → Prop} {A : (k : Kind) → k.Object → Prop} {P : Record ε → Prop}

/-! ## Routines -/

/-- The records of listed resources with `A` have `P`, and so have those of single resources. -/
structure Makes (g : Gatherer) (A : (k : Kind) → k.Object → Prop) (P : Record ε → Prop) :
    Prop where
  operator : ∀ o : ClusterOperator, A .clusterOperator o → ∀ t,
    P ⟨"config/clusteroperator/" ++ o.metadata.name, t, [], some (g.hidden .clusterOperator o)⟩
  pod : ∀ (ns : Bytes) (p : Pod), A .pod p → ∀ t,
    P ⟨"config/pod/" ++ (if p.metadata.namespaceName.isEmpty then ns else p.metadata.namespaceName)
      ++ "/" ++ p.metadata.name, t, [], some (g.hidden .pod p)⟩
  node : ∀ o : Node, A .node o → ∀ t,
    P ⟨"config/node/" ++ o.metadata.name, t, [], some (g.hidden .node o)⟩
  id : ∀ (s : Bytes) (t : Nanoseconds), P ⟨"config/id", t, [], some (.raw s)⟩
  single : ∀ (k : Kind) (o : k.Object) (s : Bytes) (c : Content ε), (0 : UInt8) ∉ s →
    c = g.hidden k o ∨ c = shown k o → ∀ t, P ⟨Path.below "config" s, t, [], some c⟩

/-- Where nothing is asked of the records, only what the routines keep is left. -/
theorem makes_any : g.Makes (ε := ε) A fun _ => True :=
  ⟨fun _ _ _ => trivial, fun _ _ _ _ => trivial, fun _ _ _ => trivial, fun _ _ => trivial,
    fun _ _ _ _ _ _ _ => trivial⟩

theorem whenFetched_keeps {α : Type} {r : Fetched α} {act : α → StateM σ (Outcome ε)}
    (hact : ∀ x, r = .ok x → Keeps I (fun out => ∀ r ∈ out.records, P r) (act x)) :
    Keeps I (fun out => ∀ r ∈ out.records, P r) (whenFetched r act) := by
  cases r with
  | ok x => exact hact x rfl
  | error st =>
    refine .pure ?_
    unfold failed
    split
    · simp
    · simp

theorem single_keeps (henv : env.Steady I) {name : Bytes} {c : Content ε}
    (h : ∀ t, P { name := name, captured := t, item := some c }) :
    Keeps I (fun out => ∀ r ∈ out.records, P r) (single env name c) :=
  (Record.now_keeps henv name h).bind fun r hr => .pure (by simpa using hr)

theorem podRecords_make (hg : g.Makes A P) (henv : env.Steady I) (hsrc : src.Gives A I)
    (ns operator : Bytes) :
    Keeps I (fun rs => ∀ r ∈ rs, P r) (g.podRecords env src ns operator) := by
  refine (hsrc.pods ns).bind fun r hr => ?_
  cases r with
  | error st => exact (henv.note _ _).bind fun _ _ => .pure (by simp)
  | ok pods =>
    exact .mapM fun p hp =>
      Record.now_keeps henv _ (hg.pod ns p (hr pods rfl p (List.mem_filter.1 hp).1))

theorem clusterOperators_make (hg : g.Makes A P) (henv : env.Steady I) (hsrc : src.Gives A I) :
    Keeps I (fun out => ∀ r ∈ out.records, P r) (g.clusterOperators env src) := by
  refine hsrc.operators.bind fun r hr => whenFetched_keeps fun l hl => ?_
  have hoperators : Keeps I (fun rs => ∀ r ∈ rs, P r)
      ((l.filter g.recordsOperator).mapM (g.operatorRecord env)) :=
    .mapM fun o ho =>
      Record.now_keeps henv _ (hg.operator o (hr l hl o (List.mem_filter.1 ho).1))
  have hpods : Keeps I (fun rss => ∀ rs ∈ rss, ∀ r ∈ rs, P r)
      ((evidenceNamespaces l).mapM fun x => g.podRecords env src x.1 x.2) :=
    .mapM fun x _ => podRecords_make hg henv hsrc x.1 x.2
  refine hoperators.bind fun rs hrs => hpods.bind fun rss hrss => .pure fun r hr => ?_
  rcases List.mem_append.1 hr with hr | hr
  · exact hrs r hr
  · obtain ⟨rs', hrs', hr⟩ := List.mem_flatten.1 hr
    exact hrss rs' hrs' r hr

theorem nodes_make (hg : g.Makes A P) (henv : env.Steady I) (hsrc : src.Gives A I) :
    Keeps I (fun out => ∀ r ∈ out.records, P r) (g.nodes env src) := by
  refine hsrc.nodes.bind fun r hr => whenFetched_keeps fun l hl => ?_
  have hnodes : Keeps I (fun rs => ∀ r ∈ rs, P r)
      ((l.filter fun o => !o.isHealthy).mapM fun o =>
        Record.now env ("config/node/" ++ o.metadata.name) (g.hidden .node o)) :=
    .mapM fun o ho => Record.now_keeps henv _ (hg.node o (hr l hl o (List.mem_filter.1 ho).1))
  exact hnodes.bind fun rs hrs => .pure hrs

theorem singleton_make (hg : g.Makes A P) (henv : env.Steady I) (hsrc : src.Gives A I) (k : Kind)
    {name s : Bytes} (hname : name = Path.below "config" s) (hs : (0 : UInt8) ∉ s)
    {content : k.Object → Content ε}
    (hcontent : ∀ o, content o = g.hidden k o ∨ content o = shown k o) :
    Keeps I (fun out => ∀ r ∈ out.records, P r) (g.singleton env src k name content) :=
  (hsrc.get k _).bind fun _ _ => whenFetched_keeps fun o _ => single_keeps henv fun t =>
    hname ▸ hg.single k o s _ hs (hcontent o) t

variable (env) in
theorem remember_run (v : ClusterVersion) (c : VersionCache) (s : σ) :
    remember env v (c, s) =
      let u := c.update v.metadata.resourceVersion v
      if u.1 then
        onSnd (env.note .debug ("Cached cluster version " ++ v.metadata.name
          ++ " (resourceVersion " ++ v.metadata.resourceVersion ++ ")")) (u.2, s)
      else ((), (u.2, s)) := by
  show (if (c.update v.metadata.resourceVersion v).1 then _ else _ : StateM _ _) _ = _
  dsimp only
  split
  · rfl
  · rfl

/-- Remembering a version keeps what messages keep. -/
theorem remember_keeps (henv : env.Steady I) (v : ClusterVersion) :
    Keeps (fun s : VersionCache × σ => I s.2) (fun _ => True) (remember env v) := by
  rintro ⟨c, s⟩ hs
  rw [remember_run]
  dsimp only
  split
  · exact Keeps.onSnd (J := fun s : VersionCache × σ => I s.2) (fun _ => henv.note _ _) _ hs
  · exact ⟨trivial, hs⟩

/-- The routine of the version makes a record of it. -/
theorem clusterVersion_make (hg : g.Makes A P) (henv : env.Steady I) (hsrc : src.Gives A I) :
    Keeps (fun s => I s.2) (fun out => ∀ r ∈ out.records, P r) (g.clusterVersion env src) := by
  refine Keeps.bind (.onSnd fun _ => hsrc.get .clusterVersion _) fun r _ => ?_
  refine whenFetched_keeps fun v _ => (remember_keeps henv v).bind fun _ _ => ?_
  exact .onSnd fun _ => single_keeps henv (hg.single .clusterVersion v "version" _ (by decide)
    (.inl rfl))

/-- The routine of the identity makes a record of it. -/
theorem clusterId_make (hg : g.Makes A P) (henv : env.Steady I) :
    Keeps (fun s => I s.2) (fun out => ∀ r ∈ out.records, P r) (clusterId env) := by
  rintro ⟨⟨e⟩, s⟩ hs
  cases e with
  | none => exact ⟨fun r (hr : r ∈ []) => absurd hr List.not_mem_nil, hs⟩
  | some e => exact single_keeps henv (hg.id e.2.clusterId) s hs

/-- Every routine keeps what asking and looking around keep, and its records have what the
records of resources have. -/
theorem routines_make (hg : g.Makes A P) (henv : env.Steady I) (hsrc : src.Gives A I) :
    ∀ x ∈ g.routines env src, Keeps (fun s => I s.2) (fun out => ∀ r ∈ out.records, P r) x.run := by
  have hstateless : ∀ (name : Bytes) {run : StateM σ (Outcome ε)},
      Keeps I (fun out => ∀ r ∈ out.records, P r) run →
      Keeps (fun s => I s.2) (fun out => ∀ r ∈ out.records, P r) (stateless name run).run :=
    fun _ _ h => .onSnd fun _ => h
  have hhidden := fun (k : Kind) {name : Bytes} (s : Bytes) (hname : name = Path.below "config" s)
      (hs : (0 : UInt8) ∉ s) =>
    singleton_make hg henv hsrc k hname hs fun o => .inl (Eq.refl (g.hidden k o))
  have hshown := fun (k : Kind) {name : Bytes} (s : Bytes) (hname : name = Path.below "config" s)
      (hs : (0 : UInt8) ∉ s) =>
    singleton_make hg henv hsrc k hname hs fun o => .inr (Eq.refl (shown k o))
  simp only [routines, List.forall_mem_cons]
  exact ⟨hstateless _ (clusterOperators_make hg henv hsrc), hstateless _ (nodes_make hg henv hsrc),
    clusterVersion_make hg henv hsrc, clusterId_make hg henv,
    hstateless _ (hhidden .infrastructure "infrastructure" rfl (by decide)),
    hstateless _ (hshown .network "network" rfl (by decide)),
    hstateless _ (hshown .authentication "authentication" rfl (by decide)),
    hstateless _ (hhidden .featureGate "featuregate" rfl (by decide)),
    hstateless _ (hshown .oauth "oauth" rfl (by decide)),
    hstateless _ (hhidden .ingress "ingress" rfl (by decide)),
    hstateless _ (hhidden .proxy "proxy" rfl (by decide)), by simp⟩

/-! ## Plain records of a batch -/

variable {a : Anonymizer}

/-- A resource that is shown in part has bytes. -/
theorem hidden_has (hg : g.anonymizer = some a) (k : Kind) (o : k.Object) :
    ∃ bytes, (g.hidden k o : Content ε).Has bytes := by
  rw [hidden, hg]
  exact ⟨_, fun _ => rfl⟩

/-- The names of a resource have no zero bytes. -/
def PlainNames : (k : Kind) → k.Object → Prop
  | .clusterOperator, o => (0 : UInt8) ∉ o.metadata.name ∧ ∀ ns ∈ o.namespaces, (0 : UInt8) ∉ ns
  | .pod, p => (0 : UInt8) ∉ p.metadata.name ∧ (0 : UInt8) ∉ p.metadata.namespaceName
  | .node, o => (0 : UInt8) ∉ o.metadata.name
  | _, _ => True

/-- Resources with plain names have plain records. The identifier of the cluster is no JSON, and
its file has no ending. -/
theorem makes_plain (hg : g.anonymizer = some a) :
    g.Makes PlainNames (Record.Plain (ε := ε)) where
  operator o ho _ :=
    Record.plain_json "config/clusteroperator" rfl ho.1 rfl (hidden_has hg .clusterOperator o)
  pod _ p hp _ := Record.plain_json _ (List.append_assoc _ _ _) hp.1 rfl (hidden_has hg .pod p)
  node o ho _ := Record.plain_json "config/node" rfl ho rfl (hidden_has hg .node o)
  id _ _ := ⟨rfl, ⟨_, rfl, ⟨_, fun _ => rfl⟩, .inr ⟨rfl, rfl⟩⟩,
    ⟨"config", "id", rfl, by decide, by decide⟩⟩
  single k o s c hs hc t := by
    rcases hc with rfl | rfl
    · exact Record.plain_json "config" rfl hs rfl (hidden_has hg k o)
    · exact Record.plain_json "config" rfl hs rfl ⟨_, fun _ => rfl⟩

/-- All records of an outcome are plain. -/
def PlainOutcome (out : Outcome ε) : Prop := ∀ r ∈ out.records, r.Plain

/-- Every record that a routine produces is plain. -/
theorem routines_plain (hg : g.anonymizer = some a) (henv : env.Steady I) (hsrc : src.Plain I) :
    ∀ x ∈ g.routines (ε := ε) env src, Keeps (fun s => I s.2) PlainOutcome x.run :=
  routines_make (makes_plain hg) henv ⟨hsrc.operators, hsrc.nodes, hsrc.pods, hsrc.get⟩

end Gatherer

end ClusterEvidence
