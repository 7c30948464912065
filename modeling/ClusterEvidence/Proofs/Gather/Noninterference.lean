import ClusterEvidence.Proofs.Batch.Shown
import ClusterEvidence.Proofs.Gather.Alike
import ClusterEvidence.Proofs.Gather.Records

/-!
# Hidden fields do not show

Two batches gather from two sources that answer every query with the same status and with
resources that look alike (`Source.Alike`). If the recorders give the same answer to
records of which they can see the same, both batches hand over records of which the same
can be seen, in the same order, and end with the same status
(`gather_noninterference`) : what is hidden decides neither about a record nor about its
name, its bytes, the report or the status, by whatever way.
-/

namespace ClusterEvidence

open Surroundings (onSnd)

variable {σ τ ε : Type}

/-! ## Sources that look alike -/

/-- Every query is answered with the same status and with resources that look alike. -/
structure Source.Alike (a : Anonymizer) (R : σ → τ → Prop) (src : Source σ) (src' : Source τ) :
    Prop where
  operators : Agree R (Fetched.Alike (List.Forall₂ (Kind.Alike a .clusterOperator)))
    src.operators src'.operators
  nodes : Agree R (Fetched.Alike (List.Forall₂ (Kind.Alike a .node))) src.nodes src'.nodes
  pods : ∀ ns,
    Agree R (Fetched.Alike (List.Forall₂ (Kind.Alike a .pod))) (src.pods ns) (src'.pods ns)
  get : ∀ k name, Agree R (Fetched.Alike (k.Alike a)) (src.get k name) (src'.get k name)

/-- Nothing is cached, or versions that look alike are. -/
def VersionCache.Alike (a : Anonymizer) (c c' : VersionCache) : Prop :=
  Option.Rel (fun e e' => e.1 = e'.1 ∧ ClusterVersion.Alike a e.2 e'.2)
    c.entry c'.entry

namespace Gatherer

variable {R : σ → τ → Prop} {env : Surroundings σ} {env' : Surroundings τ} {src : Source σ}
  {src' : Source τ} {a : Anonymizer} {g : Gatherer}

/-! ## Routines -/

/-- Resources that differ in what is hidden have contents that are shown alike. -/
theorem hidden_shown (hg : g.anonymizer = some a) {k : Kind} {o o' : k.Object}
    (h : k.Alike a o o') : (g.hidden k o : Content ε).shown = (g.hidden k o').shown := by
  simp only [hidden, hg, Content.shown, Content.untimed, Content.marshal, Content.ext,
    anonymize_eq_of_alike h]

/-- Answers that are alike are worked on alike, or fail alike. -/
theorem whenFetched_agree {α β : Type} {Q : α → β → Prop} {r : Fetched α} {r' : Fetched β}
    (hr : Fetched.Alike Q r r') {act : α → StateM σ (Outcome ε)} {act' : β → StateM τ (Outcome ε)}
    (hact : ∀ x y, Q x y → Agree R Outcome.Alike (act x) (act' y)) :
    Agree R Outcome.Alike (whenFetched r act) (whenFetched r' act') := by
  cases hr with
  | ok h => exact hact _ _ h
  | error st =>
    refine Agree.pure ?_
    unfold failed
    split
    · exact ⟨.nil, rfl⟩
    · exact ⟨.nil, rfl⟩

theorem single_agree (henv : env.Alike R env') (name : Bytes) {c c' : Content ε}
    (hc : c.shown = c'.shown) :
    Agree R Outcome.Alike (single env name c) (single env' name c') :=
  (Record.now_agree henv name hc).bind fun _ _ hr => Agree.pure ⟨.cons hr .nil, rfl⟩

/-- Traversals of one list with steps that make records of which the same can be seen. -/
theorem mapM_agree {α : Type} {l : List α} {f : α → StateM σ (Record ε)}
    {f' : α → StateM τ (Record ε)}
    (h : ∀ x ∈ l, Agree R (fun r r' => r.shown = r'.shown) (f x) (f' x)) :
    Agree R (List.Forall₂ fun r r' => r.shown = r'.shown) (l.mapM f) (l.mapM f') :=
  Agree.mapM (List.forall₂_same.2 h)

theorem podRecords_agree (henv : env.Alike R env') (hsrc : src.Alike a R src')
    (ns operator : Bytes) :
    Agree R (List.Forall₂ fun r r' : Record ε => r.shown = r'.shown)
      (g.podRecords env src ns operator) (g.podRecords env' src' ns operator) := by
  refine (hsrc.pods ns).bind fun r r' hr => ?_
  cases hr with
  | error st => exact (henv.note _ _ _).bind fun _ _ _ => Agree.pure .nil
  | ok h =>
    obtain rfl := eq_of_forall₂_eq h
    exact mapM_agree fun p _ => Record.now_agree henv _ rfl

theorem clusterOperators_agree (henv : env.Alike R env') (hsrc : src.Alike a R src') :
    Agree R Outcome.Alike (g.clusterOperators (ε := ε) env src) (g.clusterOperators env' src') := by
  refine hsrc.operators.bind fun r r' hr => whenFetched_agree hr fun l l' hl => ?_
  obtain rfl := eq_of_forall₂_eq hl
  refine (mapM_agree fun o _ => Record.now_agree henv _ rfl).bind fun rs rs' hrs => ?_
  have hpods : Agree R (List.Forall₂ (List.Forall₂ fun r r' : Record ε => r.shown = r'.shown))
      ((evidenceNamespaces l).mapM fun x => g.podRecords env src x.1 x.2)
      ((evidenceNamespaces l).mapM fun x => g.podRecords env' src' x.1 x.2) :=
    Agree.mapM (List.forall₂_same.2 fun x _ => podRecords_agree henv hsrc x.1 x.2)
  exact hpods.bind fun ps ps' hps =>
    Agree.pure ⟨List.rel_append hrs (List.rel_flatten hps), rfl⟩

theorem nodes_agree (hg : g.anonymizer = some a) (henv : env.Alike R env')
    (hsrc : src.Alike a R src') :
    Agree R Outcome.Alike (g.nodes (ε := ε) env src) (g.nodes env' src') := by
  refine hsrc.nodes.bind fun r r' hr => whenFetched_agree hr fun l l' hl => ?_
  have hfilter : List.Forall₂ (Node.Alike a) (l.filter fun o => !o.isHealthy)
      (l'.filter fun o => !o.isHealthy) :=
    List.rel_filter (fun o o' ho => by simp only [Node.isHealthy_eq ho]) hl
  refine (Agree.mapM (hfilter.imp fun o o' ho => ?_)).bind fun rs rs' hrs => Agree.pure ⟨hrs, rfl⟩
  rw [Node.name_eq ho]
  exact Record.now_agree henv _ (hidden_shown (k := .node) hg ho)

theorem singleton_agree (henv : env.Alike R env') (hsrc : src.Alike a R src') (k : Kind)
    (name : Bytes) {content : k.Object → Content ε}
    (hcontent : ∀ o o', k.Alike a o o' → (content o).shown = (content o').shown) :
    Agree R Outcome.Alike (g.singleton env src k name content)
      (g.singleton env' src' k name content) :=
  (hsrc.get k _).bind fun _ _ hr => whenFetched_agree hr fun o o' ho =>
    single_agree henv name (hcontent o o' ho)

/-! ## The cluster version -/

/-- Cached versions that look alike, beside related states. -/
def CacheAlike (a : Anonymizer) (R : σ → τ → Prop) (x : VersionCache × σ) (y : VersionCache × τ) :
    Prop :=
  VersionCache.Alike a x.1 y.1 ∧ R x.2 y.2

theorem version?_eq {c c' : VersionCache} (h : VersionCache.Alike a c c') :
    c.version? = c'.version? := by
  obtain ⟨e⟩ := c
  obtain ⟨e'⟩ := c'
  cases h with
  | none => rfl
  | some h => exact congrArg some h.1

/-- A cached version is replaced by both runs or by neither. -/
theorem remember_agree (henv : env.Alike R env') {v v' : ClusterVersion}
    (hv : ClusterVersion.Alike a v v') :
    Agree (CacheAlike a R) (fun _ _ => True) (remember env v) (remember env' v') := by
  rintro ⟨c, s⟩ ⟨c', t⟩ ⟨hc, hr⟩
  have hversion : v.metadata.resourceVersion = v'.metadata.resourceVersion :=
    congrArg ObjectMeta.resourceVersion (ClusterVersion.metadata_eq hv)
  by_cases hsame : c.version? = some v.metadata.resourceVersion
  · have hsame' : c'.version? = some v'.metadata.resourceVersion := by
      rw [← version?_eq hc, ← hversion, hsame]
    simp only [remember_run, VersionedCache.update, if_pos hsame, if_pos hsame',
      Bool.false_eq_true, if_false]
    exact ⟨trivial, hc, hr⟩
  · have hsame' : c'.version? ≠ some v'.metadata.resourceVersion := by
      rwa [← version?_eq hc, ← hversion]
    simp only [remember_run, VersionedCache.update, if_neg hsame, if_neg hsame', if_true]
    exact ⟨trivial, .some ⟨hversion, hv⟩, (henv.note _ _ _ s t hr).2⟩

theorem clusterVersion_agree (hg : g.anonymizer = some a) (henv : env.Alike R env')
    (hsrc : src.Alike a R src') :
    Agree (CacheAlike a R) Outcome.Alike (g.clusterVersion (ε := ε) env src)
      (g.clusterVersion env' src') := by
  refine (hsrc.get .clusterVersion _).onSnd.bind fun r r' hr => ?_
  refine whenFetched_agree hr fun v v' hv => ?_
  refine (remember_agree henv hv).bind fun _ _ _ => ?_
  exact (single_agree henv _ (hidden_shown (k := .clusterVersion) hg hv)).onSnd

theorem clusterId_agree (henv : env.Alike R env') :
    Agree (CacheAlike a R) Outcome.Alike (clusterId (ε := ε) env) (clusterId env') := by
  rintro ⟨⟨e⟩, s⟩ ⟨⟨e'⟩, t⟩ ⟨hc, hr⟩
  cases hc with
  | none => exact ⟨⟨.nil, rfl⟩, .none, hr⟩
  | @some e e' h =>
    have hid : (Content.raw e.2.clusterId : Content ε).shown = (Content.raw e'.2.clusterId).shown :=
      congrArg (fun s => (Content.raw s).shown) (ClusterVersion.clusterId_eq h.2)
    obtain ⟨hout, hr'⟩ := single_agree henv "config/id" hid s t hr
    exact ⟨hout, .some h, hr'⟩

/-! ## The batch -/

variable (a) in
theorem stateless_alike (name : Bytes) {x : StateM σ (Outcome ε)} {y : StateM τ (Outcome ε)}
    (h : Agree R Outcome.Alike x y) :
    (stateless name x).Alike (CacheAlike a R) (stateless name y) :=
  ⟨rfl, h.onSnd⟩

/-- All routines are alike on sources that are alike. -/
theorem routines_alike (hg : g.anonymizer = some a) (henv : env.Alike R env')
    (hsrc : src.Alike a R src') :
    List.Forall₂ (Routine.Alike (CacheAlike a R)) (g.routines (ε := ε) env src)
      (g.routines env' src') := by
  have hshown : ∀ {k : Kind} (o o' : k.Object), k.Alike a o o' → o = o' →
      (shown k o : Content ε).shown = (shown k o').shown := fun o o' _ h => h ▸ rfl
  refine .cons (stateless_alike a _ (clusterOperators_agree henv hsrc)) <|
    .cons (stateless_alike a _ (nodes_agree hg henv hsrc)) <|
    .cons ⟨rfl, clusterVersion_agree hg henv hsrc⟩ <|
    .cons ⟨rfl, clusterId_agree henv⟩ ?_
  refine .cons (stateless_alike a _ (singleton_agree henv hsrc _ _ ?_)) <|
    .cons (stateless_alike a _ (singleton_agree henv hsrc _ _ ?_)) <|
    .cons (stateless_alike a _ (singleton_agree henv hsrc _ _ ?_)) <|
    .cons (stateless_alike a _ (singleton_agree henv hsrc _ _ ?_)) <|
    .cons (stateless_alike a _ (singleton_agree henv hsrc _ _ ?_)) <|
    .cons (stateless_alike a _ (singleton_agree henv hsrc _ _ ?_)) <|
    .cons (stateless_alike a _ (singleton_agree henv hsrc _ _ ?_)) .nil
  all_goals intro o o' ho
  · exact hidden_shown hg ho
  · exact hshown (k := .network) o o' ho ho
  · exact hshown (k := .authentication) o o' ho ho
  · exact hidden_shown hg ho
  · exact hshown (k := .oauth) o o' ho ho
  · exact hidden_shown hg ho
  · exact hidden_shown hg ho

/-- Batches over sources that look alike end with the same status and hand over records of
which the same can be seen, one by one : what an anonymizer hides does not show. -/
theorem gather_noninterference (a : Anonymizer) (options : GatherOptions) (henv : env.Alike R env')
    (hsrc : src.Alike a R src') {record : Record ε → StateM σ Status}
    {record' : Record ε → StateM τ Status}
    (hrec : ∀ r r', r.shown = r'.shown → Agree R Eq (record r) (record' r')) (ns : Bytes)
    {c c' : VersionCache} (hc : VersionCache.Alike a c c') {s : σ} {t : τ} (hr : R s t) :
    let g : Gatherer := ⟨some a, options⟩
    (g.gather env src record ns (c, s)).1 = (g.gather env' src' record' ns (c', t)).1 ∧
      shownHandovers (g.trace env src record ns (c, s)) =
        shownHandovers (g.trace env' src' record' ns (c', t)) := by
  intro g
  have henv' : (env.beside VersionCache).Alike (CacheAlike a R) (env'.beside VersionCache) :=
    henv.beside (VersionCache.Alike a)
  have hrec' : ∀ r r' : Record ε, r.shown = r'.shown →
      Agree (CacheAlike a R) Eq (onSnd (record r)) (onSnd (record' r')) :=
    fun r r' h => (hrec r r' h).onSnd
  have hroutines := routines_alike (ε := ε) (g := g) rfl henv hsrc
  have hstart : CacheAlike a R (c, s) (c', t) := ⟨hc, hr⟩
  exact ⟨(collect_agree henv' hrec' ns hroutines _ _ hstart).1,
    (collectTraced_agree henv' hrec' ns hroutines ([], (c, s)) ([], (c', t)) ⟨rfl, hstart⟩).2.1⟩

/-! ## Two nodes -/

/-- A node that is not ready, with a text in fields that are hidden. -/
def unreadyNode (hiddenText : Bytes) : Node where
  metadata :=
    { name := "worker-0"
      annotations := ⟨[("owner", hiddenText)], by simp⟩
      labels := ⟨[("kubernetes.io/arch", "amd64"), ("rack", hiddenText)],
        show List.Pairwise (· < ·) [("kubernetes.io/arch" : Bytes), "rack"] by decide⟩ }
  conditions := [{ type := "Ready", status := "False" }]
  nodeInfo := { bootId := hiddenText }
  images := [{ names := [hiddenText] }]

/-- A cluster with that node and nothing else, read while a clock is running. -/
def loneNode (hiddenText : Bytes) : Source Nanoseconds where
  operators := pure (.ok [])
  nodes := pure (.ok [unreadyNode hiddenText])
  pods := fun _ => pure (.ok [])
  get := fun _ name => pure (.error ⟨.notFound, name⟩)

/-- Surroundings without interrupts, where a clock advances whenever it is read. -/
def ticking (pace : Nanoseconds) : Surroundings Nanoseconds where
  cancelled := pure false
  note := fun _ _ => pure ()
  wallClock := fun t => (t, t + pace)
  stopwatch := fun t => (t, t + pace)

theorem unreadyNode_alike {s t : Bytes} (h : s.length = t.length) :
    Node.Alike (.ofVocabulary {}) (unreadyNode s) (unreadyNode t) := by
  have howner : (Anonymizer.ofVocabulary {}).trustsKey "owner" = false := by decide
  have hrack : (Anonymizer.ofVocabulary {}).trustsKey "rack" = false := by decide
  exact
    { rest := rfl
      annotations :=
        .cons ⟨rfl, fun htrusted => absurd (howner.symm.trans htrusted) (by decide)⟩ .nil
      labels := .cons ⟨rfl, rfl⟩ <| .cons ⟨rfl, by
        simpa only [Anonymizer.SameLabel, hrack, Bool.false_eq_true, if_false] using h⟩ .nil
      addresses := .nil
      bootId := h
      systemUuid := rfl
      machineId := rfl }

theorem ticking_alike (pace pace' : Nanoseconds) :
    (ticking pace).Alike (fun _ _ => True) (ticking pace') where
  cancelled := fun _ _ _ => ⟨rfl, trivial⟩
  note := fun _ _ _ _ _ _ => ⟨trivial, trivial⟩
  wallClock := fun _ _ _ => ⟨trivial, trivial⟩
  stopwatch := fun _ _ _ => ⟨trivial, trivial⟩

theorem loneNode_alike {s t : Bytes} (h : s.length = t.length) :
    (loneNode s).Alike (.ofVocabulary {}) (fun _ _ => True) (loneNode t) where
  operators := Agree.pure (.ok .nil)
  nodes := Agree.pure (.ok (.cons (unreadyNode_alike h) .nil))
  pods := fun _ => Agree.pure (.ok .nil)
  get := fun _ _ => Agree.pure (.error _)

/-- A recorder that takes every record. -/
def takeAll (_ : Record Unit) : StateM Nanoseconds Status := pure .ok

theorem takeAll_agree (r r' : Record Unit) (_ : r.shown = r'.shown) :
    Agree (fun _ _ => True) Eq (takeAll r) (takeAll r') :=
  Agree.pure rfl

/-- Nobody learns from a batch who owns the node. -/
theorem gather_hides_owner :
    unreadyNode "alice" ≠ unreadyNode "carol" ∧
      (gather ⟨some (.ofVocabulary {}), {}⟩ (ticking 1) (loneNode "alice") takeAll "evidence"
          ({}, 0)).1 =
        (gather ⟨some (.ofVocabulary {}), {}⟩ (ticking 7) (loneNode "carol") takeAll "evidence"
          ({}, 5)).1 ∧
      shownHandovers (trace ⟨some (.ofVocabulary {}), {}⟩ (ticking 1) (loneNode "alice") takeAll
          "evidence" ({}, 0)) =
        shownHandovers (trace ⟨some (.ofVocabulary {}), {}⟩ (ticking 7) (loneNode "carol") takeAll
          "evidence" ({}, 5)) := by
  have hsrc : (loneNode "alice").Alike (.ofVocabulary {}) (fun _ _ => True) (loneNode "carol") :=
    loneNode_alike (by decide)
  refine ⟨by decide, ?_⟩
  exact gather_noninterference (.ofVocabulary {}) {} (ticking_alike 1 7) hsrc takeAll_agree
    "evidence" .none trivial

end Gatherer

end ClusterEvidence
