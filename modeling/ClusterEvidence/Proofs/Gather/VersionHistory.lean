import ClusterEvidence.Proofs.Gather.Findings
import ClusterEvidence.Proofs.Run.Journal

/-!
# The cached version over many batches

A gatherer runs batch after batch, and what one has read of the cluster version is cached for the
next. The reads that succeeded fall into blocks of one resource version, and the cache holds the
first of the last block (`Tracks`), since a read replaces it just when it starts a block. So
neither the last read nor the newest one decides, but the whole history (`history_cached`). The
identifier that a batch records is that of the cached version, whether or not the batch has read
it.
-/

namespace ClusterEvidence

open Surroundings (onSnd)

variable {σ ε : Type}

/-! ## Blocks of reads -/

/-- The resource version of a cluster version that was read. -/
def ClusterVersion.version (v : ClusterVersion) : Bytes := v.metadata.resourceVersion

/-- The reads end with a block of one version that starts with `first`, and the block is as long
as it can be. -/
structure LastBlock (reads before : List ClusterVersion) (first : ClusterVersion)
    (rest : List ClusterVersion) : Prop where
  split : reads = before ++ first :: rest
  same : ∀ v ∈ rest, v.version = first.version
  longest : ∀ v, before.getLast? = some v → v.version ≠ first.version

/-- Nothing was read and nothing is cached, or the first read of the last block is cached. -/
inductive Tracks : List ClusterVersion → VersionCache → Prop
  | nothing : Tracks [] {}
  | block {reads before : List ClusterVersion} {first : ClusterVersion} {rest : List ClusterVersion}
      (h : LastBlock reads before first rest) : Tracks reads ⟨some (first.version, first)⟩

variable {reads before rest : List ClusterVersion} {first v : ClusterVersion} {c : VersionCache}

theorem LastBlock.version_getLast? (h : LastBlock reads before first rest) :
    reads.getLast?.map ClusterVersion.version = some first.version := by
  rw [h.split, List.getLast?_append_of_ne_nil _ (List.cons_ne_nil _ _)]
  rcases List.eq_nil_or_concat rest with rfl | ⟨front, last, rfl⟩
  · rfl
  · rw [List.concat_eq_append, ← List.cons_append, List.getLast?_concat, Option.map_some,
      h.same last (by simp)]

/-- The version that is cached is that of the last read. -/
theorem Tracks.version?_eq (h : Tracks reads c) :
    c.version? = reads.getLast?.map ClusterVersion.version := by
  cases h with
  | nothing => rfl
  | block h => exact h.version_getLast?.symm

/-- A read of the same version belongs to the block. -/
theorem LastBlock.extend (h : LastBlock reads before first rest) (hv : v.version = first.version) :
    LastBlock (reads ++ [v]) before first (rest ++ [v]) where
  split := by rw [h.split, List.append_assoc, List.cons_append]
  same u hu := by
    rcases List.mem_append.1 hu with hu | hu
    · exact h.same u hu
    · exact List.mem_singleton.1 hu ▸ hv
  longest := h.longest

/-- A read of another version starts a block. -/
theorem lastBlock_start (hv : reads.getLast?.map ClusterVersion.version ≠ some v.version) :
    LastBlock (reads ++ [v]) reads v [] where
  split := rfl
  same := by simp
  longest u hu heq := hv (by rw [hu, Option.map_some, heq])

/-- One more read, or one that failed. -/
theorem Tracks.observed (h : Tracks reads c) (r : Fetched ClusterVersion) :
    Tracks (reads ++ r.toOption.toList) (c.observed r) := by
  cases r with
  | error st => exact (List.append_nil reads).symm ▸ h
  | ok v =>
    have hversion := h.version?_eq
    show Tracks (reads ++ [v]) (c.update v.version v).2
    unfold VersionedCache.update
    split
    · next hsame =>
      cases h with
      | nothing => cases hsame
      | block h => exact .block (h.extend (Option.some.inj hsame).symm)
    · next hother => exact .block (lastBlock_start (hversion ▸ hother))

/-- A read replaces what is cached just when it starts a block. -/
theorem Tracks.update_fst_iff (h : Tracks reads c) (v : ClusterVersion) :
    (c.update v.version v).1 = true ↔
      reads.getLast?.map ClusterVersion.version ≠ some v.version := by
  rw [← h.version?_eq]
  unfold VersionedCache.update
  split
  · next hsame => simp [hsame]
  · next hother => simp [hother]

namespace Gatherer

/-! ## Batches one after the other -/

section Batches

variable (g : Gatherer) (b : Batch σ ε) (c : VersionCache)

/-- What is cached once the batch is over. -/
def Batch.cache : VersionCache := (b.run g c).2.1

/-- What is cached when the routine of the cluster version, which is the third, is over. -/
def Batch.cached : VersionCache :=
  (turnsEnd (b.env.beside VersionCache) (fun r => onSnd (b.record r))
    ((g.routines b.env b.src).take 3) (c, b.state)).1

/-- The answer to the one read of the cluster version. -/
def Batch.read : Fetched ClusterVersion :=
  (b.answers g c).get .clusterVersion

/-- The records that are handed over under this name, times apart. -/
def Batch.recorded (name : Bytes) : List (Record ε) :=
  (((b.handed g c).map Prod.fst).filter fun r => r.name == name).map Record.undated

end Batches

/-- The successful reads of batches that were not interrupted, and what is cached after them. -/
inductive History (σ ε : Type) (g : Gatherer) : List ClusterVersion → VersionCache → Prop
  | start : History σ ε g [] {}
  | batch {reads : List ClusterVersion} {c : VersionCache} (h : History σ ε g reads c)
      (b : Batch σ ε) (hb : (b.run g c).1.isCancelled = false) :
      History σ ε g (reads ++ (b.read g c).toOption.toList) (b.cache g c)

variable {g : Gatherer} {b : Batch σ ε}

/-- What is cached after the routine is what was cached, with what was read. -/
theorem Batch.cached_eq : b.cached g c = c.observed (b.read g c) := by
  have h := g.cache_turnsEnd b.env b.src b.record (c, b.state) (List.forall_mem_nil _)
  rwa [List.append_nil] at h

theorem Batch.cache_eq (hb : (b.run g c).1.isCancelled = false) :
    b.cache g c = c.observed (b.read g c) :=
  g.gather_cache b.env b.src hb

/-- Over any history the cache holds the last block of what was read. -/
theorem History.tracks (h : History σ ε g reads c) : Tracks reads c := by
  induction h with
  | start => exact .nothing
  | batch h b hb ih =>
    rw [Batch.cache_eq hb]
    exact ih.observed _

/-! ## The identifier -/

/-- A name that starts otherwise is another name. -/
theorem append_ne {p t : Bytes} (h : ¬ p <+: t) (s : Bytes) : p ++ s ≠ t :=
  fun heq => h (heq ▸ List.prefix_append p s)

theorem exists_of_mem_podFindings {ns : Bytes} {a : Fetched (List Pod)} {r : Record ε}
    (hr : r ∈ g.podFindings ns a) : ∃ p : Pod, r =
      { name := "config/pod/" ++ (if p.metadata.namespaceName.isEmpty then ns
          else p.metadata.namespaceName) ++ "/" ++ p.metadata.name
        item := some (g.hidden .pod p) } := by
  cases a with
  | error st => cases hr
  | ok l =>
    obtain ⟨p, -, rfl⟩ := List.mem_map.1 hr
    exact ⟨p, rfl⟩

/-- Only the routine of the identifier makes a record of this name. -/
theorem findings_id (g : Gatherer) (A : Answers) (c : VersionCache) :
    ((g.findings (ε := ε) A c).flatMap fun x => x.2.records).filter
        (fun r => r.name == ("config/id" : Bytes)) =
      idFindings (c.observed (A.get .clusterVersion)) := by
  have hno : ∀ {l : List (Record ε)}, (∀ r ∈ l, r.name ≠ "config/id") →
      l.filter (fun r => r.name == ("config/id" : Bytes)) = [] := fun h =>
    List.filter_eq_nil_iff.2 fun r hr => by simpa using h r hr
  have hoperators : ∀ r ∈ (found A.operators fun l =>
      g.operatorFindings (ε := ε) l ++ g.evidence A l).records, r.name ≠ "config/id" := by
    intro r hr
    obtain ⟨l, -, hr⟩ := mem_found.1 hr
    rcases List.mem_append.1 hr with hr | hr
    · obtain ⟨o, -, rfl⟩ := List.mem_map.1 hr
      exact append_ne (by decide) _
    · obtain ⟨x, -, hr⟩ := List.mem_flatMap.1 hr
      obtain ⟨p, rfl⟩ := exists_of_mem_podFindings hr
      rw [List.append_assoc, List.append_assoc]
      exact append_ne (by decide) _
  have hnodes : ∀ r ∈ (found A.nodes (g.nodeFindings (ε := ε))).records, r.name ≠ "config/id" := by
    intro r hr
    obtain ⟨l, -, hr⟩ := mem_found.1 hr
    obtain ⟨o, -, rfl⟩ := List.mem_map.1 hr
    exact append_ne (by decide) _
  have hresources : ∀ k ∈ Kind.clusterVersion :: Kind.singletons,
      ∀ r ∈ (g.resourceFindings (ε := ε) A k).records, r.name ≠ "config/id" := by
    have hall : ∀ k ∈ Kind.clusterVersion :: Kind.singletons,
        ("config/" : Bytes) ++ k.entry ≠ "config/id" := by decide
    intro k hk r hr
    obtain ⟨o, -, hr⟩ := mem_found.1 hr
    exact List.mem_singleton.1 hr ▸ hall k hk
  rw [findings, List.flatMap_cons, List.flatMap_cons, List.flatMap_cons, List.flatMap_cons,
    List.flatMap_map, List.filter_append, List.filter_append, List.filter_append,
    List.filter_append, hno hoperators, hno hnodes, hno (hresources _ List.mem_cons_self),
    hno (l := List.flatMap _ _) fun r hr => ?_, List.filter_eq_self.2 fun r hr => ?_]
  · simp
  · obtain ⟨v, -, rfl⟩ := List.mem_map.1 hr
    rfl
  · obtain ⟨k, hk, hr⟩ := List.mem_flatMap.1 hr
    exact hresources k (List.mem_cons_of_mem _ hk) r hr

/-- The identity is recorded from what is cached. -/
theorem Batch.recorded_id (hb : (b.run g c).1.isCancelled = false) :
    b.recorded g c "config/id" = idFindings (b.cached g c) := by
  obtain ⟨report, entries, hhanded, hreport, -, -⟩ := g.gather_handovers b.env b.src hb
  have hrecords := g.turns_records b.env b.src b.record (c, b.state)
  have hname : report.name ≠ "config/id" := by
    have hend : ¬ ("/gathers" : Bytes) <:+ "config/id" := by decide
    rw [← report.undated_name, hreport]
    intro heq
    rw [← show b.reportNamespace ++ "/gathers" = "config/id" from heq] at hend
    exact hend (List.suffix_append _ _)
  have hfilter : ∀ l : List (Record ε),
      (l.filter fun r => r.name == ("config/id" : Bytes)).map Record.undated =
        (l.map Record.undated).filter fun r => r.name == ("config/id" : Bytes) := fun l => by
    rw [List.filter_map]
    rfl
  rw [Batch.recorded, Batch.handed, hhanded, List.filter_append, List.map_append, hfilter, hrecords,
    findings_id, Batch.cached_eq, List.filter_eq_nil_iff.2 (by simpa using hname), List.map_nil,
    List.append_nil]
  rfl

/-- After any batches that were not interrupted, nothing is cached if no read succeeded, and else
the first read of the last block. In the next such batch, a read replaces what is cached just
when it starts a block, and the identifier of what is cached behind the read is recorded, if
anything is. -/
theorem history_cached (h : History σ ε g reads c) :
    (c.value? = none ↔ reads = []) ∧
      (reads ≠ [] → ∃ before first rest, LastBlock reads before first rest ∧
        c.value? = some first) ∧
      ∀ b : Batch σ ε, (b.run g c).1.isCancelled = false →
        b.cache g c = b.cached g c ∧
        (∀ v, b.read g c = .ok v → ((c.update v.version v).1 = true ↔
          reads.getLast?.map ClusterVersion.version ≠ some v.version)) ∧
        b.recorded g c "config/id" = (b.cached g c).value?.toList.map fun v =>
          { name := "config/id", item := some (.raw v.clusterId) } := by
  have htracks := h.tracks
  refine ⟨?_, fun hreads => ?_, fun b hb => ⟨(Batch.cache_eq hb).trans Batch.cached_eq.symm,
    fun v _ => htracks.update_fst_iff v, Batch.recorded_id hb⟩⟩
  · cases htracks with
    | nothing => exact iff_of_true rfl rfl
    | block hblock => exact iff_of_false (fun hnone => nomatch hnone) (by simp [hblock.split])
  · cases htracks with
    | nothing => exact absurd rfl hreads
    | block hblock => exact ⟨_, _, _, hblock, rfl⟩

/-! ## Three batches -/

/-- A batch in which this is the answer about the cluster version, and nothing else exists. -/
def versionBatch (r : Fetched ClusterVersion) : Batch Unit Unit where
  env := RunDirectory.quiet
  src :=
    { operators := pure (.ok [])
      nodes := pure (.ok [])
      pods := fun _ => pure (.ok [])
      get := fun k name => match k with
        | .clusterVersion => pure r
        | _ => pure (.error ⟨.notFound, name⟩) }
  record := fun _ => pure .ok
  reportNamespace := "evidence"
  state := ()

/-- A version is read, then none, then another object of that version : the first is still cached,
and its identifier is recorded by the batch that has read none. -/
theorem history_three_batches :
    let g : Gatherer := ⟨none, {}⟩
    let read (id : Bytes) := versionBatch (.ok
      { metadata := { resourceVersion := "100" }, clusterId := id })
    let broken := versionBatch (.error ⟨.ioError, "connection refused"⟩)
    let c := broken.cache g ((read "first").cache g {})
    let reads := [] ++ ((read "first").read g {}).toOption.toList
      ++ (broken.read g ((read "first").cache g {})).toOption.toList
    let c' := (read "second").cache g c
    let reads' := reads ++ ((read "second").read g c).toOption.toList
    reads'.length = 2 ∧ c'.value?.map ClusterVersion.clusterId = some "first" ∧
      (∃ before first rest, LastBlock reads' before first rest ∧ c'.value? = some first) ∧
      broken.recorded g ((read "first").cache g {}) "config/id" =
        (broken.cached g ((read "first").cache g {})).value?.toList.map fun v =>
          { name := "config/id", item := some (.raw v.clusterId) } := by
  intro g read broken c reads c' reads'
  have hstart : History Unit Unit g [] {} := .start
  have h₁ := hstart.batch (read "first") (by decide +kernel)
  have h₂ := h₁.batch broken (by decide +kernel)
  have h₃ : History Unit Unit g reads' c' := h₂.batch (read "second") (by decide +kernel)
  have hlength : reads'.length = 2 := by decide +kernel
  refine ⟨hlength, by decide +kernel, (history_cached h₃).2.1 fun hempty => ?_,
    ((history_cached h₁).2.2 broken (by decide +kernel)).2.2⟩
  rw [hempty] at hlength
  cases hlength

end Gatherer

end ClusterEvidence
