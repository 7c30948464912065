import ClusterEvidence.Batch.Record
import ClusterEvidence.Proofs.Anonymizer.Lists
import ClusterEvidence.Proofs.Resource.RoundTrip
import Mathlib.Data.List.Forall2

/-!
# What anonymizing changes

`Kind.Redacted` lists, kind by kind, what becomes of a resource : which fields are rewritten and
to what, and that putting back the old values of those fields gives the old resource. What a field
is rewritten to is said of the texts alone : words and whole values give way to the start of their
SHA-256 digests (`Anonymizer.Rewrites`, `Digested`), and masked ones to as many `x`. There is one
resource that all this is true of, the anonymized one (`redacted_iff`), so nothing is left open and
nothing else changes.

A resource that is marshalled with an anonymizer is read back as that one, whatever resource it
is read into (`marshal_redacted`).
-/

namespace ClusterEvidence

variable (a : Anonymizer)

/-! ## Rewritten texts -/

/-- The first eight hexadecimal digits of the SHA-256 digest of a value. -/
def digestStart (s : Bytes) : Bytes := ((Sha256.digest s).flatMap Bytes.hex).take 8

/-- A value gives way to its digest as a whole, and nothing to nothing. -/
def Digested (s s' : Bytes) : Prop := (s = [] → s' = []) ∧ (s ≠ [] → s' = digestStart s)

namespace Anonymizer

/-- Every word that may not be shown gives way to its digest. The separators and the other words
stay. -/
def Rewrites (s s' : Bytes) : Prop := ∃ l, Splits s l ∧ s' = l.flatMap fun
  | .word w => if a.words.contains (Bytes.lower w) then w else digestStart w
  | .separator b => [b]

/-- Every element of a comma separated list is rewritten, and no element is added or lost. -/
def RewritesEach (s s' : Bytes) : Prop :=
  List.Forall₂ a.Rewrites (Bytes.pieces 0x2c s) (Bytes.pieces 0x2c s')

/-- One of the trusted domains occurs in the key; an empty domain occurs nowhere. -/
def Trusts (k : Bytes) : Prop := ∃ d ∈ a.trustedKeyDomains, d ≠ [] ∧ d <:+: k

/-- The same keys in the same order. Values under trusted keys are kept, others hidden. -/
def Hides (hide : Bytes → Bytes) (m m' : Labels) : Prop :=
  List.Forall₂ (fun e e' => e'.1 = e.1 ∧ (a.Trusts e.1 → e'.2 = e.2) ∧
    (¬a.Trusts e.1 → e'.2 = hide e.2)) m.entries m'.entries

end Anonymizer

/-! ## Rewritten fields -/

/-- The update server is rewritten as a URL. -/
structure ClusterVersion.Redacted (o o' : ClusterVersion) : Prop where
  rest : { o' with updateServer := o.updateServer } = o
  updateServer : a.Rewrites o.updateServer o'.updateServer

/-- The four names and addresses are rewritten as URLs. -/
structure Infrastructure.Redacted (o o' : Infrastructure) : Prop where
  rest : { o' with
    apiServerUrl := o.apiServerUrl
    etcdDiscoveryDomain := o.etcdDiscoveryDomain
    infrastructureName := o.infrastructureName
    apiServerInternalUrl := o.apiServerInternalUrl } = o
  apiServerUrl : a.Rewrites o.apiServerUrl o'.apiServerUrl
  etcdDiscoveryDomain : a.Rewrites o.etcdDiscoveryDomain o'.etcdDiscoveryDomain
  infrastructureName : a.Rewrites o.infrastructureName o'.infrastructureName
  apiServerInternalUrl : a.Rewrites o.apiServerInternalUrl o'.apiServerInternalUrl

/-- The domain is rewritten as a URL. -/
structure Ingress.Redacted (o o' : Ingress) : Prop where
  rest : { o' with domain := o.domain } = o
  domain : a.Rewrites o.domain o'.domain

/-- Proxies are rewritten as comma separated lists, endpoints one by one. -/
structure Proxy.Redacted (o o' : Proxy) : Prop where
  rest : { o' with
    spec := { o.spec with trustedCa := o'.spec.trustedCa }
    status := o.status } = o
  httpProxy : a.RewritesEach o.spec.httpProxy o'.spec.httpProxy
  httpsProxy : a.RewritesEach o.spec.httpsProxy o'.spec.httpsProxy
  noProxy : a.RewritesEach o.spec.noProxy o'.spec.noProxy
  readinessEndpoints : List.Forall₂ a.Rewrites o.spec.readinessEndpoints o'.spec.readinessEndpoints
  httpProxyInForce : a.RewritesEach o.status.httpProxy o'.status.httpProxy
  httpsProxyInForce : a.RewritesEach o.status.httpsProxy o'.status.httpsProxy
  noProxyInForce : a.RewritesEach o.status.noProxy o'.status.noProxy

/-- Annotations under keys that are not trusted are emptied and labels masked, addresses are
digested as a whole under their types, identifiers are masked, and there are no images. -/
structure Node.Redacted (o o' : Node) : Prop where
  rest : { o' with
    metadata := { o'.metadata with
      annotations := o.metadata.annotations
      labels := o.metadata.labels }
    addresses := o.addresses
    nodeInfo := { o'.nodeInfo with
      bootId := o.nodeInfo.bootId
      systemUuid := o.nodeInfo.systemUuid
      machineId := o.nodeInfo.machineId }
    images := o.images } = o
  annotations : a.Hides (fun _ => []) o.metadata.annotations o'.metadata.annotations
  labels : a.Hides (fun v => List.replicate v.length 0x78) o.metadata.labels o'.metadata.labels
  addresses : List.Forall₂ (fun x x' => x'.type = x.type ∧ Digested x.address x'.address)
    o.addresses o'.addresses
  bootId : o'.nodeInfo.bootId = List.replicate o.nodeInfo.bootId.length 0x78
  systemUuid : o'.nodeInfo.systemUuid = List.replicate o.nodeInfo.systemUuid.length 0x78
  machineId : o'.nodeInfo.machineId = List.replicate o.nodeInfo.machineId.length 0x78
  images : o'.images = []

/-- The second resource is the first with its sensitive fields rewritten, and nothing else. -/
def Kind.Redacted : (k : Kind) → k.Object → k.Object → Prop
  | .clusterVersion, o, o' => ClusterVersion.Redacted a o o'
  | .infrastructure, o, o' => Infrastructure.Redacted a o o'
  | .ingress, o, o' => Ingress.Redacted a o o'
  | .proxy, o, o' => Proxy.Redacted a o o'
  | .node, o, o' => Node.Redacted a o o'
  | .clusterOperator, o, o' => o' = o
  | .network, o, o' => o' = o
  | .authentication, o, o' => o' = o
  | .featureGate, o, o' => o' = o
  | .oauth, o, o' => o' = o
  | .pod, o, o' => o' = o

/-! ## One redaction for each resource -/

theorem forall₂_eq_iff {α β : Type} {f : α → β} {l : List α} {m : List β} :
    List.Forall₂ (fun x y => f x = y) l m ↔ m = l.map f := by
  rw [← List.forall₂_map_left_iff (R := Eq), List.forall₂_eq_eq_eq, eq_comm]

variable {a}

/-- There is one value that an address gives way to. -/
theorem digested_iff {s s' : Bytes} : Digested s s' ↔ s' = digestAddress s := by
  rw [Digested, digestAddress]
  cases s with
  | nil => simp
  | cons b s => exact ⟨fun h => h.2 (List.cons_ne_nil b s), fun h => ⟨nofun, fun _ => h⟩⟩

/-- A text is split in one way, so there is one text that it is rewritten to. -/
theorem Anonymizer.rewrites_iff {s s' : Bytes} : a.Rewrites s s' ↔ s' = a.url s := by
  have hsegment : (fun
      | .word w => if a.words.contains (Bytes.lower w) then w else digestStart w
      | .separator b => [b]) = a.segment := by
    funext x
    cases x with
    | word w => simp only [segment, allows, List.contains_iff_mem]; rfl
    | separator b => rfl
  rw [Rewrites, hsegment, url]
  constructor
  · rintro ⟨l, hl, rfl⟩
    rw [splits_iff.1 hl]
  · exact fun h => ⟨segments s, splits_segments s, h⟩

theorem Anonymizer.forall₂_rewrites_iff {l l' : List Bytes} :
    List.Forall₂ a.Rewrites l l' ↔ l' = l.map a.url := by
  have hrewrites : a.Rewrites = fun s s' => a.url s = s' := by
    funext s s'
    exact propext (rewrites_iff.trans eq_comm)
  rw [hrewrites, forall₂_eq_iff]

theorem Anonymizer.rewritesEach_iff {s s' : Bytes} : a.RewritesEach s s' ↔ s' = a.csv s := by
  rw [RewritesEach, forall₂_rewrites_iff, csv_eq_url, ← pieces_url a (by decide)]
  exact ⟨Bytes.eq_of_pieces_eq, congrArg _⟩

theorem Anonymizer.trustsKey_iff {k : Bytes} : a.trustsKey k = true ↔ a.Trusts k := by
  simp only [trustsKey, Trusts, List.any_eq_true, Bool.and_eq_true, Bytes.includes_iff]
  simp

/-- There is one way to hide the values of a map. -/
theorem Anonymizer.hides_iff {hide : Bytes → Bytes} {m m' : Labels} :
    a.Hides hide m m' ↔ m' = m.mapValues fun k v => if a.trustsKey k then v else hide v := by
  have hentry : (fun e e' : Bytes × Bytes => e'.1 = e.1 ∧ (a.Trusts e.1 → e'.2 = e.2) ∧
      (¬a.Trusts e.1 → e'.2 = hide e.2)) =
      fun e e' => (e.1, if a.trustsKey e.1 then e.2 else hide e.2) = e' := by
    funext ⟨k, v⟩ ⟨k', v'⟩
    by_cases hk : a.trustsKey k = true
    · simp [hk, trustsKey_iff.1 hk, eq_comm]
    · simp [hk, mt trustsKey_iff.2 hk, eq_comm]
  rw [Hides, hentry, forall₂_eq_iff]
  exact ⟨fun h => Labels.eq_of_entries_eq h, congrArg Labels.entries⟩

theorem ClusterVersion.redacted_iff {o o' : ClusterVersion} :
    Redacted a o o' ↔ o' = o.anonymize a := by
  constructor
  · intro h
    rw [← congrArg (anonymize a) h.rest]
    simp only [anonymize, ← Anonymizer.rewrites_iff.1 h.updateServer]
  · rintro rfl
    exact ⟨rfl, Anonymizer.rewrites_iff.2 rfl⟩

theorem Infrastructure.redacted_iff {o o' : Infrastructure} :
    Redacted a o o' ↔ o' = o.anonymize a := by
  constructor
  · intro h
    rw [← congrArg (anonymize a) h.rest]
    simp only [anonymize, ← Anonymizer.rewrites_iff.1 h.apiServerUrl,
      ← Anonymizer.rewrites_iff.1 h.etcdDiscoveryDomain,
      ← Anonymizer.rewrites_iff.1 h.infrastructureName,
      ← Anonymizer.rewrites_iff.1 h.apiServerInternalUrl]
  · rintro rfl
    exact ⟨rfl, Anonymizer.rewrites_iff.2 rfl, Anonymizer.rewrites_iff.2 rfl,
      Anonymizer.rewrites_iff.2 rfl, Anonymizer.rewrites_iff.2 rfl⟩

theorem Ingress.redacted_iff {o o' : Ingress} : Redacted a o o' ↔ o' = o.anonymize a := by
  constructor
  · intro h
    rw [← congrArg (anonymize a) h.rest]
    simp only [anonymize, ← Anonymizer.rewrites_iff.1 h.domain]
  · rintro rfl
    exact ⟨rfl, Anonymizer.rewrites_iff.2 rfl⟩

theorem Proxy.redacted_iff {o o' : Proxy} : Redacted a o o' ↔ o' = o.anonymize a := by
  constructor
  · intro h
    rw [← congrArg (anonymize a) h.rest]
    simp only [anonymize, Anonymizer.list, ← Anonymizer.rewritesEach_iff.1 h.httpProxy,
      ← Anonymizer.rewritesEach_iff.1 h.httpsProxy, ← Anonymizer.rewritesEach_iff.1 h.noProxy,
      ← Anonymizer.forall₂_rewrites_iff.1 h.readinessEndpoints,
      ← Anonymizer.rewritesEach_iff.1 h.httpProxyInForce,
      ← Anonymizer.rewritesEach_iff.1 h.httpsProxyInForce,
      ← Anonymizer.rewritesEach_iff.1 h.noProxyInForce]
  · rintro rfl
    have heach : ∀ s : Bytes, a.RewritesEach s (a.csv s) := fun s =>
      Anonymizer.rewritesEach_iff.2 rfl
    exact ⟨rfl, heach _, heach _, heach _, Anonymizer.forall₂_rewrites_iff.2 rfl, heach _, heach _,
      heach _⟩

/-- The anonymized node is the one redaction of a node. -/
theorem Node.redacted_iff {o o' : Node} : Redacted a o o' ↔ o' = o.anonymize a := by
  have haddress : (fun x x' : NodeAddress => x'.type = x.type ∧ Digested x.address x'.address) =
      fun x x' => { x with address := digestAddress x.address } = x' := by
    funext x x'
    rw [digested_iff, eq_comm (b := x'), NodeAddress.mk.injEq]
  have haddresses : List.Forall₂
      (fun x x' => x'.type = x.type ∧ Digested x.address x'.address) o.addresses o'.addresses ↔
      o'.addresses = o.addresses.map fun x => { x with address := digestAddress x.address } := by
    rw [haddress, forall₂_eq_iff]
  constructor
  · intro h
    rw [← congrArg (anonymize a) h.rest]
    simp only [anonymize, Anonymizer.annotations, Anonymizer.labels, mask,
      ← Anonymizer.hides_iff.1 h.annotations, ← Anonymizer.hides_iff.1 h.labels,
      ← haddresses.1 h.addresses, ← h.bootId, ← h.systemUuid, ← h.machineId, ← h.images]
  · rintro rfl
    exact ⟨rfl, Anonymizer.hides_iff.2 rfl, Anonymizer.hides_iff.2 rfl, haddresses.2 rfl, rfl, rfl, rfl,
      rfl⟩

/-- What there is of a resource after its sensitive fields are rewritten is the anonymized one. -/
theorem redacted_iff : ∀ {k : Kind} {o o' : k.Object}, k.Redacted a o o' ↔ o' = anonymize a k o
  | .clusterVersion, _, _ => ClusterVersion.redacted_iff
  | .infrastructure, _, _ => Infrastructure.redacted_iff
  | .ingress, _, _ => Ingress.redacted_iff
  | .proxy, _, _ => Proxy.redacted_iff
  | .node, _, _ => Node.redacted_iff
  | .clusterOperator, _, _ => Iff.rfl
  | .network, _, _ => Iff.rfl
  | .authentication, _, _ => Iff.rfl
  | .featureGate, _, _ => Iff.rfl
  | .oauth, _, _ => Iff.rfl
  | .pod, _, _ => Iff.rfl

/-- The bytes of a resource that is recorded with an anonymizer are read back, into any resource
of its kind, as the one redaction of it. Marshalling moves nothing. -/
theorem marshal_redacted {ε : Type} (a : Anonymizer) (k : Kind) (o old : k.Object) (x : ε) :
    ∃ bytes shown, (Content.anonymized k o (some a)).marshal x = (.ok bytes, x) ∧
      (Json.read? bytes).map (fun j => update k (Yaml.ofJson j) old) = some (.ok, shown) ∧
      ∀ o', k.Redacted a o o' ↔ o' = shown := by
  refine ⟨encodeText k (anonymize a k o), anonymize a k o, rfl, ?_, fun o' => redacted_iff⟩
  rw [encodeText, Json.read?_render, Option.map_some, update, decode_encode]

end ClusterEvidence
