import ClusterEvidence.Proofs.Resource.Fields

/-!
# Fields that are not mentioned

Where an object is decoded, all parts of it are (`Within.decode_eq_ok`), at every level : the items
of its lists, and how its containers ended. So a field of any of them is what is read at its path,
and that is the default if nothing is there, the way there included. A mark is different. It is
taken for set where there is no map that it could be missing from, so a container that says nothing
of its state is running (`decode_unmentioned`).
-/

namespace ClusterEvidence

variable {p q : Part} {d z : Yaml} {key : Bytes} {l : List (Yaml × Yaml)}

/-- In a document that a part is decoded from, and in the object that it is decoded to, stand a
document and an object of another part : the same, or deeper in an item of a list or in a map that
may be missing. -/
inductive Within : (p : Part) → Yaml → p.Object → (q : Part) → Yaml → q.Object → Prop
  | self {p : Part} {d : Yaml} {o : p.Object} : Within p d o p d o
  | item {p r q : Part} {d x z : Yaml} {o : p.Object} {a : r.Object} {b : q.Object}
      {path : List Bytes} {get : p.Object → List r.Object} {items : List Yaml} (i : Nat)
      (hf : (⟨path, .list r, get⟩ : PartField p.Object) ∈ p.fields)
      (hitems : d.at? path = some (.seq items)) (hx : items[i]? = some x)
      (ha : (get o)[i]? = some a) (h : Within r x a q z b) : Within p d o q z b
  | part {p r q : Part} {d z : Yaml} {o : p.Object} {a : r.Object} {b : q.Object}
      {path : List Bytes} {get : p.Object → Option r.Object} {l : List (Yaml × Yaml)}
      (hf : (⟨path, .optional r, get⟩ : PartField p.Object) ∈ p.fields)
      (hmap : d.at? path = some (.map l)) (ha : get o = some a)
      (h : Within r (.map l) a q z b) : Within p d o q z b

/-- What stands in a decoded object is decoded itself. -/
theorem Within.decode_eq_ok {o : p.Object} {b : q.Object} (h : Within p d o q z b)
    (ho : p.decode d = .ok o) : q.decode z = .ok b := by
  induction h with
  | self => exact ho
  | @item p r q d x z o a b path get items i hf hitems hx ha h ih =>
    have hread := Part.decode_eq_ok.1 ho _ hf
    rw [PartField.read, reach_of_at? hitems] at hread
    have hdecoded : List.Forall₂ (fun x a => r.decode x = .ok a) items (get o) := mapM_eq_ok.1 hread
    obtain ⟨hi, rfl⟩ := List.getElem?_eq_some_iff.1 hx
    obtain ⟨hi', rfl⟩ := List.getElem?_eq_some_iff.1 ha
    exact ih (hdecoded.get hi hi')
  | @part p r q d z o a b path get l hf hmap ha h ih =>
    have hread := Part.decode_eq_ok.1 ho _ hf
    rw [PartField.read, reach_of_at? hmap] at hread
    obtain ⟨a', ha', heq⟩ := map_eq_ok.1 hread
    cases heq.trans ha
    exact ih ha'

/-- A mark is missing where there is a map without it. -/
theorem reach_concat_eq_none {path : List Bytes} :
    reach (path ++ [key]) (some z) = none ↔
      ∃ l, z.at? path = some (.map l) ∧ Yaml.lookup key l = none := by
  rw [reach_append]
  constructor
  · intro h
    cases hreach : reach path (some z) with
    | none =>
      rw [hreach] at h
      cases h
    | some v =>
      rw [hreach] at h
      cases v with
      | map l => exact ⟨l, at?_of_reach hreach nofun, h⟩
      | null => cases h
      | scalar s => cases h
      | seq items => cases h
  · rintro ⟨l, hmap, hkey⟩
    rw [reach_of_at? hmap]
    exact hkey

/-- In whatever is decoded, every field whose path of keys leads to nothing has its default, be it
that its own key is missing or one on the way. The exception are marks, which tell that a container
is running : they are not set just where there is a map without the key. These fields are all there
is of the object. -/
theorem decode_unmentioned (k : Kind) {o : k.Object} {b : q.Object}
    (h : decode k (.map l) = .ok o) (hw : Within (.resource k) (.map l) o q z b) :
    (∀ f ∈ q.fields, f.form.isMark = false → z.at? f.path = none → f.get b = f.form.default) ∧
    (∀ path key get, (⟨path ++ [key], .mark, get⟩ : PartField q.Object) ∈ q.fields →
      (get b = false ↔ ∃ l, z.at? path = some (.map l) ∧ Yaml.lookup key l = none)) ∧
    ∀ b', (∀ f ∈ q.fields, f.get b' = f.get b) → b' = b := by
  have ho : (Part.resource k).decode (.map l) = .ok o :=
    mapError_eq_ok.1 ((decode_map k l).symm.trans h)
  have hb : q.decode z = .ok b := hw.decode_eq_ok ho
  have hread := Part.decode_eq_ok.1 hb
  refine ⟨fun f hf hmark hnone => ?_, fun path key get hf => ?_, fun b' heq => ?_⟩
  · have hdefault : f.read (some z) = .ok f.form.default := by
      rw [PartField.read]
      rcases reach_of_at?_eq_none hnone with hreach | hreach
      · rw [hreach, f.form.read_none]
      · rw [hreach, f.form.read_null hmark]
    exact Except.ok.inj ((hread f hf).symm.trans hdefault)
  · have hmark : (reach (path ++ [key]) (some z)).isSome = get b := Except.ok.inj (hread _ hf)
    rw [← reach_concat_eq_none, ← hmark, Option.isSome_eq_false_iff, Option.isNone_iff_eq_none]
  · have hb' : q.decode z = .ok b' := Part.decode_eq_ok.2 fun f hf => by rw [hread f hf, heq f hf]
    exact Except.ok.inj (hb'.symm.trans hb)

/-! ## Containers -/

/-- A pod that says nothing but this of a container. -/
def podWith (container : Yaml) : Yaml :=
  .map [(.scalar "status", .map [(.scalar "containerStatuses", .seq [container])])]

/-- A container that was restarted, with a state that says nothing. -/
def restarted : Yaml :=
  .map [(.scalar "name", .scalar "web"), (.scalar "state", .map []),
    (.scalar "lastState", .map [(.scalar "terminated", .map [(.scalar "exitCode", .scalar "1")])])]

/-- The container in the report is one that was restarted. -/
theorem decode_restarted : decode .pod (podWith restarted) =
    .ok { containers := [{ name := "web", lastState := { terminated := some { exitCode := 1 } } }] } := by
  decide +kernel

/-- A container is a part of its pod. -/
theorem within_podWith {o : Pod} {container : Yaml} {c : ContainerStatus}
    (h : o.containers = [c]) :
    Within (.resource .pod) (podWith container) o .containerStatus container c := by
  have hf : (⟨["status", "containerStatuses"], .list .containerStatus, Pod.containers⟩ :
      PartField Pod) ∈ (Part.resource .pod).fields := by
    simp [Part.fields, Pod.fields]
  exact .item 0 hf rfl rfl (by simp [h]) .self

/-- What such a container does not mention. -/
theorem unmentioned_restarted : ∃ c : ContainerStatus,
    decode .pod (podWith restarted) = .ok { containers := [c] } ∧ c.image = [] ∧
      c.restartCount = 0 ∧ c.state.running = false ∧ c.state.terminated = none := by
  refine ⟨_, decode_restarted, ?_⟩
  obtain ⟨hdefault, hmark, -⟩ := decode_unmentioned .pod decode_restarted (within_podWith rfl)
  refine ⟨?_, ?_, ?_, ?_⟩
  · refine hdefault ⟨["image"], .text, ContainerStatus.image⟩ ?_ rfl rfl
    simp [Part.fields, ContainerStatus.fields]
  · refine hdefault ⟨["restartCount"], .int32, ContainerStatus.restartCount⟩ ?_ rfl rfl
    simp [Part.fields, ContainerStatus.fields]
  · refine (hmark ["state"] "running" (fun c => c.state.running) ?_).2 ⟨[], rfl, rfl⟩
    simp [Part.fields, ContainerStatus.fields, ContainerState.fields, PartField.inSection]
  · refine hdefault ⟨["state", "terminated"], .optional .termination,
      fun c => c.state.terminated⟩ ?_ rfl rfl
    simp [Part.fields, ContainerStatus.fields, ContainerState.fields, PartField.inSection]

/-- A container that says nothing of its state is running. -/
theorem named_container_runs : ∃ c : ContainerStatus,
    decode .pod (podWith (.map [(.scalar "name", .scalar "a")])) = .ok { containers := [c] } ∧
      (Yaml.map [(.scalar "name", .scalar "a")]).at? ["state", "running"] = none ∧
      c.state.running = true ∧ c.lastState.running = true ∧ ({} : ContainerState).running = false :=
  ⟨_, rfl, rfl, rfl, rfl, rfl⟩

end ClusterEvidence
