import ClusterEvidence.Proofs.Resource.Misfits

/-!
# Keys that no decoder looks up

A decoder comes to a place in a document by the keys that it looks up (`Place`). There it looks up
those that lead on to a field, each with a place behind it (`Place.keys`), and no others, but for
labels and annotations, of which it reads every key. Two documents are read the same at a place if
they differ only in what stands under other keys, at any level (`SameRead`) : such entries may be
added, taken out or changed (`SameRead.insert`), inside a list or behind a key that is looked up as
well as on top.

Documents that are read the same give the same object, or are refused with the same status
(`SameRead.decode_eq`), and then the object that was to be replaced stays (`update_unread`). A
mismatch tells what is wrong with a shape, and not where in a text it was met, so what is added in
front of it does not move it.
-/

namespace ClusterEvidence

open Yaml (Decoded lookup toText)

variable {α : Type} {p : Part} {d d' v v' : Yaml}

/-! ## Places -/

/-- Where a decoder is in a document : behind these keys in a part, where a list of parts or labels
are asked for, or where no key is looked up at all. -/
inductive Place
  | inside (p : Part) (path : List Bytes)
  | items (r : Part)
  | labels
  | elsewhere

/-- The place where a field of the form is read. -/
def Form.place : Form α → Place
  | labels => .labels
  | list r => .items r
  | optional r => .inside r []
  | _ => .elsewhere

namespace Place

/-- The keys that are looked up in a map, each with the place behind it. -/
def keys : Place → List (Bytes × Place)
  | inside p path => p.fields.filterMap fun f =>
    match f.path.dropPrefix? path with
    | some [k] => some (k, f.form.place)
    | some (k :: _ :: _) => some (k, inside p (path ++ [k]))
    | _ => none
  | _ => []

/-- The place of an item of a sequence. -/
def item : Place → Place
  | items r => inside r []
  | _ => elsewhere

variable {f : PartField p.Object} {path rest : List Bytes} {k k' : Bytes}

/-- The last key on the path of a field is one that is read. -/
theorem mem_keys_last (hf : f ∈ p.fields) (hpath : f.path = path ++ [k]) :
    (k, f.form.place) ∈ (inside p path).keys := by
  have hdrop : f.path.dropPrefix? path = some [k] :=
    List.dropPrefix?_eq_some_iff.2 ⟨path, hpath, beq_self_eq_true path⟩
  exact List.mem_filterMap.2 ⟨f, hf, by simp only [hdrop]⟩

theorem mem_keys_on_way (hf : f ∈ p.fields) (hpath : f.path = path ++ k :: k' :: rest) :
    (k, inside p (path ++ [k])) ∈ (inside p path).keys := by
  have hdrop : f.path.dropPrefix? path = some (k :: k' :: rest) :=
    List.dropPrefix?_eq_some_iff.2 ⟨path, hpath, beq_self_eq_true path⟩
  exact List.mem_filterMap.2 ⟨f, hf, by simp only [hdrop]⟩

end Place

/-! ## Documents that are read the same -/

/-- At the place, the documents differ only in entries under keys that are not looked up, their own
or those of what is in them. -/
inductive SameRead : Place → Yaml → Yaml → Prop
  | same {x : Place} {d : Yaml} : SameRead x d d
  | map {x : Place} {l l' : List (Yaml × Yaml)} (hx : x ≠ .labels)
      (there : ∀ e ∈ x.keys, (lookup e.1 l).isSome = (lookup e.1 l').isSome)
      (values : ∀ e ∈ x.keys, ∀ v v', lookup e.1 l = some v → lookup e.1 l' = some v' →
        SameRead e.2 v v') : SameRead x (.map l) (.map l')
  | seq {x : Place} {items items' : List Yaml} (length : items.length = items'.length)
      (values : ∀ (i : Nat) (v v' : Yaml), items[i]? = some v → items'[i]? = some v' →
        SameRead x.item v v') : SameRead x (.seq items) (.seq items')

/-- Neither is there, or both are read the same. -/
def SameReach (x : Place) : Option Yaml → Option Yaml → Prop := Option.Rel (SameRead x)

section

variable {x : Place} {e : Bytes × Place} {k : Bytes}

theorem SameReach.refl (x : Place) (o : Option Yaml) : SameReach x o o := by
  cases o with
  | none => exact .none
  | some v => exact .some .same

theorem sameReach_of_isSome {o o' : Option Yaml} (there : o.isSome = o'.isSome)
    (values : ∀ v v', o = some v → o' = some v' → SameRead x v v') : SameReach x o o' := by
  cases o with
  | none =>
    cases o' with
    | none => exact .none
    | some v' => cases there
  | some v =>
    cases o' with
    | none => cases there
    | some v' => exact .some (values v v' rfl rfl)

namespace SameRead

/-- Entries may be added anywhere under keys that are not looked up. -/
theorem insert (hx : x ≠ .labels) {key : Yaml} (hkey : ∀ e ∈ x.keys, Yaml.keyIs e.1 key = false)
    (v : Yaml) (l l' : List (Yaml × Yaml)) :
    SameRead x (.map (l ++ l')) (.map (l ++ (key, v) :: l')) := by
  have hlookup : ∀ e ∈ x.keys, lookup e.1 (l ++ (key, v) :: l') = lookup e.1 (l ++ l') := by
    intro e he
    rw [lookup, lookup, List.find?_append, List.find?_append,
      List.find?_cons_of_neg (by simp [hkey e he])]
  refine .map hx (fun e he => by rw [hlookup e he]) fun e he v v' hv hv' => ?_
  rw [hlookup e he, hv] at hv'
  exact Option.some.inj hv' ▸ .same

/-- What stands under a key may be replaced by what is read the same there. -/
theorem under (hx : x ≠ .labels) {y : Place} (hy : ∀ e ∈ x.keys, e.1 = k → e.2 = y)
    (h : SameRead y v v') (l : List (Yaml × Yaml)) :
    SameRead x (.map ((.scalar k, v) :: l)) (.map ((.scalar k, v') :: l)) := by
  have hlookup : ∀ k' w, lookup k' ((.scalar k, w) :: l) =
      if k = k' then some w else lookup k' l := by
    intro k' w
    rw [Yaml.lookup_cons]
    simp [Yaml.keyIs]
  refine .map hx (fun e he => ?_) fun e he w w' hw hw' => ?_
  · rw [hlookup, hlookup]
    split
    · rfl
    · rfl
  · rw [hlookup] at hw hw'
    split at hw
    · next hk =>
      rw [if_pos hk] at hw'
      rw [hy e he hk.symm, ← Option.some.inj hw, ← Option.some.inj hw']
      exact h
    · next hk =>
      rw [if_neg hk] at hw'
      exact Option.some.inj (hw.symm.trans hw') ▸ .same

theorem isMap_eq (h : SameRead x d d') : d.isMap = d'.isMap := by
  cases h with
  | same => rfl
  | map => rfl
  | seq => rfl

theorem text?_eq (h : SameRead x d d') : d.text? = d'.text? := by
  cases h with
  | same => rfl
  | map => rfl
  | seq => rfl

/-! ## What is found by keys -/

/-- What stands under a key that is read is read alike. -/
theorem get? (h : SameRead x d d') (he : e ∈ x.keys) :
    SameReach e.2 (d.get? e.1) (d'.get? e.1) := by
  cases h with
  | same => exact .refl e.2 _
  | map hx there values => exact sameReach_of_isSome (there e he) (values e he)
  | seq => exact .none

theorem child (h : SameRead x d d') (he : e ∈ x.keys) :
    SameReach e.2 (Yaml.child e.1 (some d)) (Yaml.child e.1 (some d')) := by
  cases h with
  | same => exact .refl e.2 _
  | map hx there values => exact sameReach_of_isSome (there e he) (values e he)
  | seq => exact .some .same

/-- What is found for a field is read the same. -/
theorem reach_field {f : PartField p.Object} (hf : f ∈ p.fields) {path rest : List Bytes}
    {k : Bytes} (hpath : f.path = path ++ k :: rest) (h : SameRead (.inside p path) d d') :
    SameReach f.form.place (reach (k :: rest) (some d)) (reach (k :: rest) (some d')) := by
  induction rest generalizing path k d d' with
  | nil => exact h.child (Place.mem_keys_last hf hpath)
  | cons k' rest ih =>
    have hchild := h.child (Place.mem_keys_on_way hf hpath)
    show SameReach _ (reach (k' :: rest) (Yaml.child k (some d)))
      (reach (k' :: rest) (Yaml.child k (some d')))
    generalize Yaml.child k (some d) = o at hchild ⊢
    generalize Yaml.child k (some d') = o' at hchild ⊢
    cases hchild with
    | none => exact .refl _ _
    | some hv => exact ih (by rw [hpath, List.append_assoc, List.singleton_append]) hv

end SameRead

end

/-! ## What is read -/

section Reading

variable {x : Place} {o o' : Option Yaml}

/-- A value that is read alike converts alike. -/
theorem valueOr_sameReach {conv : Yaml → Decoded α}
    (hconv : ∀ v v' : Yaml, v.text? = v'.text? → conv v = conv v') (default : α)
    (h : SameReach x o o') : Yaml.valueOr conv default o = Yaml.valueOr conv default o' := by
  cases h with
  | none => rfl
  | some h =>
    cases h with
    | same => rfl
    | map => exact hconv _ _ rfl
    | seq => exact hconv _ _ rfl

theorem itemsOr_sameReach {decode : Yaml → Decoded α}
    (hdecode : ∀ v v', SameRead x.item v v' → decode v = decode v') (wrong : Yaml.Mismatch)
    (h : SameReach x o o') : Yaml.itemsOr wrong decode o = Yaml.itemsOr wrong decode o' := by
  cases h with
  | none => rfl
  | some h =>
    cases h with
    | same => rfl
    | map => rfl
    | @seq _ items items' length values =>
      have hitems : items.map decode = items'.map decode := by
        refine List.ext_getElem (by simpa using length) fun i hi hi' => ?_
        rw [List.getElem_map, List.getElem_map]
        exact hdecode _ _ (values i _ _ (List.getElem?_eq_getElem _) (List.getElem?_eq_getElem _))
      have hmapM : ∀ l : List Yaml, l.mapM decode = (l.map decode).mapM id := fun l => by
        rw [List.mapM_map, Function.id_comp]
      show items.mapM decode = items'.mapM decode
      rw [hmapM, hmapM, hitems]

/-- Only the text of a scalar counts. -/
theorem toText_congr (h : v.text? = v'.text?) : toText v = toText v' := by
  rw [toText, toText, h]

theorem integer?_congr (least most : Int) (h : v.text? = v'.text?) :
    v.integer? least most = v'.integer? least most := by
  rw [Yaml.integer?, Yaml.integer?, h]

theorem boolean?_congr (h : v.text? = v'.text?) : v.boolean? = v'.boolean? := by
  rw [Yaml.boolean?, Yaml.boolean?, h]

/-- A field is read the same, if the parts in it are. -/
theorem Form.read_sameReach (f : Form α)
    (hparts : ∀ r, f.part? = some r → ∀ v v', SameRead (.inside r []) v v' →
      r.decode v = r.decode v')
    (h : SameReach f.place o o') : f.read o = f.read o' := by
  cases f with
  | text => exact valueOr_sameReach (fun _ _ => toText_congr) _ h
  | int32 => exact valueOr_sameReach (fun _ _ ht => by
      rw [Yaml.toInt32, Yaml.toInt32, integer?_congr _ _ ht]) _ h
  | int64 => exact valueOr_sameReach (fun _ _ ht => by
      rw [Yaml.toInt64, Yaml.toInt64, integer?_congr _ _ ht]) _ h
  | truth => exact valueOr_sameReach (fun _ _ ht => by
      rw [Yaml.toBool, Yaml.toBool, boolean?_congr ht]) _ h
  | texts => exact itemsOr_sameReach (fun _ _ hv => toText_congr hv.text?_eq) _ h
  | labels =>
    cases h with
    | none => rfl
    | some h =>
      cases h with
      | same => rfl
      | map hx => exact absurd rfl hx
      | seq => rfl
  | list r => exact itemsOr_sameReach (x := .items r) (hparts r rfl) _ h
  | optional r =>
    cases h with
    | none => rfl
    | some h =>
      cases h with
      | same => rfl
      | seq => rfl
      | map hx there values =>
        show (r.decode _).map some = (r.decode _).map some
        rw [hparts r rfl _ _ (.map hx there values)]
  | mark =>
    cases h with
    | none => rfl
    | some => rfl

/-- A part is decoded to the same where its fields are read the same. -/
theorem Part.decode_congr (h : ∀ f ∈ p.fields, f.read (some d) = f.read (some d')) :
    p.decode d = p.decode d' := by
  cases hd : p.decode d with
  | ok o => exact (decode_eq_ok.2 fun f hf => (h f hf).symm.trans (decode_eq_ok.1 hd f hf)).symm
  | error e =>
    have hreads : p.fields.filterMap (fun f => failure? (f.read (some d'))) =
        p.fields.filterMap fun f => failure? (f.read (some d)) :=
      List.filterMap_congr fun f hf => by rw [h f hf]
    have hfirst : PartField.mismatch? p.fields (some d') =
        PartField.mismatch? p.fields (some d) := by
      rw [PartField.mismatch?, PartField.mismatch?, ← List.head?_filterMap, hreads,
        List.head?_filterMap]
    rw [← (p.reads d).failure, hd, ← (p.reads d').failure] at hfirst
    exact (failure?_eq_some.1 hfirst).symm

theorem Part.path_ne_nil {f : PartField p.Object} (hf : f ∈ p.fields) : f.path ≠ [] := by
  have hall : p.fields.all fun f => !f.path.isEmpty := by
    cases p with
    | resource k => cases k <;> rfl
    | _ => rfl
  simpa using List.all_eq_true.1 hall f hf

/-- What is read the same is decoded to the same. -/
theorem SameRead.decode_eq {p : Part} {d d' : Yaml} (h : SameRead (.inside p []) d d') :
    p.decode d = p.decode d' := by
  refine Part.decode_congr fun f hf => f.form.read_sameReach ?_ ?_
  · exact fun r hr v v' hv => hv.decode_eq
  · obtain ⟨k, rest, hpath⟩ := List.exists_cons_of_ne_nil (Part.path_ne_nil hf)
    rw [hpath]
    exact h.reach_field hf hpath
termination_by p.rank
decreasing_by exact Part.rank_lt hf hr

end Reading

/-! ## Manifests -/

/-- The name that is told of a manifest is read by the decoder as well. -/
theorem metadataText_sameRead {k : Kind} (h : SameRead (.inside (.resource k) []) d d') :
    metadataText "name" d = metadataText "name" d' := by
  let f : PartField k.Object := ⟨["metadata", "name"], .text, fun o => (k.metadata o).name⟩
  have hname : (⟨["name"], .text, ObjectMeta.name⟩ : PartField ObjectMeta) ∈ ObjectMeta.fields := by
    simp [ObjectMeta.fields]
  have hf : f ∈ (Part.resource k).fields :=
    Part.metadata_subset k (List.mem_map_of_mem hname)
  have hpath : f.path = [] ++ (["metadata", "name"] : List Bytes) := rfl
  have hmetadata := h.get? (Place.mem_keys_on_way hf hpath)
  rw [metadataText, metadataText]
  dsimp only at hmetadata
  generalize d.get? "metadata" = o at hmetadata ⊢
  generalize d'.get? "metadata" = o' at hmetadata ⊢
  cases hmetadata with
  | none => rfl
  | some hv =>
    have hlast := hv.get? (Place.mem_keys_last hf rfl)
    rw [Option.bind_some, Option.bind_some]
    dsimp only at hlast
    generalize Yaml.get? "name" _ = o at hlast ⊢
    generalize Yaml.get? "name" _ = o' at hlast ⊢
    cases hlast with
    | none => rfl
    | some hw => rw [Option.bind_some, Option.bind_some, hw.text?_eq]

/-- Documents that are read alike are decoded alike. -/
theorem decode_sameRead {k : Kind} (h : SameRead (.inside (.resource k) []) d d') :
    decode k d = decode k d' := by
  have hfields : decodeFields k d = decodeFields k d' := h.decode_eq
  rw [decode, decode, h.isMap_eq, hfields, metadataText_sameRead h]

/-- Two manifests differ only in keys that are not looked up when a resource of the kind is decoded,
and each is to replace a resource. The same status comes of both. If it is OK, the resources are the
same afterwards, whatever they were, and otherwise each of them is what it was. -/
theorem update_unread (k : Kind) (h : SameRead (.inside (.resource k) []) d d') (o o' : k.Object) :
    (update k d o).1 = (update k d' o').1 ∧
      ((update k d o).1.isOk = true → (update k d o).2 = (update k d' o').2) ∧
      ((update k d o).1.isOk = false → (update k d o).2 = o ∧ (update k d' o').2 = o') := by
  rw [update, update, ← decode_sameRead h]
  cases hd : decode k d with
  | ok a => exact ⟨rfl, fun _ => rfl, fun hfails => nomatch hfails⟩
  | error st =>
    have hcode : st.isOk = false := by
      rw [Status.isOk, code_of_decode_error hd]
      rfl
    exact ⟨rfl, fun hok => absurd (hok.symm.trans hcode) (by decide), fun _ => ⟨rfl, rfl⟩⟩

/-- A pod with a container that says this of itself. -/
def podReport (container : List (Yaml × Yaml)) : Yaml :=
  .map [(.scalar "status", .map [(.scalar "containerStatuses", .seq [.map container])]),
    (.scalar "metadata", .map [(.scalar "name", .scalar "web-1")])]

/-- A container that was restarted so many times. -/
def restartedTimes (count : Bytes) : List (Yaml × Yaml) :=
  [(.scalar "name", .scalar "web"), (.scalar "restartCount", .scalar count)]

/-- The same container with its identifier, which is not looked up. -/
def identified (count : Bytes) : List (Yaml × Yaml) :=
  [(.scalar "name", .scalar "web"), (.scalar "containerID", .scalar "cri-o://1"),
    (.scalar "restartCount", .scalar count)]

theorem sameRead_identified (count : Bytes) : SameRead (.inside (.resource .pod) [])
    (podReport (restartedTimes count)) (podReport (identified count)) := by
  have hcontainer : SameRead (.inside .containerStatus []) (.map (restartedTimes count))
      (.map (identified count)) :=
    .insert (x := .inside .containerStatus []) (by simp) (by decide) _
      [(.scalar "name", .scalar "web")] _
  have hitems : SameRead (.items .containerStatus) (.seq [.map (restartedTimes count)])
      (.seq [.map (identified count)]) := by
    refine .seq rfl fun i v v' hv hv' => ?_
    obtain ⟨hi, rfl⟩ := List.getElem?_eq_some_iff.1 hv
    obtain ⟨hi', rfl⟩ := List.getElem?_eq_some_iff.1 hv'
    obtain rfl : i = 0 := Nat.lt_one_iff.1 hi
    exact hcontainer
  have hstatus : SameRead (.inside (.resource .pod) ["status"])
      (.map [(.scalar "containerStatuses", .seq [.map (restartedTimes count)])])
      (.map [(.scalar "containerStatuses", .seq [.map (identified count)])]) := by
    refine .under (by simp) ?_ hitems []
    simp [Place.keys, Part.fields, Pod.fields, ObjectMeta.fields, PartField.inSection,
      List.dropPrefix?, Form.place]
  refine .under (by simp) ?_ hstatus _
  simp [Place.keys, Part.fields, Pod.fields, ObjectMeta.fields, PartField.inSection]

/-- Two pods are replaced by these, and the identifier makes no difference : neither where the
number of restarts can be read, nor where it cannot. -/
theorem update_identified :
    let plain := podReport (restartedTimes "2")
    let more := podReport (identified "2")
    let broken := podReport (identified "many")
    let o : Pod := { phase := "Running" }
    let o' : Pod := { nodeName := "worker" }
    SameRead (.inside (.resource .pod) []) plain more ∧
      (update .pod plain o).1.isOk = true ∧ (update .pod plain o).2 = (update .pod more o').2 ∧
      (update .pod broken o').1 = ⟨.parseError, "Pod 'web-1': bad conversion"⟩ ∧
      (update .pod broken o').2 = o' := by
  intro plain more broken o o'
  have hok : (update .pod plain o).1 = .ok := by decide +kernel
  have hfails : (update .pod broken o').1 = ⟨.parseError, "Pod 'web-1': bad conversion"⟩ := by
    decide +kernel
  obtain ⟨-, hsame, -⟩ := update_unread .pod (sameRead_identified "2") o o'
  obtain ⟨hstatus, -, hkept⟩ := update_unread .pod (sameRead_identified "many") o o'
  have hrefused : (update .pod (podReport (restartedTimes "many")) o).1.isOk = false := by
    rw [hstatus]
    exact congrArg Status.isOk hfails
  exact ⟨sameRead_identified "2", congrArg Status.isOk hok, hsame (congrArg Status.isOk hok),
    hfails, (hkept hrefused).2⟩

end ClusterEvidence
