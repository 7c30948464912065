import ClusterEvidence.Proofs.Results
import ClusterEvidence.Proofs.Yaml.KeyPaths

/-!
# Nested layers

A layer may itself be made of layers. Of documents that can be laid over each other it does not
matter which two are combined first, as long as no path of keys leads to a map in one of them and
to something else in another (`Yaml.Compatible`). Otherwise what is no map in the middle cuts off
what is below it, and the order shows.

The combined map lists the keys of the bottom layer and then the new ones of the top layer
(`keys_overlayEntries`). That list and the value of each key are all there is of a map
(`eq_of_lookup`), and both come to the same on either way (`overlay_assoc`).

Documents any two of which are compatible have one shape (`exists_shaped`), and what is made of
them by laying them over each other has it too (`Yaml.Shaped`).
-/

namespace ClusterEvidence

namespace Yaml

variable {a b c d ab bc : Yaml} {bots tops l l' : List (Yaml × Yaml)} {k : Bytes}

/-! ## Keys of a combined map -/

section Keys

open scoped Classical

/-- A key that is set keeps its place, or comes last. -/
theorem keys_setEntry (k : Bytes) (v : Yaml) (l : List (Yaml × Yaml)) :
    (setEntry k v l).map Prod.fst =
      if scalar k ∈ l.map Prod.fst then l.map Prod.fst else l.map Prod.fst ++ [scalar k] := by
  induction l with
  | nil => simp [setEntry]
  | cons e l ih =>
    unfold setEntry
    by_cases he : e.1 = scalar k
    · rw [if_pos (keyIs_iff.2 he)]
      simp [he]
    · rw [if_neg (mt keyIs_iff.1 he), List.map_cons, ih]
      have hne : scalar k ≠ e.1 := Ne.symm he
      split
      · next hmem => simp [hmem]
      · next hmem => simp [hmem, hne]

/-- The keys of the bottom layer come first, then those that only the top layer has. -/
theorem keys_overlayEntries (hkeys : ∀ e ∈ tops, ∃ s, e.1 = scalar s)
    (hunique : (tops.map Prod.fst).Nodup) (h : overlayEntries bots tops = .ok l) :
    l.map Prod.fst =
      bots.map Prod.fst ++ (tops.map Prod.fst).filter fun x => x ∉ bots.map Prod.fst := by
  induction tops generalizing bots with
  | nil =>
    rw [overlayEntries] at h
    cases h
    simp
  | cons e tops ih =>
    obtain ⟨⟨k, hk⟩, hothers⟩ := List.forall_mem_cons.1 hkeys
    rw [List.map_cons, List.nodup_cons] at hunique
    obtain ⟨x, top⟩ := e
    cases hk
    obtain ⟨v, -, hrest⟩ := overlayEntries_cons_eq_ok h
    rw [ih hothers hunique.2 hrest, keys_setEntry, List.map_cons]
    split
    · next hmem => rw [List.filter_cons_of_neg (by simpa using hmem)]
    · next hmem =>
      have hnew : (tops.map Prod.fst).filter (fun x => x ∉ bots.map Prod.fst ++ [scalar k]) =
          (tops.map Prod.fst).filter fun x => x ∉ bots.map Prod.fst := by
        refine List.filter_congr fun x hx => ?_
        have hne : x ≠ scalar k := fun heq => hunique.1 (heq ▸ hx)
        simp [hne]
      rw [hnew, List.filter_cons_of_pos (by simpa using hmem), List.append_assoc,
        List.singleton_append]

end Keys

/-- A map is what its keys are and what stands under them. -/
theorem eq_of_lookup (hscalar : ∀ e ∈ l, ∃ s, e.1 = scalar s) (hunique : (l.map Prod.fst).Nodup)
    (hkeys : l.map Prod.fst = l'.map Prod.fst) (h : ∀ k, lookup k l = lookup k l') : l = l' := by
  induction l generalizing l' with
  | nil => simpa using hkeys.symm
  | cons e l ih =>
    cases l' with
    | nil => cases hkeys
    | cons e' l' =>
      obtain ⟨⟨k, hk⟩, hothers⟩ := List.forall_mem_cons.1 hscalar
      rw [List.map_cons, List.map_cons, List.cons.injEq] at hkeys
      rw [List.map_cons, List.nodup_cons] at hunique
      have hk' : e'.1 = scalar k := hkeys.1.symm.trans hk
      have hvalue := h k
      rw [lookup_cons, lookup_cons, if_pos (keyIs_iff.2 hk), if_pos (keyIs_iff.2 hk'),
        Option.some.injEq] at hvalue
      rw [Prod.ext hkeys.1 hvalue, ih hothers hunique.2 hkeys.2 fun k₀ => ?_]
      by_cases hk₀ : k₀ = k
      · subst hk₀
        have hl : scalar k₀ ∉ l.map Prod.fst := hk ▸ hunique.1
        rw [lookup_of_notMem hl, lookup_of_notMem (hkeys.2 ▸ hl)]
      · have hne : ∀ {x : Yaml}, x = scalar k → ¬keyIs k₀ x = true := fun hx hx' =>
          hk₀ (Yaml.scalar.inj ((keyIs_iff.1 hx').symm.trans hx))
        have hrest := h k₀
        rwa [lookup_cons, lookup_cons, if_neg (hne hk), if_neg (hne hk')] at hrest

/-! ## Compatible documents -/

/-- No path of keys leads to a map in one of the documents and to something else in the other. -/
def Compatible (a b : Yaml) : Prop :=
  ∀ p v w, a.at? p = some v → b.at? p = some w → v.isMap = w.isMap

theorem Compatible.isMap_eq (h : Compatible a b) : a.isMap = b.isMap :=
  h [] a b rfl rfl

theorem Compatible.refl (a : Yaml) : Compatible a a :=
  fun _ v w hv hw => by rw [Option.some.inj (hv.symm.trans hw)]

theorem Compatible.symm (h : Compatible a b) : Compatible b a :=
  fun p v w hv hw => (h p w v hw hv).symm

/-- Maps are compatible if their values are, key by key. -/
theorem compatible_map (h : ∀ k x y, lookup k l = some x → lookup k l' = some y → Compatible x y) :
    Compatible (map l) (map l') := by
  intro p v w hv hw
  cases p with
  | nil =>
    cases hv
    cases hw
    rfl
  | cons k p =>
    obtain ⟨x, hx, hv⟩ := Option.bind_eq_some_iff.1 hv
    obtain ⟨y, hy, hw⟩ := Option.bind_eq_some_iff.1 hw
    exact h k x y hx hy p v w hv hw

theorem compatible_of_disjoint (h : ∀ k, scalar k ∈ l.map Prod.fst → scalar k ∉ l'.map Prod.fst) :
    Compatible (map l) (map l') := by
  refine compatible_map fun k x y hx hy => ?_
  by_cases hk : scalar k ∈ l.map Prod.fst
  · exact nomatch (lookup_of_notMem (h k hk)).symm.trans hy
  · exact nomatch (lookup_of_notMem hk).symm.trans hx

/-- What stands under one key of compatible maps is compatible. -/
theorem Compatible.get? {x y : Yaml} (h : Compatible a b) (hx : a.get? k = some x)
    (hy : b.get? k = some y) : Compatible x y := by
  intro p v w hv hw
  refine h (k :: p) v w ?_ ?_
  · rw [at?_cons, hx, Option.bind_some, hv]
  · rw [at?_cons, hy, Option.bind_some, hw]

/-- The value of a key in three layers. -/
theorem overlay?_assoc {x y z xy yz : Option Yaml} (hxy : overlay? x y = .ok xy)
    (hyz : overlay? y z = .ok yz)
    (h : ∀ a b c ab bc, x = some a → y = some b → z = some c → overlay a b = .ok ab →
      overlay b c = .ok bc → overlay ab c = overlay a bc) :
    overlay? xy z = overlay? x yz := by
  cases y with
  | none =>
    cases hxy
    cases z with
    | none =>
      cases hyz
      rfl
    | some c =>
      cases hyz
      rfl
  | some b =>
    cases z with
    | none =>
      cases hyz
      exact hxy.symm
    | some c =>
      obtain ⟨bc, hbc, rfl⟩ := map_eq_ok.1 hyz
      cases x with
      | none =>
        cases hxy
        exact hyz
      | some a =>
        obtain ⟨ab, hab, rfl⟩ := map_eq_ok.1 hxy
        rw [overlay?, overlay?, h a b c ab bc rfl rfl rfl hab hbc]

/-- Which two of three layers are combined first does not matter to the keys. -/
theorem keys_assoc {as bs cs abs bcs : List (Yaml × Yaml)} (hb : UniqueKeyed (map bs))
    (hc : UniqueKeyed (map cs)) (hbcs : UniqueKeyed (map bcs))
    (habs : overlayEntries as bs = .ok abs) (hbcs' : overlayEntries bs cs = .ok bcs)
    (hl : overlayEntries abs cs = .ok l) (hl' : overlayEntries as bcs = .ok l') :
    l.map Prod.fst = l'.map Prod.fst := by
  classical
  obtain ⟨hkeysb, hnodupb, -⟩ := uniqueKeyed_map_iff.1 hb
  obtain ⟨hkeysc, hnodupc, -⟩ := uniqueKeyed_map_iff.1 hc
  obtain ⟨hkeys, hnodup, -⟩ := uniqueKeyed_map_iff.1 hbcs
  rw [keys_overlayEntries hkeysc hnodupc hl, keys_overlayEntries hkeys hnodup hl',
    keys_overlayEntries hkeysb hnodupb habs, keys_overlayEntries hkeysc hnodupc hbcs',
    List.filter_append, List.filter_filter, List.append_assoc]
  refine congrArg _ (congrArg _ (List.filter_congr fun x _ => ?_))
  by_cases hx : x ∈ as.map Prod.fst
  · simp only [List.mem_append, hx, true_or, not_true_eq_false, decide_false, Bool.false_and]
  · simp only [List.mem_append, List.mem_filter, hx, not_false_eq_true, decide_true, and_true,
      false_or, Bool.true_and]

/-- If the lowest layer is no map, the order of merging does not matter. -/
theorem overlay_assoc_of_not_map (ha : a.isMap = false) (hac : Compatible a c)
    (h : overlay b c = .ok bc) : overlay ab c = overlay a bc := by
  have hc : c.isMap = false := hac.isMap_eq.symm.trans ha
  rw [overlay_of_not_map (.inr hc)] at h ⊢
  rw [overlay_of_not_map (.inl ha)]
  exact h

/-- Which two of three layers are combined first does not matter. -/
theorem overlay_assoc (ha : UniqueKeyed a) (hb : UniqueKeyed b) (hc : UniqueKeyed c)
    (hab : Compatible a b) (hac : Compatible a c) (hbc : Compatible b c)
    (h : overlay a b = .ok ab) (h' : overlay b c = .ok bc) : overlay ab c = overlay a bc := by
  induction ha generalizing b c ab bc with
  | @map as hkeys hunique hvalues ih =>
    obtain ⟨bs, rfl⟩ := exists_map (hab.isMap_eq.symm.trans rfl)
    obtain ⟨cs, rfl⟩ := exists_map (hac.isMap_eq.symm.trans rfl)
    have ha : UniqueKeyed (.map as) := .map hkeys hunique hvalues
    have hab' : UniqueKeyed ab := ha.overlay hb h
    have hbc' : UniqueKeyed bc := hb.overlay hc h'
    obtain ⟨abs, habs, rfl⟩ := overlay_map_eq_ok h
    obtain ⟨bcs, hbcs, rfl⟩ := overlay_map_eq_ok h'
    obtain ⟨d, hd, -⟩ := overlay_isOk hab'.textKeyed hc.textKeyed
    obtain ⟨d', hd', -⟩ := overlay_isOk ha.textKeyed hbc'.textKeyed
    have hunique' : UniqueKeyed d := hab'.overlay hc hd
    have hlookup : ∀ k, d.get? k = d'.get? k := fun k => by
      refine Except.ok.inj ((get?_overlay hc hd k).symm.trans (.trans ?_ (get?_overlay hbc' hd' k)))
      refine overlay?_assoc (get?_overlay hb h k) (get?_overlay hc h' k) ?_
      intro x y z xy yz hx hy hz hxy hyz
      obtain ⟨e, he, rfl⟩ := Option.map_eq_some_iff.1 hx
      exact ih e (List.mem_of_find?_eq_some he) (hb.get? hy) (hc.get? hz) (hab.get? hx hy)
        (hac.get? hx hz) (hbc.get? hy hz) hxy hyz
    obtain ⟨l, hl, rfl⟩ := overlay_map_eq_ok hd
    obtain ⟨l', hl', rfl⟩ := overlay_map_eq_ok hd'
    obtain ⟨hkeys', hnodup, -⟩ := uniqueKeyed_map_iff.1 hunique'
    rw [hd, hd', eq_of_lookup hkeys' hnodup (keys_assoc hb hc hbc' habs hbcs hl hl') hlookup]
  | null => exact overlay_assoc_of_not_map rfl hac h'
  | scalar s => exact overlay_assoc_of_not_map rfl hac h'
  | seq hitems => exact overlay_assoc_of_not_map rfl hac h'

/-! ## Documents of one shape -/

/-- A document with unique keys that has its maps where all documents of the shape have them. -/
structure Shaped (maps : List Bytes → Bool) (d : Yaml) : Prop where
  unique : UniqueKeyed d
  isMap_eq : ∀ p v, d.at? p = some v → v.isMap = maps p

/-- Documents have a shape in common if any two of them are compatible. -/
theorem exists_shaped {P : Yaml → Prop} (hunique : ∀ d, P d → UniqueKeyed d)
    (hcompatible : ∀ a b, P a → P b → Compatible a b) :
    ∃ maps, ∀ d, P d → Shaped maps d := by
  classical
  refine ⟨fun p => decide (∃ d v, P d ∧ d.at? p = some v ∧ v.isMap = true), fun d hd => ?_⟩
  refine ⟨hunique d hd, fun p v hv => Bool.eq_iff_iff.2 ?_⟩
  rw [decide_eq_true_iff]
  constructor
  · exact fun hmap => ⟨d, v, hd, hv, hmap⟩
  · rintro ⟨d', v', hd', hv', hmap⟩
    exact (hcompatible d d' hd hd' p v v' hv hv').trans hmap

namespace Shaped

variable {maps : List Bytes → Bool}

theorem compatible (ha : Shaped maps a) (hb : Shaped maps b) : Compatible a b :=
  fun p v w hv hw => (ha.isMap_eq p v hv).trans (hb.isMap_eq p w hw).symm

/-- Layers of one shape come to that shape. -/
theorem overlay (ha : Shaped maps a) (hb : Shaped maps b) (h : Yaml.overlay a b = .ok d) :
    Shaped maps d where
  unique := ha.unique.overlay hb.unique h
  isMap_eq p v hv := by
    rcases (layered_of_overlay ha.unique hb.unique h p).origin hv with
      htop | hbottom | ⟨bots, tops, -, htop, hv⟩
    · exact hb.isMap_eq p v htop
    · exact ha.isMap_eq p v hbottom
    · exact (isMap_overlay hv).trans (hb.isMap_eq p _ htop)

theorem erase (h : Shaped maps d) : Shaped maps (d.erase k) where
  unique := h.unique.erase
  isMap_eq p v hv := by
    cases p with
    | nil =>
      cases hv
      exact (isMap_erase k d).trans (h.isMap_eq [] d rfl)
    | cons k' p =>
      by_cases hk : k' = k
      · rw [at?_cons, hk, get?_erase_self] at hv
        cases hv
      · rw [at?_cons, get?_erase_of_ne hk] at hv
        exact h.isMap_eq (k' :: p) v hv

/-- Layers of one shape can be merged in either order. -/
theorem assoc (ha : Shaped maps a) (hb : Shaped maps b) (hc : Shaped maps c)
    (h : Yaml.overlay a b = .ok ab) (h' : Yaml.overlay b c = .ok bc) :
    Yaml.overlay ab c = Yaml.overlay a bc :=
  overlay_assoc ha.unique hb.unique hc.unique (ha.compatible hb) (ha.compatible hc)
    (hb.compatible hc) h h'

end Shaped

/-! ## Empty layers -/

theorem overlay_map_nil (l : List (Yaml × Yaml)) : overlay (map l) (map []) = .ok (map l) :=
  rfl

theorem overlay?_none (x : Option Yaml) : overlay? none x = .ok x := by
  cases x with
  | none => rfl
  | some v => rfl

/-- A map with unique keys that is laid over an empty one stays as it is. -/
theorem overlay_nil_map (h : UniqueKeyed (map l)) : overlay (map []) (map l) = .ok (map l) := by
  obtain ⟨hscalar, hnodup, -⟩ := uniqueKeyed_map_iff.1 h
  obtain ⟨d, hd, -⟩ := overlay_isOk (.map (by simp) (by simp) : TextKeyed (map [])) h.textKeyed
  obtain ⟨l', hl', rfl⟩ := overlay_map_eq_ok hd
  have hkeys : l.map Prod.fst = l'.map Prod.fst := by
    rw [keys_overlayEntries hscalar hnodup hl', List.map_nil, List.nil_append,
      List.filter_eq_self.2 fun x _ => by simp]
  have hlookup : ∀ k, lookup k l = lookup k l' := fun k =>
    Except.ok.inj ((overlay?_none _).symm.trans (lookup_overlayEntries hscalar hnodup hl' k))
  rw [hd, eq_of_lookup hscalar hnodup hkeys hlookup]

end Yaml

end ClusterEvidence
