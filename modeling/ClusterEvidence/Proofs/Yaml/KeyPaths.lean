import ClusterEvidence.Proofs.Bytes
import ClusterEvidence.Proofs.Yaml.Overlay

/-!
# Key paths of layered documents

`Yaml.at?` follows a path of keys into a document. Of two documents that are laid over each
other, the last one to say something at a path wins there (`Yaml.Layered`) : what is no map
comes from the top layer or from nowhere else, and cuts off everything below it; maps are
combined; and where the top layer says nothing, the bottom layer stays.

One level of it is what the entries of two maps come to, key by key (`lookup_overlayEntries`),
and the law at every path is an induction on the path (`layered_of_overlay`). A map of the result
is a map of one of the layers or a combination of two, so its keys are unique if theirs are
(`overlay_layered`). All this is about documents that are trees, with no node that a layer
shares between two places.
-/

namespace ClusterEvidence

namespace Yaml

variable {bottom top d v : Yaml} {bots tops l : List (Yaml × Yaml)} {k k' : Bytes} {p : List Bytes}

/-! ## Looking up -/

theorem keyIs_iff {x : Yaml} : keyIs k x = true ↔ x = scalar k := by
  cases x <;> simp [keyIs]

theorem lookup_cons (e : Yaml × Yaml) (l : List (Yaml × Yaml)) :
    lookup k (e :: l) = if keyIs k e.1 then some e.2 else lookup k l := by
  unfold lookup
  split
  · next h => rw [List.find?_cons_of_pos (by exact h), Option.map_some]
  · next h => rw [List.find?_cons_of_neg (by exact h)]

theorem lookup_of_notMem (h : scalar k ∉ l.map Prod.fst) : lookup k l = none := by
  refine Option.map_eq_none_iff.2 (List.find?_eq_none.2 fun e he hk => h ?_)
  rw [← keyIs_iff.1 hk]
  exact List.mem_map_of_mem he

theorem lookup_of_mem (hl : (l.map Prod.fst).Nodup) (h : (scalar k, v) ∈ l) :
    lookup k l = some v := by
  induction l with
  | nil => cases h
  | cons e l ih =>
    rw [List.map_cons, List.nodup_cons] at hl
    rw [lookup_cons]
    rcases List.mem_cons.1 h with rfl | h
    · rw [if_pos (keyIs_iff.2 rfl)]
    · have hne : e.1 ≠ scalar k := fun heq => hl.1 (heq ▸ List.mem_map_of_mem h)
      rw [if_neg (mt keyIs_iff.1 hne), ih hl.2 h]

/-- What is set under a key is found there, and the other entries stay. -/
theorem lookup_setEntry (l : List (Yaml × Yaml)) :
    lookup k' (setEntry k v l) = if k' = k then some v else lookup k' l := by
  induction l with
  | nil =>
    rw [setEntry, lookup_cons]
    simp only [keyIs_iff, scalar.injEq, eq_comm (a := k)]
  | cons e l ih =>
    unfold setEntry
    split
    · next hk =>
      rw [lookup_cons, lookup_cons, keyIs_iff.1 hk]
      by_cases h : k' = k
      · simp [h, keyIs]
      · simp [h, Ne.symm h, keyIs]
    · next hk =>
      rw [lookup_cons, lookup_cons, ih]
      by_cases h : k' = k
      · simp [h, hk]
      · simp [h]

theorem mem_keys_setEntry {x : Yaml} (h : x ∈ (setEntry k v l).map Prod.fst) :
    x = scalar k ∨ x ∈ l.map Prod.fst := by
  induction l with
  | nil => exact .inl (List.mem_singleton.1 h)
  | cons e l ih =>
    unfold setEntry at h
    split at h
    · exact .inr h
    · rcases List.mem_cons.1 h with rfl | h
      · exact .inr List.mem_cons_self
      · exact (ih h).imp_right (List.mem_cons_of_mem _)

theorem nodup_keys_setEntry (h : (l.map Prod.fst).Nodup) :
    ((setEntry k v l).map Prod.fst).Nodup := by
  induction l with
  | nil => simp [setEntry]
  | cons e l ih =>
    unfold setEntry
    split
    · exact h
    · next hk =>
      rw [List.map_cons, List.nodup_cons] at h ⊢
      refine ⟨fun hmem => ?_, ih h.2⟩
      rcases mem_keys_setEntry hmem with heq | hmem
      · exact hk (keyIs_iff.2 heq)
      · exact h.1 hmem

/-! ## Documents with unique keys -/

/-- In every map of the document, those in its sequences included, the keys are scalars and no
two of them are equal. -/
inductive UniqueKeyed : Yaml → Prop
  | null : UniqueKeyed null
  | scalar (s : Bytes) : UniqueKeyed (scalar s)
  | seq {items : List Yaml} (hitems : ∀ d ∈ items, UniqueKeyed d) : UniqueKeyed (seq items)
  | map {l : List (Yaml × Yaml)} (hkeys : ∀ e ∈ l, ∃ s, e.1 = .scalar s)
      (hunique : (l.map Prod.fst).Nodup) (hvalues : ∀ e ∈ l, UniqueKeyed e.2) : UniqueKeyed (map l)

theorem UniqueKeyed.textKeyed (h : UniqueKeyed d) : TextKeyed d := by
  induction h with
  | null => exact .leaf rfl
  | scalar s => exact .leaf rfl
  | seq hitems ih => exact .leaf rfl
  | map hkeys hunique hvalues ih => exact .map hkeys ih

theorem uniqueKeyed_map_iff : UniqueKeyed (map l) ↔ (∀ e ∈ l, ∃ s, e.1 = .scalar s) ∧
    (l.map Prod.fst).Nodup ∧ ∀ e ∈ l, UniqueKeyed e.2 := by
  constructor
  · intro h
    cases h with
    | map hkeys hunique hvalues => exact ⟨hkeys, hunique, hvalues⟩
  · exact fun h => .map h.1 h.2.1 h.2.2

theorem UniqueKeyed.get? (h : UniqueKeyed d) (hv : d.get? k = some v) : UniqueKeyed v := by
  cases h with
  | map hkeys hunique hvalues =>
    obtain ⟨e, he, rfl⟩ := Option.map_eq_some_iff.1 hv
    exact hvalues e (List.mem_of_find?_eq_some he)
  | null => cases hv
  | scalar s => cases hv
  | seq hitems => cases hv

theorem UniqueKeyed.erase (h : UniqueKeyed d) : UniqueKeyed (d.erase k) := by
  cases h with
  | map hkeys hunique hvalues =>
    exact .map (fun e he => hkeys e (List.mem_filter.1 he).1)
      (hunique.sublist (List.filter_sublist.map Prod.fst))
      fun e he => hvalues e (List.mem_filter.1 he).1
  | null => exact .null
  | scalar s => exact .scalar s
  | seq hitems => exact .seq hitems

/-! ## Key paths -/

/-- The value at the end of a path of keys. -/
def at? : List Bytes → Yaml → Option Yaml
  | [], d => some d
  | k :: p, d => (d.get? k).bind (at? p)

@[simp] theorem at?_nil (d : Yaml) : at? [] d = some d :=
  rfl

theorem at?_cons (k : Bytes) (p : List Bytes) (d : Yaml) : at? (k :: p) d = (d.get? k).bind (at? p) :=
  rfl

theorem exists_map (h : d.isMap = true) : ∃ l, d = map l := by
  cases d with
  | map l => exact ⟨l, rfl⟩
  | null => cases h
  | scalar s => cases h
  | seq items => cases h

theorem get?_of_not_map (h : d.isMap = false) : d.get? k = none := by
  cases d with
  | map l => cases h
  | null => rfl
  | scalar s => rfl
  | seq items => rfl

theorem UniqueKeyed.at? (h : UniqueKeyed d) (hv : d.at? p = some v) : UniqueKeyed v := by
  induction p generalizing d with
  | nil => exact Option.some.inj hv ▸ h
  | cons k p ih =>
    obtain ⟨d', hd', hv⟩ := Option.bind_eq_some_iff.1 hv
    exact ih (h.get? hd') hv

/-- It is enough to look at the maps at all paths, and at what stands there in place of a map. -/
theorem uniqueKeyed_of_at? (h : TextKeyed d)
    (hmaps : ∀ p l, d.at? p = some (map l) → (l.map Prod.fst).Nodup)
    (hothers : ∀ p v, d.at? p = some v → v.isMap = false → UniqueKeyed v) : UniqueKeyed d := by
  induction h with
  | leaf h => exact hothers [] _ rfl h
  | @map l hkeys hvalues ih =>
    have hunique : (l.map Prod.fst).Nodup := hmaps [] l rfl
    refine .map hkeys hunique fun e he => ?_
    obtain ⟨k, hk⟩ := hkeys e he
    have hlookup : lookup k l = some e.2 := lookup_of_mem hunique (hk ▸ he)
    have hdown : ∀ p, at? (k :: p) (map l) = at? p e.2 := fun p => by
      rw [at?_cons, Yaml.get?, hlookup, Option.bind_some]
    exact ih e he (fun p l' hl' => hmaps (k :: p) l' (hdown p ▸ hl'))
      fun p v hv => hothers (k :: p) v (hdown p ▸ hv)

/-- On the way there, before its end, stands something that is no map. -/
def Blocked (d : Yaml) (p : List Bytes) : Prop :=
  ∃ q v, q <+: p ∧ q ≠ p ∧ d.at? q = some v ∧ v.isMap = false

theorem not_blocked_nil : ¬Blocked d [] := by
  rintro ⟨q, v, hq, hne, -⟩
  exact hne (List.prefix_nil.1 hq)

/-- A path is blocked by something that is no map, on the way or at once. -/
theorem blocked_cons : Blocked d (k :: p) ↔
    d.isMap = false ∨ ∃ d', d.get? k = some d' ∧ Blocked d' p := by
  constructor
  · rintro ⟨q, v, hq, hne, hv, hmap⟩
    cases q with
    | nil => exact .inl (Option.some.inj hv ▸ hmap)
    | cons k' q =>
      obtain ⟨rfl, hprefix⟩ := List.cons_prefix_cons.1 hq
      obtain ⟨d', hd', hv⟩ := Option.bind_eq_some_iff.1 hv
      exact .inr ⟨d', hd', q, v, hprefix, fun h => hne (h ▸ rfl), hv, hmap⟩
  · rintro (hmap | ⟨d', hd', q, v, hq, hne, hv, hmap⟩)
    · exact ⟨[], d, List.nil_prefix, (List.cons_ne_nil k p).symm, rfl, hmap⟩
    · refine ⟨k :: q, v, List.cons_prefix_cons.2 ⟨rfl, hq⟩, fun h => hne (List.cons.inj h).2, ?_, hmap⟩
      rw [at?_cons, hd', Option.bind_some, hv]

/-- Nothing stands at the end of a path that is blocked. -/
theorem Blocked.at?_eq_none (h : Blocked d p) : d.at? p = none := by
  induction p generalizing d with
  | nil => exact absurd h not_blocked_nil
  | cons k p ih =>
    rw [at?_cons]
    rcases blocked_cons.1 h with hmap | ⟨d', hd', h⟩
    · rw [get?_of_not_map hmap, Option.bind_none]
    · rw [hd', Option.bind_some, ih h]

/-! ## Layers -/

/-- What the last layer that says something says at the path. -/
structure Layered (bottom top d : Yaml) (p : List Bytes) : Prop where
  /-- What is no map is taken from the top layer as a whole. -/
  leaf : ∀ v, top.at? p = some v → v.isMap = false → d.at? p = some v
  /-- Nothing is left below what is no map in the top layer. -/
  cut : Blocked top p → d.at? p = none
  /-- Two maps are combined. -/
  both : ∀ b v, bottom.at? p = some b → b.isMap = true → top.at? p = some v → v.isMap = true →
    ∃ x, overlay b v = .ok x ∧ d.at? p = some x
  /-- A map of the top layer stays as it is where the bottom layer has none. -/
  alone : ∀ v, top.at? p = some v → v.isMap = true →
    (∀ b, bottom.at? p = some b → b.isMap = false) → d.at? p = some v
  /-- The bottom layer stays where the top layer says nothing. -/
  below : top.at? p = none → ¬Blocked top p → d.at? p = bottom.at? p

/-- The value of a key from the values that two layers have for it. -/
def overlay? : Option Yaml → Option Yaml → Decoded (Option Yaml)
  | bottom, none => .ok bottom
  | none, some top => .ok (some top)
  | some bottom, some top => (overlay bottom top).map some

/-- Where one of two layers is no map, the upper one is all that counts. -/
theorem overlay_of_not_map (h : bottom.isMap = false ∨ top.isMap = false) :
    overlay bottom top = .ok top := by
  cases top with
  | map tops =>
    cases bottom with
    | map bots => simp [isMap] at h
    | null => rfl
    | scalar s => rfl
    | seq items => rfl
  | null => rfl
  | scalar s => rfl
  | seq items => rfl

theorem overlay_map_eq_ok (h : overlay (map bots) (map tops) = .ok d) :
    ∃ l, overlayEntries bots tops = .ok l ∧ d = map l := by
  rw [overlay] at h
  cases hl : overlayEntries bots tops with
  | error e =>
    rw [hl] at h
    cases h
  | ok l =>
    rw [hl] at h
    cases h
    exact ⟨l, rfl, rfl⟩

theorem both_maps_or (bottom top : Yaml) : (∃ bots tops, bottom = map bots ∧ top = map tops) ∨
    bottom.isMap = false ∨ top.isMap = false := by
  by_cases hbottom : bottom.isMap = true
  · by_cases htop : top.isMap = true
    · obtain ⟨bots, rfl⟩ := exists_map hbottom
      obtain ⟨tops, rfl⟩ := exists_map htop
      exact .inl ⟨bots, tops, rfl, rfl⟩
    · exact .inr (.inr (Bool.eq_false_iff.2 htop))
  · exact .inr (.inl (Bool.eq_false_iff.2 hbottom))

/-- The top layer decides whether there is a map. -/
theorem isMap_overlay (h : overlay bottom top = .ok d) : d.isMap = top.isMap := by
  rcases both_maps_or bottom top with ⟨bots, tops, rfl, rfl⟩ | hnot
  · obtain ⟨l, -, rfl⟩ := overlay_map_eq_ok h
    rfl
  · rw [overlay_of_not_map hnot] at h
    rw [Except.ok.inj h]

/-- The first entry of the top layer is settled, then come the others. -/
theorem overlayEntries_cons_eq_ok (h : overlayEntries bots ((scalar k, top) :: tops) = .ok l) :
    ∃ v, overlay? (lookup k bots) (some top) = .ok (some v) ∧
      overlayEntries (setEntry k v bots) tops = .ok l := by
  rw [overlayEntries] at h
  simp only [toText, text?, convert, bind, Except.bind] at h
  cases hbottom : lookup k bots with
  | none =>
    rw [hbottom] at h
    exact ⟨top, rfl, h⟩
  | some bottom =>
    rw [hbottom] at h
    dsimp only at h
    cases hv : overlay bottom top with
    | error e =>
      rw [hv] at h
      cases h
    | ok v =>
      rw [hv] at h
      exact ⟨v, by rw [overlay?, hv]; rfl, h⟩

/-- A map that is laid over another, key by key. -/
theorem lookup_overlayEntries (hkeys : ∀ e ∈ tops, ∃ s, e.1 = scalar s)
    (hunique : (tops.map Prod.fst).Nodup) (h : overlayEntries bots tops = .ok l) (k : Bytes) :
    overlay? (lookup k bots) (lookup k tops) = .ok (lookup k l) := by
  induction tops generalizing bots with
  | nil =>
    rw [overlayEntries] at h
    cases h
    rfl
  | cons e tops ih =>
    obtain ⟨⟨k₀, hk₀⟩, hothers⟩ := List.forall_mem_cons.1 hkeys
    rw [List.map_cons, List.nodup_cons] at hunique
    obtain ⟨x, top⟩ := e
    cases hk₀
    obtain ⟨v, hv, hrest⟩ := overlayEntries_cons_eq_ok h
    have hl := ih hothers hunique.2 hrest
    rw [lookup_setEntry] at hl
    rw [lookup_cons]
    by_cases hk : k = k₀
    · subst hk
      rw [if_pos rfl, lookup_of_notMem hunique.1] at hl
      rw [if_pos (keyIs_iff.2 rfl), hv]
      exact hl
    · rw [if_neg hk] at hl
      rwa [if_neg fun h => hk (Yaml.scalar.inj (keyIs_iff.1 h)).symm]

/-- Layers with unique keys come to unique keys. -/
theorem nodup_keys_overlayEntries (hkeys : ∀ e ∈ tops, ∃ s, e.1 = scalar s)
    (hbots : (bots.map Prod.fst).Nodup) (h : overlayEntries bots tops = .ok l) :
    (l.map Prod.fst).Nodup := by
  induction tops generalizing bots with
  | nil =>
    rw [overlayEntries] at h
    cases h
    exact hbots
  | cons e tops ih =>
    obtain ⟨⟨k, hk⟩, hothers⟩ := List.forall_mem_cons.1 hkeys
    obtain ⟨x, top⟩ := e
    cases hk
    obtain ⟨v, -, hrest⟩ := overlayEntries_cons_eq_ok h
    exact ih hothers (nodup_keys_setEntry hbots) hrest

/-- One key further into two maps that are laid over each other. -/
theorem get?_overlay (ht : UniqueKeyed (map tops)) (h : overlay (map bots) (map tops) = .ok d)
    (k : Bytes) : overlay? ((map bots).get? k) ((map tops).get? k) = .ok (d.get? k) := by
  obtain ⟨hkeys, hunique, -⟩ := uniqueKeyed_map_iff.1 ht
  obtain ⟨l, hl, rfl⟩ := overlay_map_eq_ok h
  exact lookup_overlayEntries hkeys hunique hl k

/-- The top layer wins where it has a value, and where it leaves no way. -/
theorem layered_top (hd : d.at? p = top.at? p) (hbottom : Blocked top p ∨ bottom.at? p = none) :
    Layered bottom top d p where
  leaf _ hv _ := hd.trans hv
  cut h := hd.trans h.at?_eq_none
  both b v hb _ hv _ := by
    rcases hbottom with hblocked | hnone
    · exact nomatch hblocked.at?_eq_none.symm.trans hv
    · exact nomatch hnone.symm.trans hb
  alone _ hv _ _ := hd.trans hv
  below hnone hfree := hd.trans (hnone.trans (hbottom.resolve_left hfree).symm)

/-- Where the upper layer says nothing and is in nobody's way, the lower one counts. -/
theorem layered_bottom (hd : d.at? p = bottom.at? p) (hnone : top.at? p = none)
    (hfree : ¬Blocked top p) : Layered bottom top d p where
  leaf _ hv _ := nomatch hnone.symm.trans hv
  cut h := absurd h hfree
  both _ _ _ _ hv _ := nomatch hnone.symm.trans hv
  alone _ hv _ _ := nomatch hnone.symm.trans hv
  below _ _ := hd

/-- The law at a path from the law one key further on. -/
theorem Layered.cons {b t x : Yaml} (h : Layered b t x p) (hb : bottom.get? k = some b)
    (ht : top.get? k = some t) (hx : d.get? k = some x) (hmap : top.isMap = true) :
    Layered bottom top d (k :: p) := by
  have hblocked : Blocked top (k :: p) ↔ Blocked t p := by
    rw [blocked_cons, ht]
    simp [hmap]
  constructor
  all_goals simp only [at?_cons, hb, ht, hx, Option.bind_some, hblocked]
  · exact h.leaf
  · exact h.cut
  · exact h.both
  · exact h.alone
  · exact h.below

/-- The last layer that says something at a path wins, at every path. -/
theorem layered_of_overlay (hb : UniqueKeyed bottom) (ht : UniqueKeyed top)
    (h : overlay bottom top = .ok d) (p : List Bytes) : Layered bottom top d p := by
  induction p generalizing bottom top d with
  | nil =>
    constructor
    · rintro v hv hmap
      cases hv
      exact Except.ok.inj (h.symm.trans (overlay_of_not_map (.inr hmap))) ▸ rfl
    · exact fun hblocked => absurd hblocked not_blocked_nil
    · rintro b v hb - hv -
      cases hb
      cases hv
      exact ⟨d, h, rfl⟩
    · rintro v hv - hbottom
      cases hv
      exact Except.ok.inj (h.symm.trans (overlay_of_not_map (.inl (hbottom bottom rfl)))) ▸ rfl
    · exact fun hnone => nomatch hnone
  | cons k p ih =>
    rcases both_maps_or bottom top with ⟨bots, tops, rfl, rfl⟩ | hnot
    · have hk := get?_overlay ht h k
      cases htk : (map tops).get? k with
      | none =>
        rw [htk, overlay?, Except.ok.injEq] at hk
        refine layered_bottom (by rw [at?_cons, at?_cons, hk]) (by rw [at?_cons, htk]; rfl) ?_
        rw [blocked_cons, htk]
        simp [isMap]
      | some t =>
        cases hbk : (map bots).get? k with
        | none =>
          rw [htk, hbk, overlay?, Except.ok.injEq] at hk
          exact layered_top (by rw [at?_cons, at?_cons, htk, hk]) (.inr (by rw [at?_cons, hbk]; rfl))
        | some b =>
          rw [htk, hbk, overlay?] at hk
          cases hx : overlay b t with
          | error e =>
            rw [hx] at hk
            cases hk
          | ok x =>
            rw [hx] at hk
            exact (ih (hb.get? hbk) (ht.get? htk) hx).cons hbk htk (Except.ok.inj hk).symm rfl
    · rw [overlay_of_not_map hnot, Except.ok.injEq] at h
      refine layered_top (by rw [h]) ?_
      rcases hnot with hbmap | htmap
      · exact .inr (by rw [at?_cons, get?_of_not_map hbmap]; rfl)
      · exact .inl (blocked_cons.2 (.inl htmap))

/-! ## The combined document -/

/-- What stands at a path of the combined document stands there in one of the layers, or is
combined from both. -/
theorem Layered.origin (h : Layered bottom top d p) (hv : d.at? p = some v) :
    top.at? p = some v ∨ bottom.at? p = some v ∨ ∃ bots tops,
      bottom.at? p = some (map bots) ∧ top.at? p = some (map tops) ∧
        overlay (map bots) (map tops) = .ok v := by
  cases htop : top.at? p with
  | none =>
    have hfree : ¬Blocked top p := fun hblocked => nomatch (h.cut hblocked).symm.trans hv
    exact .inr (.inl ((h.below htop hfree).symm.trans hv))
  | some t =>
    by_cases hmap : t.isMap = true
    · by_cases hbottom : ∃ b, bottom.at? p = some b ∧ b.isMap = true
      · obtain ⟨b, hb, hbmap⟩ := hbottom
        obtain ⟨x, hx, hdx⟩ := h.both _ _ hb hbmap htop hmap
        cases hdx.symm.trans hv
        obtain ⟨bots, rfl⟩ := exists_map hbmap
        obtain ⟨tops, rfl⟩ := exists_map hmap
        exact .inr (.inr ⟨bots, tops, hb, rfl, hx⟩)
      · refine .inl ((h.alone _ htop hmap fun b hb => ?_).symm.trans hv)
        exact Bool.eq_false_iff.2 fun hbmap => hbottom ⟨b, hb, hbmap⟩
    · exact .inl ((h.leaf _ htop (Bool.eq_false_iff.2 hmap)).symm.trans hv)

/-- Documents with unique keys come to one with unique keys. -/
theorem UniqueKeyed.overlay (hb : UniqueKeyed bottom) (ht : UniqueKeyed top)
    (h : overlay bottom top = .ok d) : UniqueKeyed d := by
  obtain ⟨d', hd', htext⟩ := overlay_isOk hb.textKeyed ht.textKeyed
  cases h.symm.trans hd'
  refine uniqueKeyed_of_at? htext (fun p l hl => ?_) fun p v hv hmap => ?_
  · rcases (layered_of_overlay hb ht h p).origin hl with htop | hbottom | ⟨bots, tops, hbots, htops, hl⟩
    · exact (uniqueKeyed_map_iff.1 (ht.at? htop)).2.1
    · exact (uniqueKeyed_map_iff.1 (hb.at? hbottom)).2.1
    · obtain ⟨l', hl', heq⟩ := overlay_map_eq_ok hl
      cases heq
      exact nodup_keys_overlayEntries (uniqueKeyed_map_iff.1 (ht.at? htops)).1
        (uniqueKeyed_map_iff.1 (hb.at? hbots)).2.1 hl'
  · rcases (layered_of_overlay hb ht h p).origin hv with htop | hbottom | ⟨bots, tops, -, -, hv⟩
    · exact ht.at? htop
    · exact hb.at? hbottom
    · obtain ⟨l', -, rfl⟩ := overlay_map_eq_ok hv
      cases hmap

/-- Two documents with unique keys, trees without aliases, are combined, the keys of what they are
combined to are unique, and at every path of keys the last layer that says something wins. -/
theorem overlay_layered (hb : UniqueKeyed bottom) (ht : UniqueKeyed top) :
    ∃ d, overlay bottom top = .ok d ∧ UniqueKeyed d ∧ ∀ p, Layered bottom top d p := by
  obtain ⟨d, hd, -⟩ := overlay_isOk hb.textKeyed ht.textKeyed
  exact ⟨d, hd, hb.overlay ht hd, layered_of_overlay hb ht hd⟩

/-- Settings that others are laid over. -/
def commonLayer : Yaml :=
  map [(scalar "log", map [(scalar "level", scalar "debug")]),
    (scalar "output", map [(scalar "keep_last", scalar "3"), (scalar "out_dir", scalar "runs")])]

/-- Settings of which one is null. -/
def siteLayer : Yaml :=
  map [(scalar "output", map [(scalar "keep_last", scalar "5")]), (scalar "log", null)]

theorem uniqueKeyed_commonLayer : UniqueKeyed commonLayer := by
  simp [commonLayer, uniqueKeyed_map_iff, UniqueKeyed.scalar]

theorem uniqueKeyed_siteLayer : UniqueKeyed siteLayer := by
  simp [siteLayer, uniqueKeyed_map_iff, UniqueKeyed.scalar, UniqueKeyed.null]

/-- Of two maps each key has its own say, and a null leaves nothing of a map below it. -/
theorem siteLayer_over_commonLayer : ∃ d, overlay commonLayer siteLayer = .ok d ∧ UniqueKeyed d ∧
    d.at? ["output", "keep_last"] = some (scalar "5") ∧
    d.at? ["output", "out_dir"] = some (scalar "runs") ∧
    d.at? ["log"] = some null ∧ d.at? ["log", "level"] = none := by
  obtain ⟨d, hd, hunique, hlayered⟩ := overlay_layered uniqueKeyed_commonLayer uniqueKeyed_siteLayer
  refine ⟨d, hd, hunique, (hlayered _).leaf _ rfl rfl, ?_, (hlayered _).leaf _ rfl rfl, ?_⟩
  · rw [(hlayered ["output", "out_dir"]).below rfl]
    · rfl
    · simp [blocked_cons, not_blocked_nil, siteLayer, Yaml.get?, lookup, keyIs, isMap]
  · exact (hlayered _).cut (blocked_cons.2 (.inr ⟨null, rfl, blocked_cons.2 (.inl rfl)⟩))

end Yaml

end ClusterEvidence
