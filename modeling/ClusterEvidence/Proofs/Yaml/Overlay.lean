import ClusterEvidence.Yaml.Overlay

/-!
# Documents that can be laid over each other

Laying one document over another asks the keys of the top one for their text, in its maps
within maps (`Yaml.TextKeyed`). Of two documents whose keys are text there is a combined one,
and its keys are text again (`Yaml.overlay_isOk`).
-/

namespace ClusterEvidence

namespace Yaml

/-- The keys are text, in a map and in the maps under its keys. -/
inductive TextKeyed : Yaml → Prop
  | leaf {d : Yaml} (h : d.isMap = false) : TextKeyed d
  | map {l : List (Yaml × Yaml)} (hkeys : ∀ e ∈ l, ∃ s, e.1 = scalar s)
      (hvalues : ∀ e ∈ l, TextKeyed e.2) : TextKeyed (map l)

variable {bottom v : Yaml} {bots l : List (Yaml × Yaml)} {k k' : Bytes}

/-- A map has text for keys if its own are, and those of its values. -/
theorem textKeyed_map_iff :
    TextKeyed (map l) ↔ ∀ e ∈ l, (∃ s, e.1 = scalar s) ∧ TextKeyed e.2 := by
  constructor
  · intro h
    cases h with
    | leaf h => cases h
    | map hkeys hvalues => exact fun e he => ⟨hkeys e he, hvalues e he⟩
  · exact fun h => .map (fun e he => (h e he).1) fun e he => (h e he).2

/-- An entry can be set without other keys coming in. -/
theorem TextKeyed.setEntry (hl : TextKeyed (.map l)) (hv : TextKeyed v) :
    TextKeyed (.map (setEntry k v l)) := by
  rw [textKeyed_map_iff] at hl ⊢
  induction l with
  | nil =>
    rw [Yaml.setEntry, List.forall_mem_singleton]
    exact ⟨⟨k, rfl⟩, hv⟩
  | cons e rest ih =>
    obtain ⟨he, hrest⟩ := List.forall_mem_cons.1 hl
    unfold Yaml.setEntry
    split
    · exact List.forall_mem_cons.2 ⟨⟨he.1, hv⟩, hrest⟩
    · exact List.forall_mem_cons.2 ⟨he, ih hrest⟩

@[simp] theorem isMap_erase (k : Bytes) (d : Yaml) : (d.erase k).isMap = d.isMap := by
  cases d with
  | map l => rfl
  | null => rfl
  | scalar s => rfl
  | seq l => rfl

theorem get?_erase_of_ne (h : k' ≠ k) (d : Yaml) : (d.erase k).get? k' = d.get? k' := by
  cases d with
  | map l =>
    have hkeep : ∀ e : Yaml × Yaml,
        decide ((!keyIs k e.1) = true ∧ keyIs k' e.1 = true) = keyIs k' e.1 := by
      rintro ⟨key, v⟩
      cases key with
      | scalar s =>
        by_cases hs : s = k'
        · simp [keyIs, hs, h]
        · simp [keyIs, hs]
      | null => simp [keyIs]
      | seq l => simp [keyIs]
      | map l => simp [keyIs]
    simp only [erase, get?, lookup, List.find?_filter, hkeep]
  | null => rfl
  | scalar s => rfl
  | seq l => rfl

theorem get?_erase_self (k : Bytes) (d : Yaml) : (d.erase k).get? k = none := by
  cases d with
  | map l =>
    refine Option.map_eq_none_iff.2 (List.find?_eq_none.2 fun e he hk => ?_)
    have hkeep := (List.mem_filter.1 he).2
    rw [hk] at hkeep
    cases hkeep
  | null => rfl
  | scalar s => rfl
  | seq l => rfl

theorem TextKeyed.erase (h : TextKeyed v) : TextKeyed (v.erase k) := by
  cases v with
  | map l =>
    rw [textKeyed_map_iff] at h
    exact textKeyed_map_iff.2 fun e he => h e (List.mem_filter.1 he).1
  | null => exact h
  | scalar s => exact h
  | seq l => exact h

theorem TextKeyed.of_lookup (hl : TextKeyed (.map l)) (h : lookup k l = some v) : TextKeyed v := by
  obtain ⟨e, he, rfl⟩ := Option.map_eq_some_iff.1 h
  exact (textKeyed_map_iff.1 hl e (List.mem_of_find?_eq_some he)).2

mutual

/-- Documents whose keys are text can be combined. -/
theorem overlay_isOk {bottom : Yaml} (hb : TextKeyed bottom) :
    ∀ {top : Yaml}, TextKeyed top → ∃ d, overlay bottom top = .ok d ∧ TextKeyed d
  | null, h => ⟨null, rfl, h⟩
  | scalar s, h => ⟨scalar s, rfl, h⟩
  | seq items, h => ⟨seq items, rfl, h⟩
  | map tops, h => by
    cases bottom with
    | null => exact ⟨map tops, rfl, h⟩
    | scalar s => exact ⟨map tops, rfl, h⟩
    | seq items => exact ⟨map tops, rfl, h⟩
    | map bots =>
      obtain ⟨l, hl, htext⟩ := overlayEntries_isOk hb h
      refine ⟨map l, ?_, htext⟩
      rw [overlay, hl]
      rfl

theorem overlayEntries_isOk {bots : List (Yaml × Yaml)} (hb : TextKeyed (map bots)) :
    ∀ {tops : List (Yaml × Yaml)}, TextKeyed (map tops) →
      ∃ l, overlayEntries bots tops = .ok l ∧ TextKeyed (map l)
  | [], _ => ⟨bots, rfl, hb⟩
  | (key, top) :: tops, h => by
    obtain ⟨⟨⟨k, hkey⟩, htop⟩, htops⟩ := List.forall_mem_cons.1 (textKeyed_map_iff.1 h)
    cases hkey
    have hrest : ∀ {v}, TextKeyed v →
        ∃ l, overlayEntries (Yaml.setEntry k v bots) tops = .ok l ∧ TextKeyed (map l) :=
      fun hv => overlayEntries_isOk (hb.setEntry hv) (textKeyed_map_iff.2 htops)
    cases hlookup : lookup k bots with
    | none =>
      obtain ⟨l, hl, htext⟩ := hrest htop
      refine ⟨l, ?_, htext⟩
      rw [overlayEntries]
      simp only [toText, text?, convert, bind, Except.bind, hlookup, hl]
    | some bottom =>
      obtain ⟨v, hv, htextv⟩ := overlay_isOk (hb.of_lookup hlookup) htop
      obtain ⟨l, hl, htext⟩ := hrest htextv
      refine ⟨l, ?_, htext⟩
      rw [overlayEntries]
      simp only [toText, text?, convert, bind, Except.bind, hlookup, hv, hl]

end

end Yaml

end ClusterEvidence
