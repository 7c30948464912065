import ClusterEvidence.Bytes

/-!
# Labels and annotations

`Labels` maps keys to values. The entries are kept in strictly increasing order of the
keys, so every key occurs once and two maps with the same entries are equal.
`Labels.insert` adds or replaces one entry, `Labels.ofList` inserts in order, so of two
entries with one key the later stays, and `Labels.mapValues` keeps all keys.
-/

namespace ClusterEvidence

/-- A finite map from keys to values, in the order of the keys. -/
structure Labels where
  entries : List (Bytes × Bytes) := []
  sorted : (entries.map Prod.fst).Pairwise (· < ·) := by exact .nil
deriving DecidableEq

namespace Labels

/-- The map without entries. -/
def empty : Labels := {}

/-- No entries. -/
def isEmpty (m : Labels) : Bool := m.entries.isEmpty

/-- Add an entry at its place, or replace the one with its key. -/
def insertEntry (k v : Bytes) : List (Bytes × Bytes) → List (Bytes × Bytes)
  | [] => [(k, v)]
  | e :: rest =>
    if k < e.1 then (k, v) :: e :: rest
    else if k = e.1 then (k, v) :: rest
    else e :: insertEntry k v rest

/-- No other key than the inserted one is new. -/
theorem mem_keys_insertEntry {k v x : Bytes} :
    ∀ {l : List (Bytes × Bytes)}, x ∈ (insertEntry k v l).map Prod.fst →
      x = k ∨ x ∈ l.map Prod.fst
  | [], h => by simpa [insertEntry] using h
  | e :: rest, h => by
    unfold insertEntry at h
    split at h
    · simpa using h
    · split at h
      · have := List.mem_cons.mp h
        rcases this with rfl | h
        · exact .inl rfl
        · exact .inr (List.mem_cons_of_mem _ h)
      · rcases List.mem_cons.mp h with rfl | h
        · exact .inr List.mem_cons_self
        · exact (mem_keys_insertEntry h).imp id (List.mem_cons_of_mem _)

/-- Inserting keeps the order of the keys. -/
theorem sorted_insertEntry {k v : Bytes} :
    ∀ {l : List (Bytes × Bytes)}, (l.map Prod.fst).Pairwise (· < ·) →
      ((insertEntry k v l).map Prod.fst).Pairwise (· < ·)
  | [], _ => by simp [insertEntry]
  | e :: rest, h => by
    have hr : (rest.map Prod.fst).Pairwise (· < ·) := (List.pairwise_cons.mp h).2
    have he : ∀ x ∈ rest.map Prod.fst, e.1 < x := (List.pairwise_cons.mp h).1
    unfold insertEntry
    split
    · next hk =>
      refine List.pairwise_cons.mpr ⟨fun x hx => ?_, h⟩
      rcases List.mem_cons.mp hx with rfl | hx
      · exact hk
      · exact List.lt_trans hk (he x hx)
    · split
      · next hk => exact List.pairwise_cons.mpr ⟨fun x hx => by rw [hk]; exact he x hx, hr⟩
      · next hlt hne =>
        have hek : e.1 < k := Std.lt_of_le_of_ne (Std.not_lt.mp hlt) (Ne.symm hne)
        refine List.pairwise_cons.mpr ⟨fun x hx => ?_, sorted_insertEntry hr⟩
        rcases mem_keys_insertEntry hx with rfl | hx
        · exact hek
        · exact he x hx

/-- The map with one entry added or replaced. -/
def insert (k v : Bytes) (m : Labels) : Labels :=
  ⟨insertEntry k v m.entries, sorted_insertEntry m.sorted⟩

/-- The entries inserted one after the other. -/
def ofList (l : List (Bytes × Bytes)) : Labels := l.foldl (fun m e => m.insert e.1 e.2) empty

/-- Every value replaced by one that may depend on its key. -/
def mapValues (f : Bytes → Bytes → Bytes) (m : Labels) : Labels where
  entries := m.entries.map fun e => (e.1, f e.1 e.2)
  sorted := by simpa [Function.comp_def] using m.sorted

end Labels

end ClusterEvidence
