import ClusterEvidence.Proofs.Files.Tree

/-!
# What files hold and where paths lead

What a file holds does not matter for where a path leads, and so neither for the location that
a path is known by (`canonical?_put_file`). So it makes no difference whether the content of a
file is replaced before or after directories are made (`createDirectories_put_file`) or another
file is written (`writeFile_put_file`) : the trees are the same in the end, in the order of
their entries as well.
-/

namespace ClusterEvidence

namespace FileTree

variable {t : FileTree} {l l' : Location} {p s content old : Bytes} {e e' : Entry}

/-! ## Putting twice -/

theorem setEntry_setEntry_self (l : Location) (e e' : Entry) (entries : List (Location × Entry)) :
    setEntry l e' (setEntry l e entries) = setEntry l e' entries := by
  induction entries with
  | nil => simp [setEntry]
  | cons x rest ih =>
    by_cases hx : x.1 = l
    · simp [setEntry, hx]
    · simp [setEntry, hx, ih]

/-- Where something stands already, the order of putting does not matter. -/
theorem setEntry_comm (h : l' ≠ l) (e e' : Entry) {entries : List (Location × Entry)}
    (hmem : l ∈ entries.map Prod.fst) :
    setEntry l' e' (setEntry l e entries) = setEntry l e (setEntry l' e' entries) := by
  induction entries with
  | nil => cases hmem
  | cons x rest ih =>
    by_cases hx : x.1 = l
    · simp [setEntry, hx, Ne.symm h]
    · have hrest : l ∈ rest.map Prod.fst := by simpa [Ne.symm hx] using hmem
      by_cases hx' : x.1 = l'
      · simp [setEntry, hx', h]
      · simp [setEntry, hx, hx', ih hrest]

theorem setEntry_of_find? {entries : List (Location × Entry)}
    (h : entries.find? (fun x => x.1 == l) = some (l, e)) : setEntry l e entries = entries := by
  induction entries with
  | nil => cases h
  | cons x rest ih =>
    by_cases hx : x.1 = l
    · rw [List.find?_cons_of_pos (by simpa using hx)] at h
      rw [setEntry, if_pos hx, Option.some.inj h]
    · rw [List.find?_cons_of_neg (by simpa using hx)] at h
      rw [setEntry, if_neg hx, ih h]

/-- A file in place of a file. -/
theorem countP_setEntry_file {entries : List (Location × Entry)}
    (h : entries.find? (fun x => x.1 == l) = some (l, .file old)) :
    (setEntry l (.file content) entries).countP (fun e => e.2.isFile) =
      entries.countP fun e => e.2.isFile := by
  induction entries with
  | nil => cases h
  | cons x rest ih =>
    by_cases hx : x.1 = l
    · rw [List.find?_cons_of_pos (by simpa using hx)] at h
      rw [setEntry, if_pos hx, Option.some.inj h]
      simp [Entry.isFile]
    · rw [List.find?_cons_of_neg (by simpa using hx)] at h
      rw [setEntry, if_neg hx, List.countP_cons, List.countP_cons, ih h]

/-- What is written last stays. -/
theorem put_put (t : FileTree) (l : Location) (e e' : Entry) :
    (t.put l e).put l e' = t.put l e' := by
  simp only [put, setEntry_setEntry_self]

/-- What stands at a location is listed there, but for the directories that are always there. -/
theorem find?_of_at? (habove : Path.isAbove l = false) (h : t.at? l = some e) :
    t.entries.find? (fun x => x.1 == l) = some (l, e) := by
  rw [at?, if_neg (by simp [habove]), Option.map_eq_some_iff] at h
  obtain ⟨x, hx, rfl⟩ := h
  have hfst : x.1 = l := by simpa using List.find?_some hx
  rw [hx, ← hfst]

theorem put_comm (h : l' ≠ l) (e' : Entry) (hfile : t.at? l = some (.file old)) (e : Entry) :
    (t.put l e).put l' e' = (t.put l' e').put l e := by
  have habove : Path.isAbove l = false := isAbove_eq_false (by rw [hfile]; simp)
  have hmem : l ∈ t.entries.map Prod.fst :=
    List.mem_map_of_mem (List.mem_of_find?_eq_some (find?_of_at? habove hfile))
  simp only [put, setEntry_comm h e e' hmem]

/-- Putting what is there changes nothing. -/
theorem put_of_at? (habove : Path.isAbove l = false) (h : t.at? l = some e) : t.put l e = t := by
  rw [put, setEntry_of_find? (find?_of_at? habove h)]

/-! ## Where paths lead -/

section

variable (hfile : t.at? l = some (.file old)) (content : Bytes)

include hfile

theorem at?_put_file (l' : Location) :
    (t.put l (.file content)).at? l' = if l' = l then some (.file content) else t.at? l' := by
  split
  · next h =>
    subst h
    exact at?_put_self (isAbove_eq_false (by rw [hfile]; simp)) t _
  · next h => exact at?_put_of_ne h t _

theorem walk_put_file (here : Location) (ps : List Bytes) :
    (t.put l (.file content)).walk here ps = t.walk here ps := by
  induction ps generalizing here with
  | nil => rfl
  | cons p ps ih =>
    simp only [walk, at?_put_file hfile, ih]
    by_cases h : here = l
    · subst h
      simp only [if_true, hfile]
    · simp only [if_neg h]

/-- Paths lead where they led, whatever a file holds. -/
theorem resolve_put_file (p : Bytes) :
    (t.put l (.file content)).resolve p = t.resolve p := by
  simp only [resolve, walk_put_file hfile]

/-- A path leads to what it led to, or to the file. -/
theorem stat_put_file (p : Bytes) : (t.put l (.file content)).stat p = t.stat p ∨
    (t.put l (.file content)).stat p = .ok (.file content) ∧ t.stat p = .ok (.file old) := by
  simp only [stat, resolve_put_file hfile]
  cases t.resolve p with
  | error why => exact .inl rfl
  | ok l' =>
    simp only [at?_put_file hfile]
    by_cases h : l' = l
    · subst h
      simp only [if_true, hfile]
      exact .inr ⟨trivial, trivial⟩
    · simp only [if_neg h]
      exact .inl trivial

/-- Other files read as they did. -/
theorem readFile?_put_of_ne {p : Bytes} (h : t.resolve p ≠ .ok l) :
    (t.put l (.file content)).readFile? p = t.readFile? p := by
  simp only [readFile?, stat, resolve_put_file hfile]
  cases hresolve : t.resolve p with
  | error why => rfl
  | ok l' =>
    have hne : l' ≠ l := fun heq => h (heq ▸ hresolve)
    simp only [at?_put_of_ne hne]

theorem isSome_at?_put_file (l' : Location) :
    ((t.put l (.file content)).at? l').isSome = (t.at? l').isSome := by
  rw [at?_put_file hfile]
  split
  · next h => rw [h, hfile]; rfl
  · rfl

theorem follow_put_file (here : Option Location) (ps : List Bytes) :
    (t.put l (.file content)).follow here ps = t.follow here ps := by
  induction ps generalizing here with
  | nil => rfl
  | cons p ps ih => simp only [follow, walk_put_file hfile, isSome_at?_put_file hfile, ih]

/-- A path has the key it had. -/
theorem canonical?_put_file (p : Bytes) :
    (t.put l (.file content)).canonical? p = t.canonical? p := by
  simp only [canonical?, resolve_put_file hfile, isSome_at?_put_file hfile, follow_put_file hfile]
  rcases stat_put_file hfile content p with h | ⟨h, h'⟩
  · rw [h]
  · rw [h, h']

/-- There are as many files as there were. -/
theorem fileCount_put_file : (t.put l (.file content)).fileCount = t.fileCount :=
  countP_setEntry_file (find?_of_at? (isAbove_eq_false (by rw [hfile]; simp)) hfile)

/-! ## Making directories -/

theorem missingOn_put_file (n : Nat) (p : Bytes) (found : List Bytes) :
    (t.put l (.file content)).missingOn n p found = t.missingOn n p found := by
  induction n generalizing p found with
  | zero => rfl
  | succ n ih =>
    simp only [missingOn, ih]
    rcases stat_put_file hfile content (Path.parent p) with h | ⟨h, h'⟩
    · rw [h]
    · rw [h, h']

/-- A directory can be made before or after a file is overwritten. -/
theorem makeDirectory_put_file (p : Bytes) : (t.put l (.file content)).makeDirectory p =
    (t.makeDirectory p).map fun t' => t'.put l (.file content) := by
  simp only [makeDirectory, resolve_put_file hfile]
  cases t.resolve p with
  | error why => rfl
  | ok l' =>
    simp only [at?_put_file hfile]
    by_cases h : l' = l
    · subst h
      simp only [if_true, hfile]
      rfl
    · simp only [if_neg h]
      cases hat : t.at? l' with
      | none => exact congrArg Except.ok (put_comm h .directory hfile _)
      | some e =>
        cases e with
        | directory => rfl
        | file s => rfl

end

theorem makeAll_put_file (hfile : t.at? l = some (.file old)) (content : Bytes)
    (ps : List Bytes) : (t.put l (.file content)).makeAll ps =
      ((t.makeAll ps).1.put l (.file content), (t.makeAll ps).2) := by
  induction ps generalizing t with
  | nil => rfl
  | cons p ps ih =>
    simp only [makeAll, makeDirectory_put_file hfile]
    cases hmade : t.makeDirectory p with
    | error why => rfl
    | ok t' => exact ih (((sameFiles_makeDirectory hmade).files l old).2 hfile)

variable (hfile : t.at? l = some (.file old)) (content : Bytes)

include hfile

/-- Directories are made in the same way, whatever a file holds. -/
theorem createDirectories_put_file (p : Bytes) :
    (t.put l (.file content)).createDirectories p =
      ((t.createDirectories p).1.put l (.file content), (t.createDirectories p).2) := by
  simp only [createDirectories]
  split
  · rfl
  · simp only [missingOn_put_file hfile, makeAll_put_file hfile]
    rcases stat_put_file hfile content p with h | ⟨h, h'⟩
    · rw [h]
      split
      · rfl
      · rfl
      · rfl
      · generalize (if p.getLast? = some Path.slash then Path.parent p else p) = q
        cases t.missingOn (q.length + 1) q [] with
        | error why => rfl
        | ok found => rfl
    · rw [h, h']

/-- Another file is written in the same way. -/
theorem writeFile_put_file (hne : Path.locate p ≠ l) (s : Bytes) :
    (t.put l (.file content)).writeFile p s =
      (t.writeFile p s).map fun x => (x.1.put l (.file content), x.2) := by
  simp only [writeFile, resolve_put_file hfile]
  split
  · rfl
  · cases hresolve : t.resolve p with
    | error why => rfl
    | ok l' =>
      have hl' : l' ≠ l := resolve_eq_locate hresolve ▸ hne
      simp only [at?_put_of_ne hl', put_comm hl' _ hfile]
      cases t.at? l' with
      | none => rfl
      | some e =>
        cases e with
        | directory => rfl
        | file old' => rfl

end FileTree

end ClusterEvidence
