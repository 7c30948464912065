import ClusterEvidence.Config.Load
import ClusterEvidence.Proofs.Config.Refusals
import ClusterEvidence.Proofs.Results
import ClusterEvidence.Proofs.Yaml.Overlay
import ClusterEvidence.Yaml.Subset
import Mathlib.Data.Set.Card
import Mathlib.Logic.Relation

/-!
# What files include

`Includes t file child` says that a file that can be read lists `child` among its includes,
as seen from there. While a file is resolved, the files on the chain are others that include it,
over some steps, each with a location of its own (`Pending`). All of them can be read, so the
chain is no longer than there are files, and resolving goes one level deeper at most, whatever
is thought to be there (`iterate_resolveVia_congr`).

A file that resolves has nothing but files that resolve below it, on longer and longer chains,
so it leads to no cycle (`Loops`). A cycle is blamed only on a file that includes what it names
(`loops_of_resolve`), and without any cycle everything resolves that can be read and merged, no
matter on how many ways it is come to (`resolve_isOk`). `load_includes` puts this together.
-/

namespace ClusterEvidence

namespace Config

open Relation (ReflTransGen TransGen)

variable {t : FileTree} {start file child q : Bytes} {chain : List Location} {key : Location}
  {own d : Yaml} {e : LoadError} {n : Nat}

/-! ## Files -/

/-- The locations where a file stands. -/
def fileLocations (t : FileTree) : Set Location := {l | ∃ s, t.at? l = some (.file s)}

theorem fileLocations_subset (t : FileTree) :
    fileLocations t ⊆ {l | l ∈ (t.entries.filter fun e => e.2.isFile).map Prod.fst} := by
  rintro l ⟨s, hs⟩
  unfold FileTree.at? at hs
  split at hs
  · cases hs
  · obtain ⟨e, he, hentry⟩ := Option.map_eq_some_iff.1 hs
    have hl : e.1 = l := by simpa using List.find?_some he
    have hmem : e ∈ t.entries.filter fun e => e.2.isFile :=
      List.mem_filter.2 ⟨List.mem_of_find?_eq_some he, by rw [hentry]; rfl⟩
    exact List.mem_map.2 ⟨e, hmem, hl⟩

/-- There are finitely many files. -/
theorem finite_fileLocations (t : FileTree) : (fileLocations t).Finite :=
  (List.finite_toSet _).subset (fileLocations_subset t)

/-- There are no more files than entries for them. -/
theorem ncard_fileLocations_le (t : FileTree) : (fileLocations t).ncard ≤ t.fileCount := by
  classical
  let listed : List Location := (t.entries.filter fun e => e.2.isFile).map Prod.fst
  have hfiles : fileLocations t ⊆ listed.toFinset := fun l hl =>
    Finset.mem_coe.2 (List.mem_toFinset.2 (fileLocations_subset t hl))
  calc (fileLocations t).ncard
      ≤ listed.toFinset.card := by
        rw [← Set.ncard_coe_finset]
        exact Set.ncard_le_ncard hfiles (Finset.finite_toSet _)
    _ ≤ listed.length := List.toFinset_card_le _
    _ = t.fileCount := by rw [List.length_map, FileTree.fileCount, List.countP_eq_length_filter]

/-- A path of something that is there names it by its location, however it is spelled. -/
theorem canonical?_of_stat {e : Entry} (h : t.stat file = .ok e) (hr : t.resolve file = .ok key) :
    t.canonical? file = some key := by
  rw [FileTree.canonical?, h, hr]
  rfl

theorem canonical?_of_at? {e : Entry} (hresolve : t.resolve file = .ok key)
    (hat : t.at? key = some e) : t.canonical? file = some key := by
  have hstat : t.stat file = .ok e := by simp only [FileTree.stat, hresolve, hat]
  exact canonical?_of_stat hstat hresolve

/-- There is no more room on a chain than there are files. -/
theorem length_le_ncard (hnodup : chain.Nodup) (hfiles : ∀ key ∈ chain, key ∈ fileLocations t) :
    chain.length ≤ (fileLocations t).ncard := by
  classical
  calc chain.length
      = chain.toFinset.card := (List.toFinset_card_of_nodup hnodup).symm
    _ = (chain.toFinset : Set Location).ncard := (Set.ncard_coe_finset _).symm
    _ ≤ (fileLocations t).ncard :=
      Set.ncard_le_ncard (fun key hkey => hfiles key (by simpa using hkey)) (finite_fileLocations t)

/-! ## Layers -/

section Layers

variable {fetch fetch' : Bytes → Except LoadError Yaml} {below : Yaml} {entries : List Yaml}

theorem layer_scalar (entry : Bytes) : layer fetch start file below (.scalar entry :: entries) =
    (fetch (includedPath file entry)).bind fun d =>
      (merge start below d).bind fun below => layer fetch start file below entries :=
  rfl

/-- If documents cannot be merged, the file that all starts from is blamed. -/
theorem merge_error (h : merge start below d = .error e) : e = .unmergeable start := by
  unfold merge at h
  cases hover : Yaml.overlay below d with
  | error m =>
    rw [hover] at h
    cases h
    rfl
  | ok below' =>
    rw [hover] at h
    cases h

theorem merge_isOk (start : Bytes) (hb : below.TextKeyed) (hd : d.TextKeyed) :
    ∃ d', merge start below d = .ok d' ∧ d'.TextKeyed := by
  obtain ⟨d', hd', htext⟩ := Yaml.overlay_isOk hb hd
  refine ⟨d', ?_, htext⟩
  rw [merge, hd']
  rfl

/-- Only what is included is asked for. -/
theorem layer_congr (h : ∀ entry, .scalar entry ∈ entries →
      fetch (includedPath file entry) = fetch' (includedPath file entry)) :
    layer fetch start file below entries = layer fetch' start file below entries := by
  induction entries generalizing below with
  | nil => rfl
  | cons x rest ih =>
    have hrest : ∀ {below}, layer fetch start file below rest = layer fetch' start file below rest :=
      ih fun entry hentry => h entry (List.mem_cons_of_mem _ hentry)
    cases x with
    | scalar entry => simp only [layer_scalar, h entry List.mem_cons_self, hrest]
    | null => rfl
    | seq l => rfl
    | map l => rfl

/-- Everything that is included is needed. -/
theorem layer_ok (h : layer fetch start file below entries = .ok d) {entry : Bytes}
    (hentry : .scalar entry ∈ entries) : ∃ d', fetch (includedPath file entry) = .ok d' := by
  induction entries generalizing below with
  | nil => cases hentry
  | cons x rest ih =>
    cases x with
    | scalar entry' =>
      rw [layer_scalar] at h
      obtain ⟨d', hfetch, h⟩ := bind_eq_ok.1 h
      obtain ⟨below', -, h⟩ := bind_eq_ok.1 h
      rcases List.mem_cons.1 hentry with heq | hmem
      · cases heq
        exact ⟨d', hfetch⟩
      · exact ih h hmem
    | null => cases h
    | seq l => cases h
    | map l => cases h

/-- A cycle is found in what is included. -/
theorem layer_includeCycle (h : layer fetch start file below entries = .error (.includeCycle q)) :
    ∃ entry, .scalar entry ∈ entries ∧ fetch (includedPath file entry) = .error (.includeCycle q) := by
  induction entries generalizing below with
  | nil => cases h
  | cons x rest ih =>
    cases x with
    | scalar entry =>
      rw [layer_scalar] at h
      obtain hfetch | ⟨d', -, h⟩ := bind_eq_error.1 h
      · exact ⟨entry, List.mem_cons_self, hfetch⟩
      · obtain hmerge | ⟨below', -, h⟩ := bind_eq_error.1 h
        · cases merge_error hmerge
        · obtain ⟨entry', hentry', hcycle⟩ := ih h
          exact ⟨entry', List.mem_cons_of_mem _ hentry', hcycle⟩
    | null => cases h
    | seq l => cases h
    | map l => cases h

/-- Paths of documents whose keys are text can be laid over each other. -/
theorem layer_isOk (start : Bytes) {paths : List Bytes} (hb : below.TextKeyed)
    (h : ∀ entry ∈ paths, ∃ d, fetch (includedPath file entry) = .ok d ∧ d.TextKeyed) :
    ∃ d, layer fetch start file below (paths.map .scalar) = .ok d ∧ d.TextKeyed := by
  induction paths generalizing below with
  | nil => exact ⟨below, rfl, hb⟩
  | cons entry rest ih =>
    obtain ⟨⟨d, hd, htext⟩, hrest⟩ := List.forall_mem_cons.1 h
    obtain ⟨below', hmerge, hb'⟩ := merge_isOk start hb htext
    obtain ⟨d', hd', htext'⟩ := ih hb' hrest
    refine ⟨d', ?_, htext'⟩
    rw [List.map_cons, layer_scalar, hd, Except.bind, hmerge, Except.bind, hd']

end Layers

/-! ## Settings -/

/-- Whatever is wrong, it is not a cycle. -/
def CycleFree {α : Type} (x : Except LoadError α) : Prop := ∀ q, x ≠ .error (.includeCycle q)

theorem CycleFree.ofYaml (d : Yaml) : CycleFree (ofYaml d) :=
  fun _ h => nomatch refusesSettings_ofYaml d _ h

/-! ## What files include -/

section Reading

variable [Yaml.Reader]

/-- The file lists the child among its includes. -/
def Includes (t : FileTree) (file child : Bytes) : Prop :=
  ∃ own entries entry, readDocument t file = .ok own ∧ own.get? "includes" = some (.seq entries) ∧
    .scalar entry ∈ entries ∧ child = includedPath file entry

/-- The file includes the other over any number of steps, or is the other. -/
abbrev Reaches (t : FileTree) : Bytes → Bytes → Prop := ReflTransGen (Includes t)

/-- Starting there, one comes to a file that includes `q` over some steps, and `q` names that
very file. -/
def Loops (t : FileTree) (start q : Bytes) : Prop :=
  ∃ p key, Reaches t start p ∧ TransGen (Includes t) p q ∧ t.resolve p = .ok key ∧
    t.canonical? q = some key

/-- A file that can be read, whose includes are a list of paths if there are any, and whose keys
are text. -/
def Sound (t : FileTree) (file : Bytes) : Prop :=
  ∃ own, readDocument t file = .ok own ∧ own.TextKeyed ∧
    ∀ v, own.get? "includes" = some v → ∃ paths : List Bytes, v = .seq (paths.map .scalar)

/-- A document that can be read is in a file. -/
theorem readDocument_ok (h : readDocument t file = .ok own) :
    ∃ key ∈ fileLocations t, t.resolve file = .ok key ∧ t.canonical? file = some key := by
  unfold readDocument at h
  split at h
  · cases h
  · next s hs =>
    unfold FileTree.readFile? at hs
    split at hs
    · next s' hstat =>
      have hfile := hstat
      unfold FileTree.stat at hfile
      split at hfile
      · cases hfile
      · next key hkey =>
        refine ⟨key, ⟨s', ?_⟩, hkey, canonical?_of_stat hstat hkey⟩
        split at hfile
        · cases hfile
        · next hat =>
          cases hfile
          exact hat
    · cases hs

theorem readDocument_of_at? {s : Bytes} (hresolve : t.resolve file = .ok key)
    (hat : t.at? key = some (.file s)) (hd : Yaml.Reader.document? s = some own) :
    readDocument t file = .ok own := by
  have hread : t.readFile? file = some s := by
    simp only [FileTree.readFile?, FileTree.stat, hresolve, hat]
  simp only [readDocument, hread, hd]

/-- Paths that lead to one file lead to one document. -/
theorem readDocument_congr (hresolve : t.resolve file = t.resolve q)
    (h : readDocument t file = .ok own) : readDocument t q = .ok own := by
  have hread : t.readFile? q = t.readFile? file := by
    rw [FileTree.readFile?, FileTree.readFile?, FileTree.stat, FileTree.stat, hresolve]
  unfold readDocument at h ⊢
  rw [hread]
  cases hs : t.readFile? file with
  | none =>
    rw [hs] at h
    cases h
  | some s =>
    rw [hs] at h
    dsimp only at h ⊢
    cases hd : Yaml.Reader.document? s with
    | none =>
      rw [hd] at h
      cases h
    | some d =>
      rw [hd] at h
      exact h

theorem readDocument_error (h : readDocument t file = .error e) : e ≠ .includeCycle q := by
  rintro rfl
  unfold readDocument at h
  split at h
  · cases h
  · split at h
    · cases h
    · cases h

/-- What includes something is a file that is there. -/
theorem Includes.location (h : Includes t file child) :
    ∃ key ∈ fileLocations t, t.resolve file = .ok key ∧ t.canonical? file = some key := by
  obtain ⟨own, -, -, hown, -⟩ := h
  exact readDocument_ok hown

theorem not_includes (hown : readDocument t file = .ok own)
    (hnone : own.get? "includes" = none) : ¬Includes t file child := by
  rintro ⟨own', entries, entry, hown', hincludes, -⟩
  cases hown.symm.trans hown'
  cases hnone.symm.trans hincludes

/-! ## One level -/

section

variable {deeper : List Location → Bytes → Except LoadError Yaml} {entries : List Yaml}

/-- A file that is on the chain is blamed for a cycle. -/
theorem resolveVia_cycle (hkey : t.canonical? file = some key) (hseen : key ∈ chain) :
    resolveVia t start deeper chain file = .error (.includeCycle file) := by
  simp only [resolveVia, hkey, Option.any_some, List.contains_iff_mem.2 hseen]
  rfl

/-- A file without includes is resolved to what it holds. -/
theorem resolveVia_plain (hown : readDocument t file = .ok own)
    (hincludes : own.get? "includes" = none) (hkey : t.canonical? file = some key)
    (hnew : key ∉ chain) : resolveVia t start deeper chain file = .ok own := by
  have hseen : (t.canonical? file).any chain.contains = false := by simpa [hkey] using hnew
  simp only [resolveVia, hseen, hown, hincludes, bind, Except.bind]
  rfl

/-- A file with includes is resolved to them, layer by layer, with the rest of it on top. -/
theorem resolveVia_list (hown : readDocument t file = .ok own)
    (hincludes : own.get? "includes" = some (.seq entries)) (hkey : t.canonical? file = some key)
    (hnew : key ∉ chain) : resolveVia t start deeper chain file =
      (layer (deeper (key :: chain)) start file .null entries).bind fun below =>
        merge start below (own.erase "includes") := by
  have hseen : (t.canonical? file).any chain.contains = false := by simpa [hkey] using hnew
  simp only [resolveVia, hseen, hown, hincludes, bind, Except.bind]
  rw [hkey]
  rfl

end

/-- What there is at a file on a chain, with the answer to it : the file is on the chain already,
it cannot be read, it has no includes or no list of them, or it has a list, and then everything
in it is resolved with the file in front of the chain. -/
inductive Visit (t : FileTree) (start : Bytes) (chain : List Location) (file : Bytes) :
    ((List Location → Bytes → Except LoadError Yaml) → Except LoadError Yaml) → Prop
  | cycle {key : Location} (hkey : t.canonical? file = some key) (hseen : key ∈ chain) :
      Visit t start chain file fun _ => .error (.includeCycle file)
  | unreadable {e : LoadError} (h : readDocument t file = .error e) :
      Visit t start chain file fun _ => .error e
  | plain {own : Yaml} (hown : readDocument t file = .ok own) (h : own.get? "includes" = none) :
      Visit t start chain file fun _ => .ok own
  | notList {own v : Yaml} (hown : readDocument t file = .ok own)
      (hv : own.get? "includes" = some v) (h : ∀ entries, v ≠ .seq entries) :
      Visit t start chain file fun _ => .error (.includesNotList file)
  | list {own : Yaml} {entries : List Yaml} {key : Location}
      (hown : readDocument t file = .ok own) (h : own.get? "includes" = some (.seq entries))
      (hkey : t.canonical? file = some key) (hnew : key ∉ chain) :
      Visit t start chain file fun deeper =>
        (layer (deeper (key :: chain)) start file .null entries).bind fun below =>
          merge start below (own.erase "includes")

theorem visit (t : FileTree) (start : Bytes) (chain : List Location) (file : Bytes) :
    ∃ answer, Visit t start chain file answer ∧
      ∀ deeper, resolveVia t start deeper chain file = answer deeper := by
  cases hseen : (t.canonical? file).any chain.contains with
  | true =>
    obtain ⟨key, hkey, hmem⟩ := (Option.any_eq_true _ _).1 hseen
    have hmem : key ∈ chain := by simpa using hmem
    exact ⟨_, .cycle hkey hmem, fun deeper => resolveVia_cycle hkey hmem⟩
  | false =>
    cases hown : readDocument t file with
    | error e =>
      refine ⟨_, .unreadable hown, fun deeper => ?_⟩
      simp only [resolveVia, hseen, hown]
      rfl
    | ok own =>
      obtain ⟨key, -, -, hkey⟩ := readDocument_ok hown
      have hnew : key ∉ chain := by simpa [hkey] using hseen
      cases hincludes : own.get? "includes" with
      | none =>
        exact ⟨_, .plain hown hincludes, fun deeper => resolveVia_plain hown hincludes hkey hnew⟩
      | some v =>
        cases v with
        | seq entries =>
          exact ⟨_, .list hown hincludes hkey hnew,
            fun deeper => resolveVia_list hown hincludes hkey hnew⟩
        | null =>
          refine ⟨_, .notList hown hincludes (by simp), fun deeper => ?_⟩
          simp only [resolveVia, hseen, hown, hincludes, bind, Except.bind]
          rfl
        | scalar s =>
          refine ⟨_, .notList hown hincludes (by simp), fun deeper => ?_⟩
          simp only [resolveVia, hseen, hown, hincludes, bind, Except.bind]
          rfl
        | map l =>
          refine ⟨_, .notList hown hincludes (by simp), fun deeper => ?_⟩
          simp only [resolveVia, hseen, hown, hincludes, bind, Except.bind]
          rfl

/-! ## The chain -/

/-- The file is come to from the start, and the chain holds others that include it, each with a
location of its own. -/
structure Pending (t : FileTree) (start : Bytes) (chain : List Location) (file : Bytes) : Prop where
  reached : Reaches t start file
  nodup : chain.Nodup
  ancestor : ∀ key ∈ chain, ∃ p, Reaches t start p ∧ TransGen (Includes t) p file ∧
    t.resolve p = .ok key

namespace Pending

theorem root (t : FileTree) (start : Bytes) : Pending t start [] start :=
  ⟨.refl, List.nodup_nil, fun _ h => nomatch h⟩

/-- What a file on the way includes comes with that file on its chain. -/
theorem step (h : Pending t start chain file) (hi : Includes t file child)
    (hkey : t.canonical? file = some key) (hnew : key ∉ chain) :
    Pending t start (key :: chain) child := by
  refine ⟨h.reached.tail hi, List.nodup_cons.2 ⟨hnew, h.nodup⟩, List.forall_mem_cons.2 ⟨?_, ?_⟩⟩
  · obtain ⟨key', -, hresolve, hkey'⟩ := hi.location
    cases hkey.symm.trans hkey'
    exact ⟨file, h.reached, .single hi, hresolve⟩
  · intro key' hmem
    obtain ⟨p, hp, hfile, hresolve⟩ := h.ancestor key' hmem
    exact ⟨p, hp, hfile.tail hi, hresolve⟩

/-- A file that names one on the chain is included by it. -/
theorem loops (h : Pending t start chain file) (hkey : t.canonical? file = some key)
    (hseen : key ∈ chain) : Loops t start file := by
  obtain ⟨p, hp, hfile, hresolve⟩ := h.ancestor key hseen
  exact ⟨p, key, hp, hfile, hresolve, hkey⟩

/-- The chain is made of files. -/
theorem mem_fileLocations (h : Pending t start chain file) (hmem : key ∈ chain) :
    key ∈ fileLocations t := by
  obtain ⟨p, -, hfile, hresolve⟩ := h.ancestor key hmem
  obtain ⟨c, hi, -⟩ := TransGen.head'_iff.1 hfile
  obtain ⟨key', hlocation, hresolve', -⟩ := hi.location
  cases hresolve.symm.trans hresolve'
  exact hlocation

/-- A chain is no longer than there are files. -/
theorem length_le (h : Pending t start chain file) : chain.length ≤ (fileLocations t).ncard :=
  length_le_ncard h.nodup fun _ => h.mem_fileLocations

/-- A file that includes nothing is on no chain. -/
theorem notMem (h : Pending t start chain file) (hown : readDocument t q = .ok own)
    (hnone : own.get? "includes" = none) (hkey : t.canonical? q = some key) : key ∉ chain := by
  intro hmem
  obtain ⟨p, -, hfile, hresolve⟩ := h.ancestor key hmem
  obtain ⟨c, hi, -⟩ := TransGen.head'_iff.1 hfile
  obtain ⟨key', -, hresolve', hkey'⟩ := readDocument_ok hown
  cases hkey.symm.trans hkey'
  exact not_includes (readDocument_congr (hresolve'.trans hresolve.symm) hown) hnone hi

end Pending

/-! ## How deep it goes -/

/-- One level asks for what is included, with the file in front of the chain. -/
theorem resolveVia_congr {deeper deeper' : List Location → Bytes → Except LoadError Yaml}
    (h : Pending t start chain file)
    (hdeeper : ∀ key child, Pending t start (key :: chain) child →
      deeper (key :: chain) child = deeper' (key :: chain) child) :
    resolveVia t start deeper chain file = resolveVia t start deeper' chain file := by
  obtain ⟨answer, hvisit, hanswer⟩ := visit t start chain file
  rw [hanswer, hanswer]
  cases hvisit with
  | cycle hkey hseen => rfl
  | unreadable h => rfl
  | plain hown h => rfl
  | notList hown hv h => rfl
  | list hown hincludes hkey hnew =>
    beta_reduce
    rw [layer_congr fun entry hentry => hdeeper _ _
      (h.step ⟨_, _, entry, hown, hincludes, hentry, rfl⟩ hkey hnew)]

/-- Level by level, what is thought to be behind the last one does not matter. -/
theorem iterate_resolveVia_congr (b b' : List Location → Bytes → Except LoadError Yaml)
    (h : Pending t start chain file) (hn : (fileLocations t).ncard < n + chain.length) :
    (resolveVia t start)^[n] b chain file = (resolveVia t start)^[n] b' chain file := by
  induction n generalizing chain file with
  | zero => exact absurd h.length_le (by omega)
  | succ n ih =>
    rw [Function.iterate_succ_apply', Function.iterate_succ_apply']
    exact resolveVia_congr h fun key child hchild => ih hchild (by rw [List.length_cons]; omega)

/-- Resolving so many levels deep is one level over and over, with a cycle behind the last. -/
theorem resolve_eq_iterate (n : Nat) : resolve t start n =
    (resolveVia t start)^[n] fun _ file => .error (.includeCycle file) := by
  induction n with
  | zero => rfl
  | succ n ih => rw [Function.iterate_succ_apply', ← ih, resolve]

/-! ## What resolves leads to no cycle -/

/-- What resolves is not on its own chain. -/
theorem notMem_of_resolve (h : resolve t start n chain file = .ok d)
    (hkey : t.canonical? file = some key) : key ∉ chain := by
  cases n with
  | zero => cases h
  | succ n =>
    intro hseen
    rw [resolve, resolveVia, hkey] at h
    simp only [Option.any_some, List.contains_iff_mem.2 hseen] at h
    cases h

/-- If a file resolves, so does all it includes, on the longer chain. -/
theorem resolve_of_includes (h : resolve t start n chain file = .ok d)
    (hi : Includes t file child) (hkey : t.canonical? file = some key) :
    ∃ n' d', resolve t start n' (key :: chain) child = .ok d' := by
  obtain ⟨own, entries, entry, hown, hincludes, hentry, rfl⟩ := hi
  cases n with
  | zero => cases h
  | succ n =>
    obtain ⟨answer, hvisit, hanswer⟩ := visit t start chain file
    rw [resolve, hanswer] at h
    cases hvisit with
    | cycle hkey hseen => cases h
    | unreadable h' => cases h
    | plain hown' hincludes' =>
      cases hown.symm.trans hown'
      cases hincludes.symm.trans hincludes'
    | notList hown' hv hv' => cases h
    | list hown' hincludes' hkey' hnew =>
      cases hown.symm.trans hown'
      cases hincludes.symm.trans hincludes'
      cases hkey.symm.trans hkey'
      obtain ⟨below, hlayer, -⟩ := bind_eq_ok.1 h
      exact ⟨n, layer_ok hlayer hentry⟩

/-- If a file resolves, so does all that it leads to. -/
theorem resolve_of_reaches (h : resolve t start n chain file = .ok d) (hr : Reaches t file q) :
    ∃ n' chain' d', chain ⊆ chain' ∧ resolve t start n' chain' q = .ok d' := by
  induction hr with
  | refl => exact ⟨n, chain, d, List.Subset.refl _, h⟩
  | tail hr hi ih =>
    obtain ⟨n', chain', d', hsub, h'⟩ := ih
    obtain ⟨key, -, -, hkey⟩ := hi.location
    obtain ⟨n'', d'', h''⟩ := resolve_of_includes h' hi hkey
    exact ⟨n'', key :: chain', d'', List.subset_cons_of_subset _ hsub, h''⟩

/-- What resolves leads to no cycle. -/
theorem not_loops_of_resolve (h : resolve t start n chain start = .ok d) : ¬Loops t start q := by
  rintro ⟨p, key, hp, hq, hresolve, hkey⟩
  obtain ⟨n₁, chain₁, d₁, -, h₁⟩ := resolve_of_reaches h hp
  obtain ⟨child, hi, hchild⟩ := TransGen.head'_iff.1 hq
  obtain ⟨key', -, hresolve', hkey'⟩ := hi.location
  cases hresolve.symm.trans hresolve'
  obtain ⟨n₂, d₂, h₂⟩ := resolve_of_includes h₁ hi hkey'
  obtain ⟨n₃, chain₃, d₃, hsub, h₃⟩ := resolve_of_reaches h₂ hchild
  exact notMem_of_resolve h₃ hkey (hsub List.mem_cons_self)

/-! ## Where a cycle is found -/

/-- A cycle that is blamed is there, as long as there are levels for all files. -/
theorem loops_of_resolve (h : Pending t start chain file)
    (hn : (fileLocations t).ncard < n + chain.length)
    (he : resolve t start n chain file = .error (.includeCycle q)) : Loops t start q := by
  induction n generalizing chain file with
  | zero => exact absurd h.length_le (by omega)
  | succ n ih =>
    obtain ⟨answer, hvisit, hanswer⟩ := visit t start chain file
    rw [resolve, hanswer] at he
    cases hvisit with
    | cycle hkey hseen =>
      cases he
      exact h.loops hkey hseen
    | unreadable hread =>
      cases he
      exact absurd rfl (readDocument_error hread)
    | plain hown hincludes => cases he
    | notList hown hv hv' => cases he
    | @list own entries key hown hincludes hkey hnew =>
      obtain hlayer | ⟨below, -, hmerge⟩ := bind_eq_error.1 he
      · obtain ⟨entry, hentry, hcycle⟩ := layer_includeCycle hlayer
        exact ih (h.step ⟨own, entries, entry, hown, hincludes, hentry, rfl⟩ hkey hnew)
          (by rw [List.length_cons]; omega) hcycle
      · cases merge_error hmerge

/-- Without a cycle, everything that can be read and merged resolves. -/
theorem resolve_isOk (hloops : ∀ q, ¬Loops t start q) (hsound : ∀ p, Reaches t start p → Sound t p)
    (h : Pending t start chain file) (hn : (fileLocations t).ncard < n + chain.length) :
    ∃ d, resolve t start n chain file = .ok d ∧ d.TextKeyed := by
  induction n generalizing chain file with
  | zero => exact absurd h.length_le (by omega)
  | succ n ih =>
    obtain ⟨own, hown, htext, hpaths⟩ := hsound file h.reached
    obtain ⟨answer, hvisit, hanswer⟩ := visit t start chain file
    rw [resolve, hanswer]
    cases hvisit with
    | cycle hkey hseen => exact absurd (h.loops hkey hseen) (hloops file)
    | unreadable hread => cases hown.symm.trans hread
    | plain hown' hincludes =>
      cases hown.symm.trans hown'
      exact ⟨own, rfl, htext⟩
    | notList hown' hv hv' =>
      cases hown.symm.trans hown'
      obtain ⟨paths, rfl⟩ := hpaths _ hv
      exact absurd rfl (hv' _)
    | @list own' entries key hown' hincludes hkey hnew =>
      cases hown.symm.trans hown'
      obtain ⟨paths, heq⟩ := hpaths _ hincludes
      cases heq
      have hincluded : ∀ entry ∈ paths, ∃ d,
          resolve t start n (key :: chain) (includedPath file entry) = .ok d ∧ d.TextKeyed :=
        fun entry hentry => ih
          (h.step ⟨own, _, entry, hown, hincludes, List.mem_map_of_mem hentry, rfl⟩ hkey hnew)
          (by rw [List.length_cons]; omega)
      obtain ⟨below, hbelow, hbelowText⟩ := layer_isOk start
        (.leaf rfl : Yaml.TextKeyed .null) hincluded
      obtain ⟨d, hd, htextd⟩ := merge_isOk start hbelowText htext.erase
      refine ⟨d, ?_, htextd⟩
      beta_reduce
      rw [hbelow, Except.bind, hd]

/-! ## Loading -/

/-- However files include each other, loading goes no deeper than one level more than there are
files. It never gives a configuration where the start leads to a cycle, and blames a cycle only
on a file that includes the one it names. Without a cycle it resolves every file that can be
read and merged. The reader is any whose documents are trees without aliases. -/
theorem load_includes (t : FileTree) (start : Bytes) :
    (∀ deeper, load t start =
      (resolveVia t start)^[(fileLocations t).ncard + 1] deeper [] start >>= ofYaml) ∧
    (∀ c q, load t start = .ok c → ¬Loops t start q) ∧
    (∀ q, load t start = .error (.includeCycle q) → Loops t start q) ∧
    ((∀ q, ¬Loops t start q) → (∀ p, Reaches t start p → Sound t p) →
      ∃ d, resolve t start (t.fileCount + 1) [] start = .ok d ∧ load t start = ofYaml d) := by
  have hroot : Pending t start [] start := .root t start
  have hcount : (fileLocations t).ncard ≤ t.fileCount := ncard_fileLocations_le t
  have hfiles : (fileLocations t).ncard < t.fileCount + 1 + ([] : List Location).length := by
    rw [List.length_nil]
    omega
  refine ⟨fun deeper => ?_, fun c q hload => ?_, fun q hload => ?_, fun hloops hsound => ?_⟩
  · have hsplit : resolve t start (t.fileCount + 1) =
        (resolveVia t start)^[(fileLocations t).ncard + 1]
          (resolve t start (t.fileCount - (fileLocations t).ncard)) := by
      have hlevels : (fileLocations t).ncard + 1 + (t.fileCount - (fileLocations t).ncard) =
          t.fileCount + 1 := by omega
      rw [resolve_eq_iterate, resolve_eq_iterate, ← Function.iterate_add_apply, hlevels]
    rw [load, hsplit, iterate_resolveVia_congr _ deeper hroot (by simp)]
  · obtain ⟨d, hresolve, -⟩ := bind_eq_ok.1 hload
    exact not_loops_of_resolve hresolve
  · obtain hresolve | ⟨d, -, hsettings⟩ := bind_eq_error.1 hload
    · exact loops_of_resolve hroot hfiles hresolve
    · exact absurd hsettings (CycleFree.ofYaml d q)
  · obtain ⟨d, hd, -⟩ := resolve_isOk hloops hsound hroot hfiles
    refine ⟨d, hd, ?_⟩
    rw [load, hd]
    rfl

end Reading

/-- A file that includes itself, by a detour through a directory. -/
example : load ⟨[(["main.yaml"], .file "includes: [x/../main.yaml]"), (["x"], .directory)]⟩
    "main.yaml" = .error (.includeCycle "x/../main.yaml") := by
  decide +kernel

/-- A file that is come to on two ways. -/
example : (load ⟨[(["main.yaml"], .file "includes: [a.yaml, b.yaml]"),
      (["a.yaml"], .file "includes: [c.yaml]"), (["b.yaml"], .file "includes: [c.yaml]"),
      (["c.yaml"], .file "source: \x7bsnapshot_dir: \x7bpath: shots\x7d\x7d")]⟩
    "main.yaml").map (·.source.snapshotPath) = .ok "shots" := by
  decide +kernel

end Config

end ClusterEvidence
