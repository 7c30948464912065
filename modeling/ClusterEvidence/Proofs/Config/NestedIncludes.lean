import ClusterEvidence.Proofs.Config.EmptyIncludes
import ClusterEvidence.Proofs.Files.Path
import ClusterEvidence.Proofs.Yaml.Nesting

/-!
# Includes that move into a file of their own

A run of includes of a file can move into another file next to it, which is then included in their
place (`Config.Move`). What is included there is seen from the same directory, so it is the same
files, but they are laid over each other before they are laid over the includes in front of them.
For documents of one shape that comes to the same (`layer_nested`).

The files are resolved on a chain that may have the new file on it, which nothing but its own
includer leads to (`Tracks`), and one level deeper where it is. So level by level nothing changes
(`resolve_move`), except that the new file is blamed for an entry that is no path, where the entry
is in there now (`Shifted`).
-/

namespace ClusterEvidence

namespace Config

variable {t t' : FileTree} {start file file' name : Bytes} {chain chain' : List Location}
  {key : Location} {own d a b ab below : Yaml} {n n' : Nat} {maps : List Bytes → Bool}

/-! ## Layers on layers -/

section Layers

variable {fetch : Bytes → Except LoadError Yaml} {entries : List Yaml}

/-- Nothing yet, or a document of the shape. -/
def Ground (maps : List Bytes → Bool) (d : Yaml) : Prop := d = .null ∨ d.Shaped maps

theorem merge_eq_ok : merge start a b = .ok d ↔ Yaml.overlay a b = .ok d :=
  mapError_eq_ok

theorem merge_null (start : Bytes) (d : Yaml) : merge start .null d = .ok d :=
  merge_of_not_map (.inl rfl)

/-- A document of a shape can be laid over nothing or over one of that shape, which it keeps. -/
theorem Ground.merge (start : Bytes) (ha : Ground maps a) (hb : b.Shaped maps) :
    ∃ d, merge start a b = .ok d ∧ d.Shaped maps := by
  rcases ha with rfl | ha
  · exact ⟨b, merge_null start b, hb⟩
  · obtain ⟨d, hd, -⟩ := Yaml.overlay_isOk ha.unique.textKeyed hb.unique.textKeyed
    exact ⟨d, merge_eq_ok.2 hd, ha.overlay hb hd⟩

theorem Ground.assoc {c bc : Yaml} (ha : Ground maps a) (hb : b.Shaped maps) (hc : c.Shaped maps)
    (h : Config.merge start a b = .ok ab) (h' : Config.merge start b c = .ok bc) :
    Config.merge start ab c = Config.merge start a bc := by
  rcases ha with rfl | ha
  · cases (merge_null start b).symm.trans h
    rw [h', merge_null]
  · rw [Config.merge, Config.merge, ha.assoc hb hc (merge_eq_ok.1 h) (merge_eq_ok.1 h')]

/-- What is included is of the shape, if it is there. -/
def FetchShaped (fetch : Bytes → Except LoadError Yaml) (file : Bytes) (maps : List Bytes → Bool)
    (entries : List Yaml) : Prop :=
  ∀ entry d, .scalar entry ∈ entries → fetch (includedPath file entry) = .ok d → d.Shaped maps

theorem FetchShaped.tail {x : Yaml} (h : FetchShaped fetch file maps (x :: entries)) :
    FetchShaped fetch file maps entries :=
  fun entry d hentry => h entry d (List.mem_cons_of_mem x hentry)

/-- Layers of one shape come to that shape. -/
theorem layer_shaped (hfetch : FetchShaped fetch file maps entries) (hb : below.Shaped maps)
    (h : layer fetch start file below entries = .ok d) : d.Shaped maps := by
  induction entries generalizing below with
  | nil => exact Except.ok.inj h ▸ hb
  | cons x entries ih =>
    cases x with
    | scalar entry =>
      rw [layer_scalar] at h
      obtain ⟨d₁, hd₁, h⟩ := bind_eq_ok.1 h
      obtain ⟨b₁, hb₁, h⟩ := bind_eq_ok.1 h
      obtain ⟨b₂, hb₂, hshaped⟩ := Ground.merge start (.inr hb) (hfetch entry d₁ List.mem_cons_self hd₁)
      cases hb₁.symm.trans hb₂
      exact ih hfetch.tail hshaped h
    | null => cases h
    | seq l => cases h
    | map l => cases h

theorem layer_ground (hfetch : FetchShaped fetch file maps entries) (hb : Ground maps below)
    (h : layer fetch start file below entries = .ok d) : Ground maps d := by
  cases entries with
  | nil => exact Except.ok.inj h ▸ hb
  | cons x entries =>
    cases x with
    | scalar entry =>
      rw [layer_scalar] at h
      obtain ⟨d₁, hd₁, h⟩ := bind_eq_ok.1 h
      obtain ⟨b₁, hb₁, h⟩ := bind_eq_ok.1 h
      obtain ⟨b₂, hb₂, hshaped⟩ := hb.merge start (hfetch entry d₁ List.mem_cons_self hd₁)
      cases hb₁.symm.trans hb₂
      exact .inr (layer_shaped hfetch.tail hshaped h)
    | null => cases h
    | seq l => cases h
    | map l => cases h

/-- Layers laid over a document that is then laid over another one. -/
theorem layer_over (hfetch : FetchShaped fetch file maps entries) (ha : Ground maps a)
    (hb : b.Shaped maps) (hab : merge start a b = .ok ab) :
    (layer fetch start file b entries).bind (merge start a) = layer fetch start file ab entries := by
  induction entries generalizing b ab with
  | nil => exact hab
  | cons x entries ih =>
    cases x with
    | scalar entry =>
      rw [layer_scalar, layer_scalar]
      cases hd : fetch (includedPath file entry) with
      | error e => rfl
      | ok d =>
        have hshaped : d.Shaped maps := hfetch entry d List.mem_cons_self hd
        obtain ⟨bd, hbd, hbd'⟩ := Ground.merge start (.inr hb) hshaped
        obtain ⟨abd, habd, -⟩ := ha.merge start hbd'
        have hassoc : merge start ab d = .ok abd := (ha.assoc hb hshaped hab hbd).trans habd
        simp only [Except.bind, hbd, hassoc]
        exact ih hfetch.tail hbd' habd
    | null => rfl
    | seq l => rfl
    | map l => rfl

/-- Layers of their own, with an empty map on top, behind which nothing shows whether there was
anything. -/
theorem layer_nested {f : Yaml → Except LoadError Yaml} (hmaps : maps [] = true)
    (hfetch : FetchShaped fetch file maps entries) (ha : Ground maps a)
    (hf : f .null = f (.map [])) :
    (((layer fetch start file .null entries).bind fun d => merge start d (.map [])).bind
        fun d => (merge start a d).bind f) = (layer fetch start file a entries).bind f := by
  have hempty : ∀ {d : Yaml}, d.Shaped maps → merge start d (.map []) = .ok d := fun h => by
    obtain ⟨l, rfl⟩ := Yaml.exists_map ((h.isMap_eq [] _ rfl).trans hmaps)
    exact merge_eq_ok.2 (Yaml.overlay_map_nil l)
  cases entries with
  | nil =>
    simp only [layer, Except.bind, merge_null]
    rcases ha with rfl | ha
    · rw [merge_null]
      exact hf.symm
    · rw [hempty ha]
  | cons x entries =>
    cases x with
    | scalar entry =>
      rw [layer_scalar, layer_scalar]
      cases hd : fetch (includedPath file entry) with
      | error e => rfl
      | ok d =>
        have hshaped : d.Shaped maps := hfetch entry d List.mem_cons_self hd
        obtain ⟨ad, had, -⟩ := ha.merge start hshaped
        simp only [Except.bind, merge_null, had]
        rw [← layer_over hfetch.tail ha hshaped had]
        cases hlayer : layer fetch start file d entries with
        | error e => rfl
        | ok r => simp only [Except.bind, hempty (layer_shaped hfetch.tail hshaped hlayer)]
    | null => rfl
    | seq l => rfl
    | map l => rfl

/-- Where a document of the shape is laid over it, an empty map is as good as nothing. -/
theorem layer_start (start : Bytes) {rest : Yaml} (hmaps : maps [] = true)
    (hfetch : FetchShaped fetch file maps entries) (hrest : rest.Shaped maps) :
    ((layer fetch start file .null entries).bind fun below => merge start below rest) =
      (layer fetch start file (.map []) entries).bind fun below => merge start below rest := by
  have hcovered : ∀ {d : Yaml}, d.Shaped maps → merge start (.map []) d = merge start .null d :=
    fun h => by
      obtain ⟨l, rfl⟩ := Yaml.exists_map ((h.isMap_eq [] _ rfl).trans hmaps)
      rw [merge_null, merge_eq_ok.2 (Yaml.overlay_nil_map h.unique)]
  cases entries with
  | nil => exact (hcovered hrest).symm
  | cons x entries =>
    cases x with
    | scalar entry =>
      rw [layer_scalar, layer_scalar]
      cases hd : fetch (includedPath file entry) with
      | error e => rfl
      | ok d => simp only [Except.bind, hcovered (hfetch entry d List.mem_cons_self hd)]
    | null => rfl
    | seq l => rfl
    | map l => rfl

end Layers

/-! ## Blaming the new file -/

/-- The answers are the same, or one of the files with a property is blamed for an entry that is no
path, and then the file with that name next to it. -/
inductive Shifted {α : Type} (P : Bytes → Prop) (name : Bytes) :
    Except LoadError α → Except LoadError α → Prop
  | same (x : Except LoadError α) : Shifted P name x x
  | moved {q : Bytes} (h : P q) : Shifted P name (.error (.includesNotPaths q))
      (.error (.includesNotPaths (includedPath q name)))

namespace Shifted

variable {α β : Type} {P : Bytes → Prop}

/-- Runs that differ at all blame the old file and the new one for an entry that is no path. -/
theorem eq_or {x x' : Except LoadError α} (h : Shifted P name x x') : x' = x ∨ ∃ q, P q ∧
    x = .error (.includesNotPaths q) ∧ x' = .error (.includesNotPaths (includedPath q name)) := by
  cases h with
  | same x => exact .inl rfl
  | moved h => exact .inr ⟨_, h, rfl, rfl⟩

theorem bind {x x' : Except LoadError α} {f f' : α → Except LoadError β} (hx : Shifted P name x x')
    (hf : ∀ a, x = .ok a → Shifted P name (f a) (f' a)) :
    Shifted P name (x.bind f) (x'.bind f') := by
  cases hx with
  | same x =>
    cases x with
    | error e => exact .same _
    | ok a => exact hf a rfl
  | moved h => exact .moved h

theorem layer {fetch fetch' : Bytes → Except LoadError Yaml} {entries : List Yaml}
    (hpath : ∀ entry, includedPath file' entry = includedPath file entry)
    (hfetch : ∀ entry, .scalar entry ∈ entries →
      Shifted P name (fetch (includedPath file entry)) (fetch' (includedPath file entry)))
    (hblame : ∀ x ∈ entries, (∀ s, x ≠ .scalar s) → Shifted P name
      (.error (.includesNotPaths file) : Except LoadError Yaml) (.error (.includesNotPaths file'))) :
    Shifted P name (layer fetch start file below entries)
      (Config.layer fetch' start file' below entries) := by
  induction entries generalizing below with
  | nil => exact .same _
  | cons x entries ih =>
    have hrest : ∀ {below}, Shifted P name (Config.layer fetch start file below entries)
        (Config.layer fetch' start file' below entries) :=
      ih (fun entry hentry => hfetch entry (List.mem_cons_of_mem x hentry))
        fun y hy => hblame y (List.mem_cons_of_mem x hy)
    cases x with
    | scalar entry =>
      rw [layer_scalar, layer_scalar, hpath]
      exact (hfetch entry List.mem_cons_self).bind fun d _ =>
        (Shifted.same _).bind fun below _ => hrest
    | null => exact hblame .null List.mem_cons_self fun s => nofun
    | seq l => exact hblame (.seq l) List.mem_cons_self fun s => nofun
    | map l => exact hblame (.map l) List.mem_cons_self fun s => nofun

end Shifted

/-! ## The new file -/

section Reading

variable [Yaml.Reader]

/-- A run of the includes of a file that moves into a new file in the same directory. -/
structure Move (t : FileTree) (start : Bytes) where
  /-- Where the file stands. -/
  key : Location
  old : Bytes
  before : List Yaml
  run : List Yaml
  after : List Yaml
  /-- All that the file says apart from its includes. -/
  rest : Yaml
  /-- Where the new file will stand. -/
  newKey : Location
  name : Bytes
  changed : Bytes
  moved : Bytes
  hfile : t.at? key = some (.file old)
  hfree : t.at? newKey = none
  hname : Path.slash ∉ name
  /-- From wherever the file is included, the name leads to the new one. -/
  hbeside : ∀ file, Reaches t start file → t.resolve file = .ok key →
    t.resolve (includedPath file name) = .ok newKey
  hold : Lists old (before ++ run ++ after) rest
  hchanged : Lists changed (before ++ .scalar name :: after) rest
  /-- The new file says nothing else. -/
  hmoved : Lists moved run (.map [])

/-- All files that are come to hold maps with unique keys, any two of them compatible. -/
structure Nestable (t : FileTree) (start : Bytes) : Prop where
  document : ∀ file, Reaches t start file →
    ∃ own, readDocument t file = .ok own ∧ own.isMap = true ∧ own.UniqueKeyed
  compatible : ∀ file file' own own', Reaches t start file → Reaches t start file' →
    readDocument t file = .ok own → readDocument t file' = .ok own' → own.Compatible own'

/-- Compatible documents have one shape. -/
theorem Nestable.exists_shaped (h : Nestable t start) : ∃ maps, maps [] = true ∧
    ∀ file, Reaches t start file → ∃ own, readDocument t file = .ok own ∧ own.Shaped maps := by
  obtain ⟨maps, hmaps⟩ := Yaml.exists_shaped
    (P := fun own => ∃ file, Reaches t start file ∧ readDocument t file = .ok own)
    (fun own ⟨file, hr, hown⟩ => by
      obtain ⟨own', hown', -, hunique⟩ := h.document file hr
      cases hown.symm.trans hown'
      exact hunique)
    fun own own' ⟨file, hr, hown⟩ ⟨file', hr', hown'⟩ =>
      h.compatible file file' own own' hr hr' hown hown'
  refine ⟨maps, ?_, fun file hr => ?_⟩
  · obtain ⟨own, hown, hmap, -⟩ := h.document start .refl
    exact ((hmaps own ⟨start, .refl, hown⟩).isMap_eq [] own rfl).symm.trans hmap
  · obtain ⟨own, hown, -⟩ := h.document file hr
    exact ⟨own, hown, hmaps own ⟨file, hr, hown⟩⟩

namespace Move

variable (m : Move t start)

/-- The tree with the new file. -/
def tree : FileTree := (t.put m.newKey (.file m.moved)).put m.key (.file m.changed)

theorem newKey_ne_key : m.newKey ≠ m.key := fun heq =>
  nomatch (heq ▸ m.hfree : t.at? m.key = none).symm.trans m.hfile

theorem at?_key : m.tree.at? m.key = some (.file m.changed) :=
  FileTree.at?_put_self (FileTree.isAbove_eq_false (by rw [m.hfile]; simp)) _ _

/-- The new file holds the run. -/
theorem at?_newKey : m.tree.at? m.newKey = some (.file m.moved) := by
  rw [tree, FileTree.at?_put_of_ne m.newKey_ne_key]
  exact FileTree.at?_put_self (FileTree.isAbove_eq_false (by rw [m.hfree]; simp)) _ _

theorem at?_of_ne {l : Location} (h : l ≠ m.key) (h' : l ≠ m.newKey) : m.tree.at? l = t.at? l := by
  rw [tree, FileTree.at?_put_of_ne h, FileTree.at?_put_of_ne h']

/-- No file stood where the new one does. -/
theorem ne_newKey {l : Location} (h : l ∈ fileLocations t) : l ≠ m.newKey := by
  obtain ⟨s, hs⟩ := h
  rintro rfl
  cases hs.symm.trans m.hfree

/-- Paths lead where they led. -/
theorem resolve_tree (h : t.resolve file = .ok key) : m.tree.resolve file = .ok key := by
  have hadded : t.Extends (t.put m.newKey (.file m.moved)) := .put (by rw [m.hfree]; simp)
  have hkey : (t.put m.newKey (.file m.moved)).at? m.key = some (.file m.old) :=
    (FileTree.at?_put_of_ne m.newKey_ne_key.symm _ _).trans m.hfile
  exact (hadded.trans (.put (by rw [hkey]; simp))).resolve h

/-- A file that was there keeps its name. -/
theorem canonical?_tree (hkey : key ∈ fileLocations t) (h : t.resolve file = .ok key) :
    m.tree.canonical? file = some key := by
  have hfile : ∃ e, m.tree.at? key = some e := by
    by_cases heq : key = m.key
    · exact ⟨_, heq ▸ m.at?_key⟩
    · obtain ⟨s, hs⟩ := hkey
      exact ⟨_, (m.at?_of_ne heq (m.ne_newKey ⟨s, hs⟩)).trans hs⟩
  obtain ⟨e, he⟩ := hfile
  exact canonical?_of_at? (m.resolve_tree h) he

/-- Any other file holds what it held. -/
theorem readDocument_tree (hkey : key ∈ fileLocations t) (h : t.resolve file = .ok key)
    (hne : key ≠ m.key) : readDocument m.tree file = readDocument t file := by
  have hat : m.tree.at? key = t.at? key := m.at?_of_ne hne (m.ne_newKey hkey)
  simp only [readDocument, FileTree.readFile?, FileTree.stat, m.resolve_tree h, h, hat]

/-- The new file sees what it includes from where the file with the run sees it. -/
theorem includedPath_beside (file entry : Bytes) :
    includedPath (includedPath file m.name) entry = includedPath file entry := by
  simp only [includedPath, Path.parent_join_parent m.hname]

/-- Such a file may be blamed for an entry that is no path, as one of the run is none. -/
def Blamed (q : Bytes) : Prop :=
  (∃ x ∈ m.run, ∀ s, x ≠ .scalar s) ∧ Reaches t start q ∧ t.resolve q = .ok m.key

/-- What is on a chain is on the other one, where the new file may be on it too, behind its
includer. -/
structure Tracks (chain chain' : List Location) : Prop where
  same : ∀ l, l ≠ m.newKey → (l ∈ chain' ↔ l ∈ chain)
  added : m.newKey ∈ chain' → m.key ∈ chain

variable {m}

/-- Chains that go along do so with one file more on both. -/
theorem Tracks.cons (h : m.Tracks chain chain') (hne : key ≠ m.newKey) :
    m.Tracks (key :: chain) (key :: chain') where
  same l hl := by rw [List.mem_cons, List.mem_cons, h.same l hl]
  added hmem := List.mem_cons_of_mem key
    (h.added ((List.mem_cons.1 hmem).resolve_left fun heq => hne heq.symm))

/-- The new file may be on its chain, behind the one with the run. -/
theorem Tracks.detour (h : m.Tracks chain chain') :
    m.Tracks (m.key :: chain) (m.newKey :: m.key :: chain') where
  same l hl := by
    rw [List.mem_cons, List.mem_cons, List.mem_cons, h.same l hl]
    exact or_iff_right hl
  added _ := List.mem_cons_self

end Move

/-! ## Resolving -/

section Resolving

variable {deeper deeper' : List Location → Bytes → Except LoadError Yaml}

/-- What files come to has their shape. -/
theorem resolve_shaped
    (hdocs : ∀ file, Reaches t start file → ∃ own, readDocument t file = .ok own ∧ own.Shaped maps)
    (hr : Reaches t start file) (h : resolve t start n chain file = .ok d) : d.Shaped maps := by
  induction n generalizing chain file d with
  | zero => cases h
  | succ n ih =>
    obtain ⟨own, hown, hshaped⟩ := hdocs file hr
    obtain ⟨answer, hvisit, hanswer⟩ := visit t start chain file
    rw [resolve, hanswer] at h
    cases hvisit with
    | cycle hkey hseen => cases h
    | unreadable hread => cases h
    | plain hown' hincludes =>
      cases hown.symm.trans hown'
      exact Except.ok.inj h ▸ hshaped
    | notList hown' hv hv' => cases h
    | @list own' entries key hown' hincludes hkey hnew =>
      cases hown.symm.trans hown'
      obtain ⟨below, hlayer, hmerge⟩ := bind_eq_ok.1 h
      have hfetch : FetchShaped (resolve t start n (key :: chain)) file maps entries :=
        fun entry d hentry => ih (hr.tail ⟨own, entries, entry, hown, hincludes, hentry, rfl⟩)
      obtain ⟨d', hd', hshaped'⟩ := (layer_ground hfetch (.inl rfl) hlayer).merge start hshaped.erase
      cases hmerge.symm.trans hd'
      exact hshaped'

/-- Includes that are no list are blamed on their file. -/
theorem resolveVia_notList {v : Yaml} (hown : readDocument t file = .ok own)
    (hv : own.get? "includes" = some v) (hnot : ∀ entries, v ≠ .seq entries)
    (hkey : t.canonical? file = some key) (hnew : key ∉ chain) :
    resolveVia t start deeper chain file = .error (.includesNotList file) := by
  obtain ⟨answer, hvisit, hanswer⟩ := visit t start chain file
  rw [hanswer]
  cases hvisit with
  | cycle hkey' hseen =>
    cases hkey.symm.trans hkey'
    exact absurd hseen hnew
  | unreadable h => cases hown.symm.trans h
  | plain hown' h =>
    cases hown.symm.trans hown'
    cases hv.symm.trans h
  | notList hown' hv' h => rfl
  | list hown' h hkey' hnew' =>
    cases hown.symm.trans hown'
    exact absurd (Option.some.inj (hv.symm.trans h)) (hnot _)

/-- A file that holds what it held answers as it did, if what it includes does. -/
theorem Shifted.resolveVia {P : Bytes → Prop} (hown : readDocument t file = .ok own)
    (hown' : readDocument t' file = .ok own) (hkey : t.canonical? file = some key)
    (hkey' : t'.canonical? file = some key) (hseen : key ∈ chain' ↔ key ∈ chain)
    (hdeeper : ∀ child, Includes t file child → key ∉ chain →
      Shifted P name (deeper (key :: chain) child) (deeper' (key :: chain') child)) :
    Shifted P name (resolveVia t start deeper chain file)
      (Config.resolveVia t' start deeper' chain' file) := by
  by_cases hmem : key ∈ chain
  · rw [resolveVia_cycle hkey hmem, resolveVia_cycle hkey' (hseen.2 hmem)]
    exact .same _
  · have hmem' : key ∉ chain' := mt hseen.1 hmem
    cases hv : own.get? "includes" with
    | none =>
      rw [resolveVia_plain hown hv hkey hmem, resolveVia_plain hown' hv hkey' hmem']
      exact .same _
    | some v =>
      by_cases hlist : ∃ entries, v = .seq entries
      · obtain ⟨entries, rfl⟩ := hlist
        rw [resolveVia_list hown hv hkey hmem, resolveVia_list hown' hv hkey' hmem']
        refine (Shifted.layer (fun _ => rfl) (fun entry hentry => ?_) fun _ _ _ => .same _).bind
          fun below _ => .same _
        exact hdeeper _ ⟨own, entries, entry, hown, hv, hentry, rfl⟩ hmem
      · have hnot : ∀ entries, v ≠ .seq entries := fun entries heq => hlist ⟨entries, heq⟩
        rw [resolveVia_notList hown hv hnot hkey hmem, resolveVia_notList hown' hv hnot hkey' hmem']
        exact .same _

/-- Beyond as many levels as there are files, one more makes no difference. -/
theorem resolve_levels (hn : (fileLocations t).ncard < n) (hle : n ≤ n') :
    resolve t start n [] start = resolve t start n' [] start := by
  obtain ⟨k, rfl⟩ := Nat.exists_eq_add_of_le hle
  have hsplit : resolve t start (n + k) = (Config.resolveVia t start)^[n] (resolve t start k) := by
    rw [resolve_eq_iterate, resolve_eq_iterate, Function.iterate_add_apply]
  rw [hsplit, resolve_eq_iterate]
  exact iterate_resolveVia_congr _ _ (.root t start) (by simpa using hn)

end Resolving

namespace Move

variable (m : Move t start)

/-- The file with the run comes to the same by way of the new file. -/
theorem resolveVia_move
    (hdocs : ∀ file, Reaches t start file → ∃ own, readDocument t file = .ok own ∧ own.Shaped maps)
    (hmaps : maps [] = true) (hr : Reaches t start file) (hresolve : t.resolve file = .ok m.key)
    (hnew : m.key ∉ chain) (htracks : m.Tracks chain chain')
    (hdeeper : ∀ child chain', Includes t file child → m.Tracks (m.key :: chain) chain' →
      ∀ k, 2 * n ≤ k →
        Shifted m.Blamed m.name (resolve t start n (m.key :: chain) child)
          (resolve m.tree start k chain' child)) (hn : 2 * n ≤ n') :
    Shifted m.Blamed m.name (resolve t start (n + 1) chain file)
      (resolve m.tree start (n' + 2) chain' file) := by
  have hincludes : ∀ {entry}, .scalar entry ∈ m.before ++ m.run ++ m.after →
      Includes t file (includedPath file entry) := fun hentry =>
    (includes_iff hresolve m.hfile m.hold).2 ⟨_, hentry, rfl⟩
  have hshaped : FetchShaped (resolve t start n (m.key :: chain)) file maps
      (m.before ++ m.run ++ m.after) := fun entry d hentry =>
    resolve_shaped hdocs (hr.tail (hincludes hentry))
  have hnew' : m.key ∉ chain' := mt (htracks.same _ m.newKey_ne_key.symm).1 hnew
  have hrest : m.rest.Shaped maps := by
    obtain ⟨own, hdoc, -, hrest⟩ := m.hold
    obtain ⟨own', hown', hshaped'⟩ := hdocs file hr
    cases (readDocument_of_at? hresolve m.hfile hdoc).symm.trans hown'
    exact hrest ▸ hshaped'.erase
  have hcover := layer_start start hmaps
    (fun entry d hentry => hshaped entry d (List.mem_append_right _ hentry)) hrest
  have hmoved : resolve m.tree start (n' + 1) (m.key :: chain') (includedPath file m.name) =
      (layer (resolve m.tree start n' (m.newKey :: m.key :: chain')) start
        (includedPath file m.name) .null m.run).bind fun d => merge start d (.map []) := by
    refine resolveVia_lists (m.resolve_tree (m.hbeside file hr hresolve)) m.at?_newKey m.hmoved ?_
    rw [List.mem_cons, not_or]
    exact ⟨m.newKey_ne_key, mt htracks.added hnew⟩
  rw [resolve, resolve, resolveVia_lists hresolve m.hfile m.hold hnew,
    resolveVia_lists (m.resolve_tree hresolve) m.at?_key m.hchanged hnew', layer_append,
    layer_append, layer_append]
  simp only [layer_scalar, hmoved, bind_bind]
  have htracks' : m.Tracks (m.key :: chain) (m.key :: chain') :=
    htracks.cons m.newKey_ne_key.symm
  refine (Shifted.layer (fun _ => rfl) (fun entry hentry => ?_) fun _ _ _ => .same _).bind
    fun below hbelow => ?_
  · exact hdeeper _ _ (hincludes (List.mem_append_left _ (List.mem_append_left _ hentry))) htracks'
      _ (by omega)
  have hground : Ground maps below := layer_ground (fun entry d hentry =>
    hshaped entry d (List.mem_append_left _ (List.mem_append_left _ hentry))) (.inl rfl) hbelow
  rw [← layer_nested hmaps (fun entry d hentry =>
    hshaped entry d (List.mem_append_left _ (List.mem_append_right _ hentry))) hground hcover]
  simp only [bind_bind]
  refine (Shifted.layer (m.includedPath_beside file) (fun entry hentry => ?_)
    fun x hx hnot => .moved ⟨⟨x, hx, hnot⟩, hr, hresolve⟩).bind fun d _ => ?_
  · exact hdeeper _ _ (hincludes (List.mem_append_left _ (List.mem_append_right _ hentry)))
      htracks.detour _ hn
  refine (Shifted.same _).bind fun d _ => (Shifted.same _).bind fun below _ => ?_
  refine (Shifted.layer (fun _ => rfl) (fun entry hentry => ?_) fun _ _ _ => .same _).bind
    fun below _ => .same _
  exact hdeeper _ _ (hincludes (List.mem_append_right _ hentry)) htracks' _ (by omega)

/-- On any chain, a file comes to the same as before. -/
theorem resolve_move
    (hdocs : ∀ file, Reaches t start file → ∃ own, readDocument t file = .ok own ∧ own.Shaped maps)
    (hmaps : maps [] = true) (h : Pending t start chain file)
    (hn : (fileLocations t).ncard < n + chain.length) (hn' : 2 * n ≤ n')
    (htracks : m.Tracks chain chain') :
    Shifted m.Blamed m.name (resolve t start n chain file)
      (resolve m.tree start n' chain' file) := by
  induction n generalizing chain chain' file n' with
  | zero => exact absurd h.length_le (by omega)
  | succ n ih =>
    obtain ⟨k, rfl⟩ : ∃ k, n' = k + 2 := ⟨n' - 2, by omega⟩
    obtain ⟨own, hown, -⟩ := hdocs file h.reached
    obtain ⟨key, hfile, hresolve, hkey⟩ := readDocument_ok hown
    have hkey' : m.tree.canonical? file = some key := m.canonical?_tree hfile hresolve
    have hseen : key ∈ chain' ↔ key ∈ chain := htracks.same key (m.ne_newKey hfile)
    have hdeeper : ∀ child chain', Includes t file child → key ∉ chain →
        m.Tracks (key :: chain) chain' → ∀ k, 2 * n ≤ k →
          Shifted m.Blamed m.name (resolve t start n (key :: chain) child)
            (resolve m.tree start k chain' child) := fun child chain' hi hnew htracks k hk =>
      ih (h.step hi hkey hnew) (by rw [List.length_cons]; omega) hk htracks
    by_cases heq : key = m.key
    · subst heq
      by_cases hmem : m.key ∈ chain
      · rw [resolve, resolve, resolveVia_cycle hkey hmem, resolveVia_cycle hkey' (hseen.2 hmem)]
        exact .same _
      · exact m.resolveVia_move hdocs hmaps h.reached hresolve hmem htracks
          (fun child chain' hi => hdeeper child chain' hi hmem) (by omega)
    · rw [resolve, resolve]
      exact .resolveVia hown ((m.readDocument_tree hfile hresolve heq).trans hown) hkey hkey' hseen
        fun child hi hnew => hdeeper child _ hi hnew (htracks.cons (m.ne_newKey hfile)) _ (by omega)

end Move

/-- Of three documents that are laid over each other it does not matter which two are combined
first, if they are trees without aliases, their keys are unique and no path of keys leads to a map
in one and to something else in another. So where all files are such documents, a run of includes
can move into a new file in the same directory that says nothing else : whether there is a
configuration or an error, it is the same one. Only where one of the run is no path, the new file
may be blamed for it. -/
theorem load_nested_includes (m : Move t start) (hdocs : Nestable t start) :
    (∀ a b c : Yaml, a.UniqueKeyed → b.UniqueKeyed → c.UniqueKeyed → a.Compatible b →
      a.Compatible c → b.Compatible c → ∃ ab bc d, Yaml.overlay a b = .ok ab ∧
        Yaml.overlay b c = .ok bc ∧ Yaml.overlay ab c = .ok d ∧ Yaml.overlay a bc = .ok d) ∧
    (load m.tree start = load t start ∨
      (∃ x ∈ m.run, ∀ s, x ≠ .scalar s) ∧ ∃ q, Reaches t start q ∧ t.resolve q = .ok m.key ∧
        load t start = .error (.includesNotPaths q) ∧
        load m.tree start = .error (.includesNotPaths (includedPath q m.name))) := by
  refine ⟨fun a b c ha hb hc hab hac hbc => ?_, ?_⟩
  · obtain ⟨ab, hab', hunique, -⟩ := Yaml.overlay_layered ha hb
    obtain ⟨bc, hbc', -⟩ := Yaml.overlay_isOk hb.textKeyed hc.textKeyed
    obtain ⟨d, hd, -⟩ := Yaml.overlay_isOk hunique.textKeyed hc.textKeyed
    exact ⟨ab, bc, d, hab', hbc', hd,
      (Yaml.overlay_assoc ha hb hc hab hac hbc hab' hbc').symm.trans hd⟩
  · obtain ⟨maps, hmaps, hshaped⟩ := hdocs.exists_shaped
    have hfiles : (fileLocations t).ncard ≤ t.fileCount := ncard_fileLocations_le t
    have hfiles' : (fileLocations m.tree).ncard ≤ m.tree.fileCount := ncard_fileLocations_le _
    let n' := max (2 * (t.fileCount + 1)) (m.tree.fileCount + 1)
    have hlevels : resolve m.tree start (m.tree.fileCount + 1) [] start =
        resolve m.tree start n' [] start :=
      resolve_levels (by omega) (le_max_right _ _)
    have hsame : Shifted m.Blamed m.name (load t start) (load m.tree start) := by
      rw [load, load, hlevels]
      exact (m.resolve_move hshaped hmaps (.root t start) (by rw [List.length_nil]; omega)
        (le_max_left _ _) ⟨fun _ _ => Iff.rfl, fun h => absurd h List.not_mem_nil⟩).bind
        fun d _ => .same _
    rcases hsame.eq_or with heq | ⟨q, ⟨hrun, hr, hresolve⟩, h, h'⟩
    · exact .inl heq
    · exact .inr ⟨hrun, q, hr, hresolve, h, h'⟩

end Reading

/-- A file that includes two others. -/
def layered : FileTree :=
  ⟨[(["main.yaml"], .file (snapshotFile "quiet.yaml, keep.yaml")),
    (["quiet.yaml"], .file "log: \x7blevel: warn\x7d\n"),
    (["keep.yaml"], .file "output: \x7bkeep_last: 3\x7d\n")]⟩

theorem lists_layered : Lists (snapshotFile "quiet.yaml, keep.yaml")
    [.scalar "quiet.yaml", .scalar "keep.yaml"] snapshotSettings :=
  ⟨_, by with_unfolding_all rfl, rfl, rfl⟩

theorem mem_of_reaches (hr : Reaches layered "main.yaml" file) :
    file = "main.yaml" ∨ file = "quiet.yaml" ∨ file = "keep.yaml" := by
  induction hr with
  | refl => exact .inl rfl
  | tail hr hi ih =>
    rcases ih with rfl | rfl | rfl
    · obtain ⟨entry, hentry, rfl⟩ := (includes_iff rfl rfl lists_layered).1 hi
      rcases List.mem_pair.1 hentry with heq | heq
      · cases heq
        exact .inr (.inl (by decide +kernel))
      · cases heq
        exact .inr (.inr (by decide +kernel))
    · exact absurd hi (not_includes (by with_unfolding_all rfl) (by with_unfolding_all rfl))
    · exact absurd hi (not_includes (by with_unfolding_all rfl) (by with_unfolding_all rfl))

/-- Both includes move. -/
def layeredMove : Move layered "main.yaml" where
  key := ["main.yaml"]
  old := snapshotFile "quiet.yaml, keep.yaml"
  before := []
  run := [.scalar "quiet.yaml", .scalar "keep.yaml"]
  after := []
  rest := snapshotSettings
  newKey := ["common.yaml"]
  name := "common.yaml"
  changed := snapshotFile "common.yaml"
  moved := "includes: [quiet.yaml, keep.yaml]\n"
  hfile := by decide +kernel
  hfree := by decide +kernel
  hname := by decide
  hbeside file hr hresolve := by
    rcases mem_of_reaches hr with rfl | rfl | rfl
    · decide +kernel
    · exact absurd hresolve (by decide +kernel)
    · exact absurd hresolve (by decide +kernel)
  hold := lists_layered
  hchanged := ⟨_, by with_unfolding_all rfl, rfl, rfl⟩
  hmoved := ⟨_, by with_unfolding_all rfl, rfl, rfl⟩

/-- What stands in the three files. -/
def layeredDocuments : List Yaml :=
  [.map [(.scalar "includes", .seq [.scalar "quiet.yaml", .scalar "keep.yaml"]),
      (.scalar "source", .map [(.scalar "snapshot_dir", .map [(.scalar "path", .scalar "shots")])])],
    .map [(.scalar "log", .map [(.scalar "level", .scalar "warn")])],
    .map [(.scalar "output", .map [(.scalar "keep_last", .scalar "3")])]]

theorem readDocument_layered (hr : Reaches layered "main.yaml" file) :
    ∃ own, readDocument layered file = .ok own ∧ own ∈ layeredDocuments := by
  rcases mem_of_reaches hr with rfl | rfl | rfl
  · exact ⟨_, by with_unfolding_all rfl, List.mem_cons_self⟩
  · exact ⟨_, by with_unfolding_all rfl, List.mem_cons_of_mem _ List.mem_cons_self⟩
  · exact ⟨_, by with_unfolding_all rfl,
      List.mem_cons_of_mem _ (List.mem_cons_of_mem _ List.mem_cons_self)⟩

theorem uniqueKeyed_layered : ∀ d ∈ layeredDocuments, d.isMap = true ∧ d.UniqueKeyed := by
  have hpaths : (Yaml.seq [.scalar "quiet.yaml", .scalar "keep.yaml"]).UniqueKeyed :=
    .seq (by simp [Yaml.UniqueKeyed.scalar])
  simp [layeredDocuments, Yaml.isMap, Yaml.uniqueKeyed_map_iff, Yaml.UniqueKeyed.scalar, hpaths]

/-- No two of them have a key in common. -/
theorem compatible_layered : ∀ a ∈ layeredDocuments, ∀ b ∈ layeredDocuments, a.Compatible b := by
  have hdisjoint : layeredDocuments.Pairwise Yaml.Compatible := by
    refine .cons ?_ (.cons ?_ (.cons (by simp) .nil))
    · simp only [List.forall_mem_cons, List.not_mem_nil, false_imp_iff, implies_true, and_true]
      exact ⟨Yaml.compatible_of_disjoint (by simp), Yaml.compatible_of_disjoint (by simp)⟩
    · simp only [List.forall_mem_singleton]
      exact Yaml.compatible_of_disjoint (by simp)
  have hsymm : Std.Symm Yaml.Compatible := ⟨fun _ _ h => h.symm⟩
  exact hdisjoint.forall_of_forall fun d _ => .refl d

theorem nestable_layered : Nestable layered "main.yaml" where
  document file hr := by
    obtain ⟨own, hown, hmem⟩ := readDocument_layered hr
    exact ⟨own, hown, uniqueKeyed_layered own hmem⟩
  compatible file file' own own' hr hr' hown hown' := by
    obtain ⟨d, hd, hmem⟩ := readDocument_layered hr
    obtain ⟨d', hd', hmem'⟩ := readDocument_layered hr'
    cases hown.symm.trans hd
    cases hown'.symm.trans hd'
    exact compatible_layered _ hmem _ hmem'

/-- Two includes that move into a file of their own. -/
theorem nested_includes_layered :
    (∃ ab bc d, Yaml.overlay layeredDocuments[0] layeredDocuments[1] = .ok ab ∧
      Yaml.overlay layeredDocuments[1] layeredDocuments[2] = .ok bc ∧
      Yaml.overlay ab layeredDocuments[2] = .ok d ∧ Yaml.overlay layeredDocuments[0] bc = .ok d) ∧
    Nestable layered "main.yaml" ∧
    load layered "main.yaml" = .ok
      { logLevel := "warn", source := { snapshotPath := "shots" }, output := { keepLast := 3 } } ∧
    load layeredMove.tree "main.yaml" = load layered "main.yaml" := by
  obtain ⟨hassoc, hmove⟩ := load_nested_includes layeredMove nestable_layered
  refine ⟨?_, nestable_layered, by decide +kernel, ?_⟩
  · have hmem : ∀ i : Fin 3, layeredDocuments[i] ∈ layeredDocuments := fun i => List.getElem_mem _
    exact hassoc _ _ _ (uniqueKeyed_layered _ (hmem 0)).2 (uniqueKeyed_layered _ (hmem 1)).2
      (uniqueKeyed_layered _ (hmem 2)).2 (compatible_layered _ (hmem 0) _ (hmem 1))
      (compatible_layered _ (hmem 0) _ (hmem 2)) (compatible_layered _ (hmem 1) _ (hmem 2))
  · rcases hmove with hsame | ⟨⟨x, hx, hnot⟩, -⟩
    · exact hsame
    · rcases List.mem_pair.1 hx with rfl | rfl
      · exact absurd rfl (hnot "quiet.yaml")
      · exact absurd rfl (hnot "keep.yaml")

/-- A file that lists what is no path. -/
def unlisted : FileTree :=
  ⟨[(["main.yaml"], .file "includes: [[x]]\n")]⟩

theorem lists_unlisted : Lists "includes: [[x]]\n" [.seq [.scalar "x"]] (.map []) :=
  ⟨_, by with_unfolding_all rfl, rfl, rfl⟩

theorem eq_main_of_reaches (hr : Reaches unlisted "main.yaml" file) : file = "main.yaml" := by
  induction hr with
  | refl => rfl
  | tail hr hi ih =>
    obtain rfl := ih
    obtain ⟨entry, hentry, rfl⟩ := (includes_iff rfl rfl lists_unlisted).1 hi
    cases List.mem_singleton.1 hentry

/-- The entry moves. -/
def unlistedMove : Move unlisted "main.yaml" where
  key := ["main.yaml"]
  old := "includes: [[x]]\n"
  before := []
  run := [.seq [.scalar "x"]]
  after := []
  rest := .map []
  newKey := ["new.yaml"]
  name := "new.yaml"
  changed := "includes: [new.yaml]\n"
  moved := "includes: [[x]]\n"
  hfile := by decide +kernel
  hfree := by decide +kernel
  hname := by decide
  hbeside file hr hresolve := by
    rw [eq_main_of_reaches hr]
    decide +kernel
  hold := lists_unlisted
  hchanged := ⟨_, by with_unfolding_all rfl, rfl, rfl⟩
  hmoved := lists_unlisted

/-- It is the new file then that is blamed for it. -/
theorem nested_include_blamed : Nestable unlisted "main.yaml" ∧
    load unlisted "main.yaml" = .error (.includesNotPaths "main.yaml") ∧
    load unlistedMove.tree "main.yaml" = .error (.includesNotPaths "new.yaml") ∧
    load unlistedMove.tree "main.yaml" ≠ load unlisted "main.yaml" := by
  have hread : readDocument unlisted "main.yaml" =
      .ok (.map [(.scalar "includes", .seq [.seq [.scalar "x"]])]) := by with_unfolding_all rfl
  have hload : load unlisted "main.yaml" = .error (.includesNotPaths "main.yaml") := by
    decide +kernel
  have hload' : load unlistedMove.tree "main.yaml" = .error (.includesNotPaths "new.yaml") := by
    with_unfolding_all rfl
  refine ⟨⟨fun file hr => ?_, fun file file' own own' hr hr' hown hown' => ?_⟩, hload, hload', ?_⟩
  · have hpaths : (Yaml.seq [.seq [.scalar "x"]]).UniqueKeyed :=
      .seq (by simp [Yaml.UniqueKeyed.seq, Yaml.UniqueKeyed.scalar])
    exact ⟨_, eq_main_of_reaches hr ▸ hread, rfl, by simp [Yaml.uniqueKeyed_map_iff, hpaths]⟩
  · rw [eq_main_of_reaches hr] at hown
    rw [eq_main_of_reaches hr'] at hown'
    cases hown.symm.trans hown'
    exact .refl own
  · rw [hload, hload']
    decide

end Config

end ClusterEvidence
