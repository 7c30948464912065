import ClusterEvidence.Proofs.Config.Includes
import ClusterEvidence.Proofs.Files.Contents
import ClusterEvidence.Proofs.Yaml.KeyPaths

/-!
# Files that hold no document

An included file that holds no document is a layer all the same, a null one. It covers
whatever the includes before it came to, and the includes behind it start over
(`layer_empty`). So where it stands decides whether it changes anything.

It changes nothing if what it covers is no map, as in front of all others and behind another
file without a document, or if it is covered itself by a document that is no map
(`layer_insert`). Anywhere else it stands for leaving out the includes before it. Both go through
all levels of files that include each other, as only the file with the new entry differs
(`resolve_insert`, `resolve_drop`), and so to the configuration they make (`load_insert_empty`).
Behind an include with settings it loses them (`empty_include_loses`).
-/

namespace ClusterEvidence

namespace Config

variable {t : FileTree} {start file entry q : Bytes} {chain : List Location} {key : Location}
  {own d : Yaml} {n : Nat} {before after : List Yaml}

/-! ## Layers without a document -/

section Layers

variable {fetch : Bytes → Except LoadError Yaml} {below below' x : Yaml} {xs ys : List Yaml}

/-- Where one of them is no map, the upper layer stays as it is. -/
theorem merge_of_not_map (h : below.isMap = false ∨ d.isMap = false) :
    merge start below d = .ok d := by
  rw [merge, Yaml.overlay_of_not_map h]
  rfl

/-- The upper layer decides whether there is a map in the end. -/
theorem isMap_of_merge {d' : Yaml} (h : merge start below d = .ok d') : d'.isMap = d.isMap := by
  unfold merge at h
  cases hover : Yaml.overlay below d with
  | error m =>
    rw [hover] at h
    cases h
  | ok d'' =>
    rw [hover] at h
    cases h
    exact Yaml.isMap_overlay hover

/-- Layers can be laid in two goes. -/
theorem layer_append : layer fetch start file below (xs ++ ys) =
    (layer fetch start file below xs).bind fun d => layer fetch start file d ys := by
  induction xs generalizing below with
  | nil => rfl
  | cons x xs ih =>
    cases x with
    | scalar path =>
      rw [List.cons_append, layer_scalar, layer_scalar]
      simp only [ih]
      cases fetch (includedPath file path) with
      | error e => rfl
      | ok d =>
        simp only [Except.bind]
        cases merge start below d with
        | error e => rfl
        | ok below' => rfl
    | null => rfl
    | seq l => rfl
    | map l => rfl

/-- More files that can be fetched change nothing where those before sufficed. -/
theorem layer_mono {fetch' : Bytes → Except LoadError Yaml}
    (hfetch : ∀ entry d, .scalar entry ∈ xs → fetch (includedPath file entry) = .ok d →
      fetch' (includedPath file entry) = .ok d)
    (h : layer fetch start file below xs = .ok d) : layer fetch' start file below xs = .ok d := by
  rw [← h]
  refine (layer_congr fun entry hentry => ?_).symm
  obtain ⟨d', hd'⟩ := layer_ok h hentry
  rw [hd', hfetch entry d' hentry hd']

/-- The entry names a file whose document is no map, if it names one at all. -/
def NoMap (fetch : Bytes → Except LoadError Yaml) (file : Bytes) (x : Yaml) : Prop :=
  ∀ path d, x = .scalar path → fetch (includedPath file path) = .ok d → d.isMap = false

/-- What is below the first entry does not matter if nothing of it shows. -/
theorem layer_cons_congr (h : (below.isMap = false ∧ below'.isMap = false) ∨ NoMap fetch file x) :
    layer fetch start file below (x :: xs) = layer fetch start file below' (x :: xs) := by
  cases x with
  | scalar path =>
    rw [layer_scalar, layer_scalar]
    cases hd : fetch (includedPath file path) with
    | error e => rfl
    | ok d =>
      have hmerge : merge start below d = merge start below' d := by
        rcases h with ⟨hbelow, hbelow'⟩ | hno
        · rw [merge_of_not_map (.inl hbelow), merge_of_not_map (.inl hbelow')]
        · have hmap := hno path d rfl hd
          rw [merge_of_not_map (.inr hmap), merge_of_not_map (.inr hmap)]
      simp only [Except.bind, hmerge]
  | null => rfl
  | seq l => rfl
  | map l => rfl

/-- An include without a document covers everything before it. -/
theorem layer_empty (hentry : fetch (includedPath file entry) = .ok .null) :
    layer fetch start file below (before ++ .scalar entry :: after) =
      (layer fetch start file below before).bind fun _ => layer fetch start file .null after := by
  rw [layer_append]
  refine congrArg _ (funext fun d => ?_)
  rw [layer_scalar, hentry]
  rfl

/-- The layers come to no map if the last of them is none. -/
theorem isMap_of_layer (hlast : ∀ x, before.getLast? = some x → NoMap fetch file x)
    (h : layer fetch start file .null before = .ok d) : d.isMap = false := by
  rcases List.eq_nil_or_concat before with rfl | ⟨init, x, rfl⟩
  · cases h
    rfl
  · rw [List.concat_eq_append] at h hlast
    rw [layer_append] at h
    obtain ⟨below, -, h⟩ := bind_eq_ok.1 h
    cases x with
    | scalar path =>
      obtain ⟨d', hd', h⟩ := bind_eq_ok.1 ((layer_scalar path).symm.trans h)
      obtain ⟨d'', hmerge, h⟩ := bind_eq_ok.1 h
      cases h
      rw [isMap_of_merge hmerge]
      exact hlast (.scalar path) (by simp) path d' rfl hd'
    | null => cases h
    | seq l => cases h
    | map l => cases h

/-- There is no include right before the place, or it is no map, or the one right behind is none. -/
def Uncovering (fetch : Bytes → Except LoadError Yaml) (file : Bytes) (before after : List Yaml) :
    Prop :=
  (∀ x, before.getLast? = some x → NoMap fetch file x) ∨
    ∃ x, after.head? = some x ∧ NoMap fetch file x

/-- In such a place an include without a document leaves a file's settings as they are. -/
theorem layer_insert (hentry : fetch (includedPath file entry) = .ok .null)
    (hplace : Uncovering fetch file before after) :
    ((layer fetch start file .null (before ++ .scalar entry :: after)).bind fun below =>
        merge start below own) =
      (layer fetch start file .null (before ++ after)).bind fun below => merge start below own := by
  rw [layer_empty hentry, layer_append]
  cases hbefore : layer fetch start file .null before with
  | error e => rfl
  | ok d =>
    simp only [Except.bind]
    cases after with
    | nil =>
      rcases hplace with hlast | ⟨x, hx, -⟩
      · exact (merge_of_not_map (.inl rfl)).trans
          (merge_of_not_map (.inl (isMap_of_layer hlast hbefore))).symm
      · cases hx
    | cons x xs =>
      have hcongr : layer fetch start file .null (x :: xs) = layer fetch start file d (x :: xs) := by
        rcases hplace with hlast | ⟨y, hy, hno⟩
        · exact layer_cons_congr (.inl ⟨rfl, isMap_of_layer hlast hbefore⟩)
        · cases hy
          exact layer_cons_congr (.inr hno)
      rw [hcongr]

end Layers

/-! ## Resolving -/

section Reading

variable [Yaml.Reader]

/-- The text is a document that lists these includes. The rest are its own settings. -/
def Lists (s : Bytes) (entries : List Yaml) (rest : Yaml) : Prop :=
  ∃ own, Yaml.Reader.document? s = some own ∧ own.get? "includes" = some (.seq entries) ∧
    own.erase "includes" = rest

section Resolving

variable {deeper deeper' : List Location → Bytes → Except LoadError Yaml} {entries : List Yaml}
  {s : Bytes} {rest : Yaml}

/-- What a file includes does not decide whether it holds a map. -/
theorem isMap_of_resolve (h : resolve t start n chain file = .ok d) :
    ∃ own, readDocument t file = .ok own ∧ d.isMap = own.isMap := by
  cases n with
  | zero => cases h
  | succ n =>
    obtain ⟨answer, hvisit, hanswer⟩ := visit t start chain file
    rw [resolve, hanswer] at h
    cases hvisit with
    | cycle hkey hseen => cases h
    | unreadable hread => cases h
    | plain hown hincludes =>
      cases h
      exact ⟨d, hown, rfl⟩
    | notList hown hv hv' => cases h
    | @list own entries key hown hincludes hkey hnew =>
      obtain ⟨below, -, hmerge⟩ := bind_eq_ok.1 h
      exact ⟨own, hown, (isMap_of_merge hmerge).trans (Yaml.isMap_erase _ own)⟩

theorem NoMap.resolve {x : Yaml} (h : NoMap (readDocument t) file x) :
    NoMap (resolve t start n chain) file x := by
  intro path d hx hd
  obtain ⟨own, hown, hmap⟩ := isMap_of_resolve hd
  exact hmap.trans (h path own hx hown)

theorem Uncovering.resolve (h : Uncovering (readDocument t) file before after) :
    Uncovering (resolve t start n chain) file before after :=
  h.imp (fun hlast x hx => (hlast x hx).resolve) fun ⟨x, hx, hno⟩ => ⟨x, hx, hno.resolve⟩

theorem resolve_null (h : readDocument t q = .ok .null) (hkey : t.canonical? q = some key)
    (hnew : key ∉ chain) : resolve t start (n + 1) chain q = .ok .null := by
  rw [resolve, resolveVia_plain h rfl hkey hnew]

theorem eq_null_of_resolve (h : readDocument t q = .ok .null)
    (hd : resolve t start n chain q = .ok d) : d = .null := by
  obtain ⟨key, -, -, hkey⟩ := readDocument_ok h
  have hnew : key ∉ chain := notMem_of_resolve hd hkey
  cases n with
  | zero => cases hd
  | succ n =>
    rw [resolve_null h hkey hnew] at hd
    exact (Except.ok.inj hd).symm

/-- What a file includes is what its text lists, as seen from there. -/
theorem includes_iff (hresolve : t.resolve file = .ok key) (hat : t.at? key = some (.file s))
    (hs : Lists s entries rest) :
    Includes t file q ↔ ∃ entry, .scalar entry ∈ entries ∧ q = includedPath file entry := by
  obtain ⟨own, hdoc, hincludes, -⟩ := hs
  have hown : readDocument t file = .ok own := readDocument_of_at? hresolve hat hdoc
  constructor
  · rintro ⟨own', entries', entry, hown', hincludes', hentry, rfl⟩
    cases hown.symm.trans hown'
    cases hincludes.symm.trans hincludes'
    exact ⟨entry, hentry, rfl⟩
  · rintro ⟨entry, hentry, rfl⟩
    exact ⟨own, entries, entry, hown, hincludes, hentry, rfl⟩

/-- A file that lists includes is resolved to them, layer by layer, with its own settings on top. -/
theorem resolveVia_lists (hresolve : t.resolve file = .ok key) (hat : t.at? key = some (.file s))
    (hs : Lists s entries rest) (hnew : key ∉ chain) : resolveVia t start deeper chain file =
      (layer (deeper (key :: chain)) start file .null entries).bind fun below =>
        merge start below rest := by
  obtain ⟨own, hdoc, hincludes, rfl⟩ := hs
  have hown : readDocument t file = .ok own := readDocument_of_at? hresolve hat hdoc
  obtain ⟨key', -, hresolve', hkey⟩ := readDocument_ok hown
  cases hresolve.symm.trans hresolve'
  exact resolveVia_list hown hincludes hkey hnew

/-- What a file comes to stays if all that it includes does. -/
theorem resolveVia_mono (hdeeper : ∀ key child d, Includes t file child →
      deeper (key :: chain) child = .ok d → deeper' (key :: chain) child = .ok d)
    (h : resolveVia t start deeper chain file = .ok d) :
    resolveVia t start deeper' chain file = .ok d := by
  obtain ⟨answer, hvisit, hanswer⟩ := visit t start chain file
  rw [hanswer] at h ⊢
  cases hvisit with
  | cycle hkey hseen => cases h
  | unreadable hread => cases h
  | plain hown hincludes => exact h
  | notList hown hv hv' => cases h
  | @list own entries key hown hincludes hkey hnew =>
    obtain ⟨below, hlayer, hmerge⟩ := bind_eq_ok.1 h
    have hlayer' := layer_mono (fun entry d hentry =>
      hdeeper key _ d ⟨own, entries, entry, hown, hincludes, hentry, rfl⟩) hlayer
    exact bind_eq_ok.2 ⟨below, hlayer', hmerge⟩

end Resolving

/-! ## A file with one more include -/

section Insert

variable {old text dropped : Bytes} {rest : Yaml}
  (hfile : t.at? key = some (.file old))

include hfile

/-- Writing one file leaves what others hold. -/
theorem readDocument_put_of_ne (h : t.resolve file ≠ .ok key) :
    readDocument (t.put key (.file text)) file = readDocument t file := by
  simp only [readDocument, FileTree.readFile?_put_of_ne hfile _ h]

/-- Any other file is resolved as it was, as far as itself goes. -/
theorem resolveVia_put_of_ne (h : t.resolve file ≠ .ok key)
    (deeper : List Location → Bytes → Except LoadError Yaml) :
    resolveVia (t.put key (.file text)) start deeper chain file =
      resolveVia t start deeper chain file := by
  simp only [resolveVia, FileTree.canonical?_put_file hfile, readDocument_put_of_ne hfile h]

theorem resolveVia_put_lists {deeper : List Location → Bytes → Except LoadError Yaml}
    {entries : List Yaml} (hresolve : t.resolve file = .ok key) (htext : Lists text entries rest)
    (hnew : key ∉ chain) : resolveVia (t.put key (.file text)) start deeper chain file =
      (layer (deeper (key :: chain)) start file .null entries).bind fun below =>
        merge start below rest :=
  resolveVia_lists ((FileTree.resolve_put_file hfile _ _).trans hresolve)
    ((FileTree.at?_put_file hfile _ _).trans (if_pos rfl)) htext hnew

variable (hold : Lists old (before ++ after) rest)

include hold

/-- What holds no document is another file. -/
theorem resolve_ne_of_null (h : readDocument t q = .ok .null) : t.resolve q ≠ .ok key := by
  obtain ⟨own, hdoc, hincludes, -⟩ := hold
  intro hresolve
  cases (readDocument_of_at? hresolve hfile hdoc).symm.trans h
  cases hincludes

/-- A file without a document is none of those that are being resolved, and there is room for one
more. -/
theorem resolve_entry (text : Bytes) (h : Pending t start chain file) (hnew : key ∉ chain)
    (hq : readDocument t q = .ok .null)
    (hn : (fileLocations t).ncard < n + 1 + chain.length) :
    resolve t start n (key :: chain) q = .ok .null ∧
      resolve (t.put key (.file text)) start n (key :: chain) q = .ok .null := by
  have hother : t.resolve q ≠ .ok key := resolve_ne_of_null hfile hold hq
  obtain ⟨key', -, hresolve', hkey'⟩ := readDocument_ok hq
  have hne : key' ≠ key := fun heq => hother (heq ▸ hresolve')
  have hnew' : key' ∉ key :: chain := mt List.mem_cons.1 (not_or.2 ⟨hne, h.notMem hq rfl hkey'⟩)
  have hroom : (key :: chain).length ≤ (fileLocations t).ncard :=
    length_le_ncard (List.nodup_cons.2 ⟨hnew, h.nodup⟩)
      (List.forall_mem_cons.2 ⟨⟨old, hfile⟩, fun _ => h.mem_fileLocations⟩)
  rw [List.length_cons] at hroom
  obtain ⟨m, rfl⟩ : ∃ m, n = m + 1 := ⟨n - 1, by omega⟩
  exact ⟨resolve_null hq hkey' hnew', resolve_null ((readDocument_put_of_ne hfile hother).trans hq)
    ((FileTree.canonical?_put_file hfile text q).trans hkey') hnew'⟩

variable (htext : Lists text (before ++ .scalar entry :: after) rest)
  (hempty : ∀ file, Reaches t start file → t.resolve file = .ok key →
    readDocument t (includedPath file entry) = .ok .null)

include htext hempty

/-- In a place where it uncovers nothing, the new entry makes no difference on any chain. -/
theorem resolve_insert (hplace : ∀ file, Reaches t start file → t.resolve file = .ok key →
      Uncovering (readDocument t) file before after)
    (h : Pending t start chain file) (hn : (fileLocations t).ncard < n + chain.length) :
    resolve (t.put key (.file text)) start n chain file = resolve t start n chain file := by
  induction n generalizing chain file with
  | zero => exact absurd h.length_le (by omega)
  | succ n ih =>
    by_cases hresolve : t.resolve file = .ok key
    · have hkey : t.canonical? file = some key := canonical?_of_at? hresolve hfile
      by_cases hseen : key ∈ chain
      · exact (resolveVia_cycle ((FileTree.canonical?_put_file hfile _ _).trans hkey) hseen).trans
          (resolveVia_cycle hkey hseen).symm
      · obtain ⟨hentry, hentry'⟩ := resolve_entry hfile hold text h hseen
          (hempty file h.reached hresolve) hn
        have hothers : ∀ e, .scalar e ∈ before ++ after →
            resolve (t.put key (.file text)) start n (key :: chain) (includedPath file e) =
              resolve t start n (key :: chain) (includedPath file e) := fun e he =>
          ih (h.step ((includes_iff hresolve hfile hold).2 ⟨e, he, rfl⟩) hkey hseen)
            (by rw [List.length_cons]; omega)
        have hsame : ∀ e, .scalar e ∈ before ++ .scalar entry :: after →
            resolve (t.put key (.file text)) start n (key :: chain) (includedPath file e) =
              resolve t start n (key :: chain) (includedPath file e) := by
          intro e he
          by_cases heq : e = entry
          · rw [heq, hentry, hentry']
          · exact hothers e (by simpa [heq] using he)
        calc resolve (t.put key (.file text)) start (n + 1) chain file
            = (layer (resolve (t.put key (.file text)) start n (key :: chain)) start file .null
                (before ++ .scalar entry :: after)).bind fun below => merge start below rest :=
              resolveVia_put_lists hfile hresolve htext hseen
          _ = (layer (resolve t start n (key :: chain)) start file .null
                (before ++ .scalar entry :: after)).bind fun below => merge start below rest := by
              rw [layer_congr hsame]
          _ = (layer (resolve t start n (key :: chain)) start file .null (before ++ after)).bind
                fun below => merge start below rest :=
              layer_insert hentry (hplace file h.reached hresolve).resolve
          _ = resolve t start (n + 1) chain file :=
              (resolveVia_lists hresolve hfile hold hseen).symm
    · rw [resolve, resolve, resolveVia_put_of_ne hfile hresolve]
      exact resolveVia_congr h fun key child hchild => ih hchild (by rw [List.length_cons]; omega)

/-- Whatever a file comes to with the new entry, it comes to without all those before it. -/
theorem resolve_drop (hdropped : Lists dropped after rest) (hr : Reaches t start file)
    (h : resolve (t.put key (.file text)) start n chain file = .ok d) :
    resolve (t.put key (.file dropped)) start n chain file = .ok d := by
  induction n generalizing chain file d with
  | zero => cases h
  | succ n ih =>
    by_cases hresolve : t.resolve file = .ok key
    · have hkey : t.canonical? file = some key := canonical?_of_at? hresolve hfile
      have hnew : key ∉ chain :=
        notMem_of_resolve h ((FileTree.canonical?_put_file hfile _ _).trans hkey)
      rw [resolve, resolveVia_put_lists hfile hresolve htext hnew] at h
      rw [resolve, resolveVia_put_lists hfile hresolve hdropped hnew]
      obtain ⟨below, hlayer, hmerge⟩ := bind_eq_ok.1 h
      have hnull : readDocument t (includedPath file entry) = .ok .null := hempty file hr hresolve
      have hentry : resolve (t.put key (.file text)) start n (key :: chain)
          (includedPath file entry) = .ok .null := by
        obtain ⟨d', hd'⟩ := layer_ok hlayer (List.mem_append_right before List.mem_cons_self)
        have hread : readDocument (t.put key (.file text)) (includedPath file entry) = .ok .null :=
          (readDocument_put_of_ne hfile (resolve_ne_of_null hfile hold hnull)).trans hnull
        rw [hd', eq_null_of_resolve hread hd']
      rw [layer_empty hentry] at hlayer
      obtain ⟨-, -, hlayer⟩ := bind_eq_ok.1 hlayer
      refine bind_eq_ok.2 ⟨below, layer_mono (fun e d he hd => ?_) hlayer, hmerge⟩
      exact ih (hr.tail ((includes_iff hresolve hfile hold).2
        ⟨e, List.mem_append_right before he, rfl⟩)) hd
    · rw [resolve, resolveVia_put_of_ne hfile hresolve] at h ⊢
      exact resolveVia_mono (fun key child d hchild hd => ih (hr.tail hchild) hd) h

/-- Wherever a file without a document is added to a list of includes, what can be loaded then is
what there would be without the includes before it. In front of all of them, or where the one
right before it or right behind it is no map, it makes no difference at all, whether there is a
configuration or an error. The documents are trees without aliases. -/
theorem load_insert_empty :
    (∀ dropped c, Lists dropped after rest → load (t.put key (.file text)) start = .ok c →
      load (t.put key (.file dropped)) start = .ok c) ∧
    ((∀ file, Reaches t start file → t.resolve file = .ok key →
        Uncovering (readDocument t) file before after) →
      load (t.put key (.file text)) start = load t start) := by
  refine ⟨fun dropped c hdropped h => ?_, fun hplace => ?_⟩
  · obtain ⟨d, hd, hc⟩ := bind_eq_ok.1 h
    refine bind_eq_ok.2 ⟨d, ?_, hc⟩
    rw [FileTree.fileCount_put_file hfile] at hd ⊢
    exact resolve_drop hfile hold htext hempty hdropped .refl hd
  · have hcount : (fileLocations t).ncard ≤ t.fileCount := ncard_fileLocations_le t
    rw [load, load, FileTree.fileCount_put_file hfile,
      resolve_insert hfile hold htext hempty hplace (.root t start) (by rw [List.length_nil]; omega)]

end Insert

end Reading

/-! ## In front of settings and behind them -/

/-- A file with these includes and the directory of a snapshot. -/
def snapshotFile (includes : Bytes) : Bytes :=
  ("includes: [" : Bytes) ++ includes ++ "]\nsource: \x7bsnapshot_dir: \x7bpath: shots\x7d\x7d\n"

/-- The settings of such a file. -/
def snapshotSettings : Yaml :=
  .map [(.scalar "source", .map [(.scalar "snapshot_dir", .map [(.scalar "path", .scalar "shots")])])]

/-- A file that includes one with nothing but a comment, and one with a setting. -/
def noted : FileTree :=
  ⟨[(["main.yaml"], .file (snapshotFile "notes.yaml, base.yaml")),
    (["notes.yaml"], .file "# none yet\n"),
    (["base.yaml"], .file "log: \x7blevel: debug\x7d\n"),
    (["empty.yaml"], .file "")]⟩

theorem load_noted : load noted "main.yaml" =
    .ok { logLevel := "debug", source := { snapshotPath := "shots" } } := by
  decide +kernel

theorem lists_noted : Lists (snapshotFile "notes.yaml, base.yaml")
    [.scalar "notes.yaml", .scalar "base.yaml"] snapshotSettings :=
  ⟨_, by with_unfolding_all rfl, rfl, rfl⟩

theorem lists_between : Lists (snapshotFile "notes.yaml, empty.yaml, base.yaml")
    ([.scalar "notes.yaml"] ++ .scalar "empty.yaml" :: [.scalar "base.yaml"]) snapshotSettings :=
  ⟨_, by with_unfolding_all rfl, rfl, rfl⟩

theorem lists_base : Lists (snapshotFile "base.yaml") [.scalar "base.yaml"] snapshotSettings :=
  ⟨_, by with_unfolding_all rfl, rfl, rfl⟩

/-- Only the file that is started from includes anything. -/
theorem eq_main_of_includes (hr : Reaches noted "main.yaml" file) (hi : Includes noted file q) :
    file = "main.yaml" := by
  induction hr generalizing q with
  | refl => rfl
  | tail hr hi' ih =>
    obtain rfl := ih hi'
    obtain ⟨entry, hentry, rfl⟩ := (includes_iff rfl rfl lists_noted).1 hi'
    rcases List.mem_pair.1 hentry with heq | heq
    · cases heq
      exact absurd hi (not_includes rfl rfl)
    · cases heq
      exact absurd hi (not_includes (by with_unfolding_all rfl) (by with_unfolding_all rfl))

/-- Between a file without a document and one with settings, there may be one more without, and
the first one is not needed. -/
theorem empty_include_between :
    load noted "main.yaml" = .ok { logLevel := "debug", source := { snapshotPath := "shots" } } ∧
    load (noted.put ["main.yaml"] (.file (snapshotFile "notes.yaml, empty.yaml, base.yaml")))
      "main.yaml" = load noted "main.yaml" ∧
    load (noted.put ["main.yaml"] (.file (snapshotFile "base.yaml"))) "main.yaml" =
      load noted "main.yaml" := by
  have hfile : noted.at? ["main.yaml"] = some (.file (snapshotFile "notes.yaml, base.yaml")) := by
    decide +kernel
  have hmain : ∀ file, Reaches noted "main.yaml" file → noted.resolve file = .ok ["main.yaml"] →
      file = "main.yaml" := fun file hr hresolve =>
    eq_main_of_includes hr ((includes_iff hresolve hfile lists_noted).2 ⟨_, List.mem_cons_self, rfl⟩)
  have hempty : ∀ file, Reaches noted "main.yaml" file → noted.resolve file = .ok ["main.yaml"] →
      readDocument noted (includedPath file "empty.yaml") = .ok .null := by
    intro file hr hresolve
    rw [hmain file hr hresolve]
    rfl
  have hplace : ∀ file, Reaches noted "main.yaml" file → noted.resolve file = .ok ["main.yaml"] →
      Uncovering (readDocument noted) file [.scalar "notes.yaml"] [.scalar "base.yaml"] := by
    intro file hr hresolve
    rw [hmain file hr hresolve]
    refine .inl fun x hx path d hpath hd => ?_
    have hnotes : readDocument noted (includedPath "main.yaml" "notes.yaml") = .ok .null := rfl
    cases hpath
    cases hx
    cases hnotes.symm.trans hd
    rfl
  obtain ⟨hdrop, hinsert⟩ := load_insert_empty hfile lists_noted lists_between hempty
  have hsame := hinsert hplace
  exact ⟨load_noted, hsame,
    (hdrop _ _ lists_base (hsame.trans load_noted)).trans load_noted.symm⟩

/-- Behind settings it loses them. -/
theorem empty_include_loses :
    readDocument noted "empty.yaml" = .ok .null ∧
    load noted "main.yaml" = .ok { logLevel := "debug", source := { snapshotPath := "shots" } } ∧
    load (noted.put ["main.yaml"] (.file (snapshotFile "notes.yaml, base.yaml, empty.yaml")))
      "main.yaml" = .ok { source := { snapshotPath := "shots" } } := by
  refine ⟨?_, load_noted, ?_⟩
  · rfl
  · decide +kernel

end Config

end ClusterEvidence
