import ClusterEvidence.Proofs.Config.Refusals
import ClusterEvidence.Proofs.Yaml.KeyPaths
import ClusterEvidence.Yaml.Subset

/-!
# What a configuration takes from a document

Eleven settings are read from a document (`Config.settings`), each from the value at a path of keys.
A configuration is read just when each of its fields is what the value at its path is converted to,
or its default where nothing stands there, and a run can work with it (`Config.ofYaml_eq_ok`).

`Config.parse_settings` : a text that gives no configuration is an invalid argument or does not
parse, and of one that does every setting has its say. A section that is no map is not refused
though. Nothing stands below it, so all of its settings keep their defaults, as if it were not
there (`Config.section_dropped`).
-/

namespace ClusterEvidence

namespace Config

/-! ## Values at paths -/

/-- The text of a scalar in small letters. -/
def toLower (d : Yaml) : Yaml.Decoded Bytes := (Yaml.toText d).map Bytes.lower

/-- The texts in a sequence. -/
def toTexts : Yaml → Yaml.Decoded (List Bytes)
  | .seq l => l.mapM Yaml.toText
  | _ => .error .badConversion

/-- The value is what the document has at the path, converted, or the default if it has nothing
there. -/
def Taken {α : Type} (conv : Yaml → Yaml.Decoded α) (default : α) (d : Yaml) (p : List Bytes)
    (a : α) : Prop :=
  match d.at? p with
  | none => a = default
  | some v => conv v = .ok a

section Taken

variable {α : Type} {conv : Yaml → Yaml.Decoded α} {default a : α} {d d' : Yaml} {k : Bytes}
  {p : List Bytes}

/-- Only the value at the path counts. -/
theorem taken_congr (h : d.at? p = d'.at? p) :
    Taken conv default d p a ↔ Taken conv default d' p a := by
  rw [Taken, Taken, h]

/-- A setting is taken from under its key. -/
theorem setting_eq_ok : setting conv k default d = .ok a ↔ Taken conv default d [k] a := by
  rw [setting, Taken, Yaml.at?_cons]
  cases d.get? k with
  | none => exact ok_eq_ok
  | some v => exact mapError_eq_ok

theorem listSetting_eq_ok {default l : List Bytes} :
    listSetting k default d = .ok l ↔ Taken toTexts default d [k] l := by
  rw [listSetting, Taken, Yaml.at?_cons]
  cases d.get? k with
  | none => exact ok_eq_ok
  | some v =>
    cases v with
    | seq items => exact mapError_eq_ok
    | null | scalar s | map entries => exact iff_of_false (fun h => nomatch h) fun h => nomatch h

/-- What is read and then put into small letters. -/
theorem lowered_eq_ok {default text : Bytes} :
    (∃ s, setting Yaml.toText k default d = .ok s ∧ Bytes.lower s = text) ↔
      Taken toLower (Bytes.lower default) d [k] text := by
  simp only [setting_eq_ok, Taken]
  cases d.at? [k] with
  | none => simp [eq_comm]
  | some v => exact map_eq_ok.symm

/-- A section is read where it is a map, and has its defaults everywhere else. -/
theorem readSection_eq_ok {read : Yaml → Except LoadError α} :
    readSection k default read d = .ok a ↔ match sectionOf k d with
      | none => a = default
      | some m => read m = .ok a := by
  rw [readSection]
  cases sectionOf k d with
  | none => exact ok_eq_ok
  | some m => exact Iff.rfl

/-- Below a key something can stand only in a map. -/
theorem taken_cons (hp : p ≠ []) : Taken conv default d (k :: p) a ↔ match sectionOf k d with
      | none => a = default
      | some m => Taken conv default m p a := by
  rw [Taken, Yaml.at?_cons, sectionOf]
  cases d.get? k with
  | none => rfl
  | some v =>
    cases hv : v.isMap with
    | true => rw [Option.filter_some, if_pos hv]; rfl
    | false =>
      obtain ⟨k', p', rfl⟩ := List.exists_cons_of_ne_nil hp
      rw [Option.filter_some, if_neg (by simp [hv]), Option.bind_some, Yaml.at?_cons,
        Yaml.get?_of_not_map hv]
      rfl

end Taken

/-! ## Sections -/

attribute [ext] Vocabulary GatherOptions SourceOptions OutputOptions

section Sections

variable {d : Yaml}

theorem logLevel_eq_ok {default level : Bytes} (hdefault : Bytes.lower default = default) :
    readSection "log" default (readLogLevel default) d = .ok level ↔
      Taken toLower default d ["log", "level"] level := by
  rw [readSection_eq_ok, taken_cons (by simp)]
  cases sectionOf "log" d with
  | none => rfl
  | some m =>
    have hlevel : _ ↔ Taken toLower (Bytes.lower default) m ["level"] level := lowered_eq_ok
    rw [hdefault] at hlevel
    exact (bind_eq_ok.trans (exists_congr fun s => and_congr_right' (ok_eq_ok.trans eq_comm))).trans
      hlevel

theorem vocabulary_eq_ok {default v : Vocabulary} :
    readSection "anonymize" default (readVocabulary default) d = .ok v ↔
      Taken toTexts default.allowedWords d ["anonymize", "allowed_words"] v.allowedWords ∧
      Taken toTexts default.trustedKeyDomains d ["anonymize", "trusted_key_domains"]
        v.trustedKeyDomains := by
  rw [readSection_eq_ok, taken_cons (by simp), taken_cons (by simp)]
  cases sectionOf "anonymize" d with
  | none => exact Vocabulary.ext_iff
  | some m =>
    simp only [← listSetting_eq_ok]
    constructor
    · intro h
      obtain ⟨words, hwords, h⟩ := bind_eq_ok.1 h
      obtain ⟨domains, hdomains, h⟩ := bind_eq_ok.1 h
      cases h
      exact ⟨hwords, hdomains⟩
    · rintro ⟨hwords, hdomains⟩
      exact bind_eq_ok.2 ⟨_, hwords, bind_eq_ok.2 ⟨_, hdomains, rfl⟩⟩

theorem gather_eq_ok {default g : GatherOptions} :
    readSection "gather" default (readGather default) d = .ok g ↔
      Taken Yaml.toText default.clusterVersionName d ["gather", "cluster_version_name"]
        g.clusterVersionName ∧
      Taken Yaml.toText default.singletonName d ["gather", "singleton_name"] g.singletonName ∧
      Taken Yaml.toBool default.recordHealthyOperators d ["gather", "record_healthy_operators"]
        g.recordHealthyOperators := by
  rw [readSection_eq_ok, taken_cons (by simp), taken_cons (by simp), taken_cons (by simp)]
  cases sectionOf "gather" d with
  | none => exact GatherOptions.ext_iff
  | some m =>
    simp only [← setting_eq_ok]
    constructor
    · intro h
      obtain ⟨version, hversion, h⟩ := bind_eq_ok.1 h
      obtain ⟨singleton, hsingleton, h⟩ := bind_eq_ok.1 h
      obtain ⟨healthy, hhealthy, h⟩ := bind_eq_ok.1 h
      cases h
      exact ⟨hversion, hsingleton, hhealthy⟩
    · rintro ⟨hversion, hsingleton, hhealthy⟩
      exact bind_eq_ok.2
        ⟨_, hversion, bind_eq_ok.2 ⟨_, hsingleton, bind_eq_ok.2 ⟨_, hhealthy, rfl⟩⟩⟩

theorem snapshotPath_eq_ok {default path : Bytes} :
    readSection "snapshot_dir" default (setting Yaml.toText "path" default) d = .ok path ↔
      Taken Yaml.toText default d ["snapshot_dir", "path"] path := by
  rw [readSection_eq_ok, taken_cons (by simp)]
  cases sectionOf "snapshot_dir" d with
  | none => rfl
  | some m => exact setting_eq_ok

/-- The source is taken from two sections, one in the other. -/
theorem source_eq_ok {default s : SourceOptions}
    (hdefault : Bytes.lower default.type = default.type) :
    readSection "source" default (readSource default) d = .ok s ↔
      Taken toLower default.type d ["source", "type"] s.type ∧
      Taken Yaml.toText default.snapshotPath d ["source", "snapshot_dir", "path"] s.snapshotPath := by
  rw [readSection_eq_ok, taken_cons (by simp), taken_cons (by simp)]
  cases sectionOf "source" d with
  | none => exact SourceOptions.ext_iff
  | some m =>
    have hlowered : _ ↔ Taken toLower (Bytes.lower default.type) m ["type"] s.type := lowered_eq_ok
    rw [hdefault] at hlowered
    simp only [← hlowered, ← snapshotPath_eq_ok]
    constructor
    · intro h
      obtain ⟨type, htype, h⟩ := bind_eq_ok.1 h
      obtain ⟨path, hpath, h⟩ := bind_eq_ok.1 h
      cases h
      exact ⟨⟨type, htype, rfl⟩, hpath⟩
    · rintro ⟨⟨type, htype, hlower⟩, hpath⟩
      refine bind_eq_ok.2 ⟨_, htype, bind_eq_ok.2 ⟨_, hpath, ?_⟩⟩
      rw [hlower]
      rfl

theorem output_eq_ok {default o : OutputOptions} :
    readSection "output" default (readOutput default) d = .ok o ↔
      Taken Yaml.toText default.outDir d ["output", "out_dir"] o.outDir ∧
      Taken Yaml.toInt32 default.keepLast d ["output", "keep_last"] o.keepLast := by
  rw [readSection_eq_ok, taken_cons (by simp), taken_cons (by simp)]
  cases sectionOf "output" d with
  | none => exact OutputOptions.ext_iff
  | some m =>
    simp only [← setting_eq_ok]
    constructor
    · intro h
      obtain ⟨dir, hdir, h⟩ := bind_eq_ok.1 h
      obtain ⟨keep, hkeep, h⟩ := bind_eq_ok.1 h
      cases h
      exact ⟨hdir, hkeep⟩
    · rintro ⟨hdir, hkeep⟩
      exact bind_eq_ok.2 ⟨_, hdir, bind_eq_ok.2 ⟨_, hkeep, rfl⟩⟩

end Sections

/-! ## All settings -/

/-- A setting : where it stands, what a value there is converted to, and the field that it is. -/
structure Setting where
  Value : Type
  path : List Bytes
  conv : Yaml → Yaml.Decoded Value
  field : Config → Value

/-- The settings that a document can have. -/
def settings : List Setting :=
  [⟨Bytes, ["report_namespace"], Yaml.toText, reportNamespace⟩,
   ⟨Bytes, ["log", "level"], toLower, logLevel⟩,
   ⟨List Bytes, ["anonymize", "allowed_words"], toTexts, fun c => c.vocabulary.allowedWords⟩,
   ⟨List Bytes, ["anonymize", "trusted_key_domains"], toTexts,
    fun c => c.vocabulary.trustedKeyDomains⟩,
   ⟨Bytes, ["gather", "cluster_version_name"], Yaml.toText, fun c => c.gather.clusterVersionName⟩,
   ⟨Bytes, ["gather", "singleton_name"], Yaml.toText, fun c => c.gather.singletonName⟩,
   ⟨Bool, ["gather", "record_healthy_operators"], Yaml.toBool,
    fun c => c.gather.recordHealthyOperators⟩,
   ⟨Bytes, ["source", "type"], toLower, fun c => c.source.type⟩,
   ⟨Bytes, ["source", "snapshot_dir", "path"], Yaml.toText, fun c => c.source.snapshotPath⟩,
   ⟨Bytes, ["output", "out_dir"], Yaml.toText, fun c => c.output.outDir⟩,
   ⟨Int32, ["output", "keep_last"], Yaml.toInt32, fun c => c.output.keepLast⟩]

/-- The field is what the document says, or what it is without a document. -/
def Setting.Determines (x : Setting) (d : Yaml) (c : Config) : Prop :=
  Taken x.conv (x.field {}) d x.path (x.field c)

variable {d : Yaml} {c : Config}

/-- The settings of a map are what each of them says. -/
theorem ofMap_eq_ok : ofMap d = .ok c ↔ ∀ x ∈ settings, x.Determines d c := by
  simp only [settings, List.forall_mem_cons, List.not_mem_nil, false_imp_iff, implies_true, and_true,
    Setting.Determines]
  constructor
  · intro h
    obtain ⟨reportNamespace, hreport, h⟩ := bind_eq_ok.1 h
    obtain ⟨logLevel, hlog, h⟩ := bind_eq_ok.1 h
    obtain ⟨vocabulary, hvocabulary, h⟩ := bind_eq_ok.1 h
    obtain ⟨gather, hgather, h⟩ := bind_eq_ok.1 h
    obtain ⟨source, hsource, h⟩ := bind_eq_ok.1 h
    obtain ⟨output, houtput, h⟩ := bind_eq_ok.1 h
    cases h
    obtain ⟨hwords, hdomains⟩ := vocabulary_eq_ok.1 hvocabulary
    obtain ⟨hversion, hsingleton, hhealthy⟩ := gather_eq_ok.1 hgather
    obtain ⟨htype, hpath⟩ := (source_eq_ok (by decide)).1 hsource
    obtain ⟨hdir, hkeep⟩ := output_eq_ok.1 houtput
    exact ⟨setting_eq_ok.1 hreport, (logLevel_eq_ok (by decide)).1 hlog, hwords, hdomains, hversion,
      hsingleton, hhealthy, htype, hpath, hdir, hkeep⟩
  · rintro ⟨hreport, hlog, hwords, hdomains, hversion, hsingleton, hhealthy, htype, hpath, hdir,
      hkeep⟩
    refine bind_eq_ok.2 ⟨_, setting_eq_ok.2 hreport, ?_⟩
    refine bind_eq_ok.2 ⟨_, (logLevel_eq_ok (by decide)).2 hlog, ?_⟩
    refine bind_eq_ok.2 ⟨_, vocabulary_eq_ok.2 ⟨hwords, hdomains⟩, ?_⟩
    refine bind_eq_ok.2 ⟨_, gather_eq_ok.2 ⟨hversion, hsingleton, hhealthy⟩, ?_⟩
    refine bind_eq_ok.2 ⟨_, (source_eq_ok (by decide)).2 ⟨htype, hpath⟩, ?_⟩
    exact bind_eq_ok.2 ⟨_, output_eq_ok.2 ⟨hdir, hkeep⟩, rfl⟩

/-! ## Texts -/

theorem checked_eq_ok {c' : Config} : checked c' = .ok c ↔ c = c' ∧ c'.problem? = none := by
  rw [checked]
  cases c'.problem? with
  | none => simp [eq_comm]
  | some p => simp

theorem path_ne_nil : ∀ x ∈ settings, x.path ≠ [] := by
  simp [settings]

/-- The configuration of a document is what each setting says, if a run can work with it. -/
theorem ofYaml_eq_ok : ofYaml d = .ok c ↔ (d = .null ∨ d.isMap = true) ∧
    (∀ x ∈ settings, x.Determines d c) ∧ c.problem? = none := by
  have hmap : ∀ l, ofYaml (.map l) = .ok c ↔
      (∀ x ∈ settings, x.Determines (.map l) c) ∧ c.problem? = none := by
    intro l
    rw [← ofMap_eq_ok]
    refine bind_eq_ok.trans ⟨?_, fun h => ⟨c, h.1, checked_eq_ok.2 ⟨rfl, h.2⟩⟩⟩
    rintro ⟨c', hread, hchecked⟩
    obtain ⟨rfl, hproblem⟩ := checked_eq_ok.1 hchecked
    exact ⟨hread, hproblem⟩
  cases d with
  | map l => simp [hmap, Yaml.isMap]
  | null =>
    have hempty : ∀ x ∈ settings, x.Determines .null c ↔ x.Determines (.map []) c := by
      intro x hx
      obtain ⟨k, p, hpath⟩ := List.exists_cons_of_ne_nil (path_ne_nil x hx)
      exact taken_congr (by rw [hpath]; rfl)
    have hnull : ofYaml .null = ofYaml (.map []) := rfl
    rw [hnull, hmap, ← forall₂_congr hempty]
    simp
  | scalar s => simp [ofYaml, Yaml.isMap]
  | seq items => simp [ofYaml, Yaml.isMap]

section Reading

variable [Yaml.Reader]

/-- A text gives a configuration if its document does. -/
theorem parse_eq_ok {text : Bytes} :
    parse text = .ok c ↔ ∃ d, Yaml.Reader.document? text = some d ∧ ofYaml d = .ok c := by
  rw [parse]
  cases Yaml.Reader.document? text with
  | none => simp
  | some d => simp

/-- What comes of a text. If it gives no configuration, an argument is invalid or something does not
parse. If it gives one, the text is a document, null or a map, and a run can work with the
configuration. Then a value at the path of a setting, null or not, has been converted to its field,
and the field is the default where nothing stands, as in a section that is no map. Whenever every
setting that stands in such a document is converted, and a run can work with what comes of that, it
is the configuration. -/
theorem parse_settings (text : Bytes) :
    (∀ e, parse text = .error e → e.code = .invalidArgument ∨ e.code = .parseError) ∧
      (∀ c, parse text = .ok c → ∃ d, Yaml.Reader.document? text = some d ∧
        (d = .null ∨ d.isMap = true) ∧ c.problem? = none ∧ ∀ x ∈ settings,
          (∀ v, d.at? x.path = some v → x.conv v = .ok (x.field c)) ∧
          (d.at? x.path = none → x.field c = x.field {}) ∧
          (d.Blocked x.path → x.field c = x.field {})) ∧
      ∀ d c, Yaml.Reader.document? text = some d → (d = .null ∨ d.isMap = true) → c.problem? = none →
        (∀ x ∈ settings, x.Determines d c) → parse text = .ok c := by
  refine ⟨fun e he => ?_, fun c hc => ?_, fun d c hd hroot hproblem hdetermines => ?_⟩
  · unfold parse at he
    split at he
    · cases he
      exact .inr rfl
    · exact (refusesSettings_ofYaml _ e he).code
  · obtain ⟨d, hd, hc⟩ := parse_eq_ok.1 hc
    obtain ⟨hroot, hdetermines, hproblem⟩ := ofYaml_eq_ok.1 hc
    refine ⟨d, hd, hroot, hproblem, fun x hx => ?_⟩
    have hx := hdetermines x hx
    rw [Setting.Determines, Taken] at hx
    have habsent : d.at? x.path = none → x.field c = x.field {} := by
      intro hnone
      rwa [hnone] at hx
    refine ⟨fun v hv => ?_, habsent, fun hblocked => habsent hblocked.at?_eq_none⟩
    rwa [hv] at hx
  · exact parse_eq_ok.2 ⟨d, hd, ofYaml_eq_ok.2 ⟨hroot, hdetermines, hproblem⟩⟩

end Reading

/-- Three sections have a setting each, and everything else is as it is by default. -/
theorem parse_three_settings :
    let text : Bytes :=
      "log:\n  level: DEBUG\nsource:\n  snapshot_dir:\n    path: snap\noutput:\n  keep_last: 3\n"
    let c : Config :=
      { logLevel := "debug", source := { snapshotPath := "snap" }, output := { keepLast := 3 } }
    parse text = .ok c ∧ ∃ d, Yaml.Reader.document? text = some d ∧
      d.at? ["log", "level"] = some (.scalar "DEBUG") ∧ c.problem? = none := by
  intro text c
  let d : Yaml := .map [(.scalar "log", .map [(.scalar "level", .scalar "DEBUG")]),
    (.scalar "source", .map [(.scalar "snapshot_dir", .map [(.scalar "path", .scalar "snap")])]),
    (.scalar "output", .map [(.scalar "keep_last", .scalar "3")])]
  have hd : Yaml.Reader.document? text = some d := by
    unfold text d
    with_unfolding_all rfl
  have hproblem : c.problem? = none := by decide
  have hdetermines : ∀ x ∈ settings, x.Determines d c := by
    simp only [settings, List.forall_mem_cons]
    exact ⟨rfl, rfl, rfl, rfl, rfl, rfl, rfl, rfl, rfl, rfl, rfl, by simp⟩
  obtain ⟨-, -, hparse⟩ := parse_settings text
  exact ⟨hparse d c hd (.inr rfl) hproblem hdetermines, d, hd, rfl, hproblem⟩

/-- The words that may be shown stand in a sequence instead of a map. They are dropped, and words
that the document does not name may be shown. -/
theorem section_dropped :
    let text : Bytes := "source:\n  snapshot_dir:\n    path: snap\nanonymize:\n- api\n"
    (Yaml.Reader.document? text).bind (Yaml.get? "anonymize") = some (.seq [.scalar "api"]) ∧
      parse text = .ok { source := { snapshotPath := "snap" } } :=
  ⟨by with_unfolding_all rfl, by decide +kernel⟩

end Config

end ClusterEvidence
