import ClusterEvidence.Config.Decode
import ClusterEvidence.Proofs.Results

/-!
# What can be wrong with settings

The settings in a document are refused for what stands in the document, and for nothing else
(`Config.LoadError.InSettings`) : the root is no map, a list is no list, a value is not converted,
or a run could not work with what was read. Steps that refuse settings only in these ways make
such steps one after the other, so this is so of reading a whole document
(`Config.refusesSettings_ofYaml`).
-/

namespace ClusterEvidence

namespace Config

/-- What is wrong is in the settings. -/
inductive LoadError.InSettings : LoadError → Prop
  | rootNotMap : InSettings .rootNotMap
  | notList (key : Bytes) : InSettings (.notList key)
  | badValue : InSettings .badValue
  | problem (p : Problem) : InSettings (.problem p)

/-- The code says that an argument is invalid or that something does not parse. -/
theorem LoadError.InSettings.code {e : LoadError} (h : e.InSettings) :
    e.code = .invalidArgument ∨ e.code = .parseError := by
  cases h with
  | badValue => exact .inr rfl
  | rootNotMap | notList key | problem p => exact .inl rfl

variable {α β : Type} {x : Except LoadError α} {f : α → Except LoadError β}

/-- If there is no result, it is because of the settings. -/
def RefusesSettings (x : Except LoadError α) : Prop := ∀ e, x = .error e → e.InSettings

namespace RefusesSettings

theorem ok (a : α) : RefusesSettings (.ok a) := fun _ h => nomatch h

theorem error {e : LoadError} (he : e.InSettings) :
    RefusesSettings (.error e : Except LoadError α) := by
  intro e' h
  exact Except.error.inj h ▸ he

theorem bind (hx : RefusesSettings x) (hf : ∀ a, RefusesSettings (f a)) :
    RefusesSettings (x >>= f) := by
  intro e h
  obtain h | ⟨a, -, h⟩ := bind_eq_error.1 h
  · exact hx e h
  · exact hf a e h

theorem mapError_badValue (m : Yaml.Decoded α) :
    RefusesSettings (m.mapError fun _ => LoadError.badValue) := by
  cases m with
  | error e => exact .error .badValue
  | ok a => exact .ok a

theorem setting (conv : Yaml → Yaml.Decoded α) (k : Bytes) (default : α) (d : Yaml) :
    RefusesSettings (setting conv k default d) := by
  unfold Config.setting
  split
  · exact .ok default
  · exact .mapError_badValue _

/-- A list of settings is refused as no list or for a bad value. -/
theorem listSetting (k : Bytes) (default : List Bytes) (d : Yaml) :
    RefusesSettings (listSetting k default d) := by
  unfold Config.listSetting
  split
  · exact .ok default
  · exact .mapError_badValue _
  · exact .error (.notList k)

/-- A section refuses what its settings do. -/
theorem readSection {read : Yaml → Except LoadError α} (k : Bytes) (default : α)
    (hread : ∀ d, RefusesSettings (read d)) (d : Yaml) :
    RefusesSettings (readSection k default read d) := by
  unfold Config.readSection
  split
  · exact .ok default
  · exact hread _

/-- A check refuses a problem. -/
theorem checked (c : Config) : RefusesSettings (checked c) := by
  unfold Config.checked
  split
  · exact .ok c
  · exact .error (.problem _)

theorem readGather (default : GatherOptions) (d : Yaml) : RefusesSettings (readGather default d) :=
  .bind (.setting _ _ _ _) fun _ => .bind (.setting _ _ _ _) fun _ =>
    .bind (.setting _ _ _ _) fun _ => .ok _

theorem readVocabulary (default : Vocabulary) (d : Yaml) :
    RefusesSettings (readVocabulary default d) :=
  .bind (.listSetting _ _ _) fun _ => .bind (.listSetting _ _ _) fun _ => .ok _

theorem readSource (default : SourceOptions) (d : Yaml) : RefusesSettings (readSource default d) :=
  .bind (.setting _ _ _ _) fun _ =>
    .bind (.readSection _ _ (.setting _ _ _) _) fun _ => .ok _

theorem readOutput (default : OutputOptions) (d : Yaml) : RefusesSettings (readOutput default d) :=
  .bind (.setting _ _ _ _) fun _ => .bind (.setting _ _ _ _) fun _ => .ok _

/-- A document that is a map refuses what its sections do. -/
theorem ofMap (d : Yaml) : RefusesSettings (ofMap d) :=
  .bind (.setting _ _ _ _) fun _ =>
  .bind (.readSection _ _ (fun _ => .bind (.setting _ _ _ _) fun _ => .ok _) _) fun _ =>
  .bind (.readSection _ _ (.readVocabulary _) _) fun _ =>
  .bind (.readSection _ _ (.readGather _) _) fun _ =>
  .bind (.readSection _ _ (.readSource _) _) fun _ =>
  .bind (.readSection _ _ (.readOutput _) _) fun _ => .ok _

end RefusesSettings

/-- A document is refused for its settings only. -/
theorem refusesSettings_ofYaml (d : Yaml) : RefusesSettings (ofYaml d) := by
  unfold ofYaml
  split
  · exact .bind (.ofMap _) .checked
  · exact .checked _
  · exact .error .rootNotMap

end Config

end ClusterEvidence
