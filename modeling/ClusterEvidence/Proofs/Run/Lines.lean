import ClusterEvidence.Proofs.Json.RoundTrip
import ClusterEvidence.Proofs.Run.Accounting
import Mathlib.Data.List.Forall2

/-!
# The manifest read back

A manifest is read without knowing how it was written : the text is cut at the newlines,
and each line is read as JSON. `Shows` says that the run and its records are found again
like this, one line for the run and one for each record, with all they say. It holds of
every text the manifest can have (`shows_manifestText`), as no string leaves a newline in
its line.

`manifest_shows_written` is this for the file of a run that was opened, had records added
and written, and came to a flush or to its end.
-/

namespace ClusterEvidence

namespace RunDirectory

variable {ε : Type} {env : Surroundings ε} {t₀ : FileTree} {run : RunInfo} {d : RunDirectory ε}
  {j : Journal ε}

/-! ## Lines -/

/-- The text ends its lines, of which the first says which run it is, and each that follows
says which record was written with which bytes : its name, when it was captured, its
fingerprint or else that of the bytes, and how many bytes they are. -/
structure Shows (text : Bytes) (run : RunInfo) (W : List (Queued ε × Bytes)) : Prop where
  ended : text.getLast? = some 0x0a
  lines : ∃ first rest, Bytes.pieces 0x0a text = first :: rest ++ [[]] ∧
    Json.read? first = some (.obj
      [("type", .str "run_started"), ("t_wall_ns", .num run.startedAt.toInt),
        ("config_path", .str run.configPath), ("config_hash", .str run.configHash)]) ∧
    List.Forall₂ (fun line w => Json.read? line = some (.obj
      [("type", .str "record"), ("name", .str w.1.name),
        ("captured_ns", .num w.1.captured.toInt),
        ("fingerprint",
          .str (if w.1.fingerprint = [] then Fnv.fingerprint w.2 else w.1.fingerprint)),
        ("bytes", .num w.2.length)])) rest W

/-- A manifest ends with a line break. -/
theorem getLast?_manifestText (run : RunInfo) (W : List (Queued ε × Bytes)) :
    (manifestText run W).getLast? = some 0x0a := by
  rcases List.eq_nil_or_concat W with rfl | ⟨W, w, rfl⟩
  · rw [manifestText_nil, List.getLast?_concat]
  · rw [List.concat_eq_append, manifestText_concat, ← List.append_assoc, List.getLast?_concat]

/-- Every manifest shows what it was written for. -/
theorem shows_manifestText (run : RunInfo) (W : List (Queued ε × Bytes)) :
    Shows (manifestText run W) run W where
  ended := getLast?_manifestText run W
  lines := by
    refine ⟨(Manifest.header run).render, W.map line, pieces_manifestText run W,
      Json.read?_render _, ?_⟩
    rw [List.forall₂_map_left_iff, List.forall₂_same]
    intro w _
    rw [line, Json.read?_render, Manifest.recordLine]
    simp only [List.isEmpty_iff]
    rfl

/-! ## The file -/

/-- The request puts what was written to the manifest into its file. -/
def Request.Settles : Request ε → Prop
  | .flush _ => True
  | .close _ => True
  | _ => False

/-- After a flush, and after the end of the run, the manifest in its file has the lines of
all records that could be written. -/
theorem readable_of_settles (h : Running t₀ run d j) {last : Request ε} (hlast : last.Settles) :
    let y := last.serve env (d, j)
    y.1.Spared (written y.2.tried) →
      ∃ W, W.map Prod.fst = written y.2.tried ∧
        (∀ w ∈ W, ∃ e, (w.1.content.marshal e).1 = .ok w.2) ∧
        y.1.tree.readFile? y.1.manifestPath = some (manifestText run W) := by
  intro y hspared
  cases last with
  | flush e =>
    obtain ⟨W, hdisk, hwritten, hread⟩ := (running_flush h e).2 hspared
    exact ⟨W, hwritten, hdisk.marshalled, hread⟩
  | close e =>
    obtain ⟨W, hdisk, hwritten⟩ := h.onDisk
    have hsame := sameRun_flushManifest d
    have hclosed : y.1 = { d.flushManifest with manifest := none, pending := [], names := [] } :=
      close_eq d e
    rw [hclosed] at hspared ⊢
    refine ⟨W, hwritten, hdisk.marshalled, ?_⟩
    show d.flushManifest.tree.readFile? d.flushManifest.manifestPath = _
    rw [hsame.manifestPath]
    refine (onDisk_flushManifest hdisk).2 fun q hq => ?_
    have hne := hspared q (hwritten ▸ hq)
    change Path.locate (d.flushManifest.filePath q) ≠ Path.locate d.flushManifest.manifestPath at hne
    rwa [hsame.manifestPath, hsame.filePath] at hne
  | openRun _ _ => exact hlast.elim
  | record _ => exact hlast.elim
  | meanwhile _ => exact hlast.elim

variable (env) in
/-- A run is opened, records are added and flushed, and at last it is flushed or closed. If
no record was written over the manifest, the manifest shows the run and the records that
were written, in order. -/
theorem manifest_shows_written (x : RunDirectory ε × Journal ε) (run : RunInfo) (e : ε)
    (hopen : (x.1.openRun env run e).1.1.isOk = true) (l : List (Request ε))
    (hl : ∀ q ∈ l, q.InRun ∧ q.Sound) (last : Request ε) (hlast : last.Settles) :
    let y := serve env (.openRun run e :: l ++ [last]) x
    y.1.Spared (written y.2.tried) →
      ∃ text W, y.1.tree.readFile? y.1.manifestPath = some text ∧
        W.map Prod.fst = written y.2.tried ∧
        (∀ w ∈ W, ∃ e, (w.1.content.marshal e).1 = .ok w.2) ∧ Shows text run W := by
  intro y hspared
  have hrunning := running_serve env l hl (running_openRun hopen)
  have hy : y = last.serve env (serve env l ((x.1.openRun env run e).1.2, {})) :=
    serve_concat env (.openRun run e :: l) last x
  rw [hy] at hspared ⊢
  obtain ⟨W, hwritten, hmarshalled, hread⟩ := readable_of_settles hrunning hlast hspared
  exact ⟨manifestText run W, W, hread, hwritten, hmarshalled, shows_manifestText run W⟩

/-- A newline, quotes, control bytes and bytes that are no text are in the path of the
configuration, in a name and in a fingerprint; a record in between cannot be written. -/
theorem manifest_shows_any_bytes :
    let run : RunInfo := ⟨"out", [0x22, 0x0a, 0x7d], [0xff, 0x00], -5⟩
    let y := serve flagOnly (.openRun run false ::
      [.record ⟨[0x0a, 0x22, 0x5c, 0x01, 0xc3], 7, [], some (.raw "x")⟩,
        .record (unmarshallable "b" false),
        .record ⟨"c", -1, [0x22, 0x7d, 0x0a], some (.raw [0x0a, 0x0a])⟩, .flush false] ++
      [.close false]) ({}, {})
    (({} : RunDirectory Bool).openRun flagOnly run false).1.1.isOk = true ∧
      y.1.Spared (written y.2.tried) ∧
      (written y.2.tried).map Queued.name = [[0x0a, 0x22, 0x5c, 0x01, 0xc3], "c"] ∧
      ∃ text W, y.1.tree.readFile? y.1.manifestPath = some text ∧
        W.map Prod.fst = written y.2.tried ∧
        (∀ w ∈ W, ∃ e, (w.1.content.marshal e).1 = .ok w.2) ∧ Shows text run W := by
  intro run y
  have hopen : (({} : RunDirectory Bool).openRun flagOnly run false).1.1.isOk = true := by
    decide +kernel
  have hspared : y.1.Spared (written y.2.tried) := by
    unfold Spared
    decide +kernel
  have hraw : ∀ (name : Bytes) (time : Nanoseconds) (fingerprint s : Bytes),
      (Request.record ⟨name, time, fingerprint, some (.raw s)⟩ : Request Bool).Sound :=
    fun _ _ _ s c hc => Option.some.inj hc ▸ .of_ok fun e => ⟨s, rfl⟩
  refine ⟨hopen, hspared, by decide +kernel, ?_⟩
  refine manifest_shows_written flagOnly ({}, {}) run false hopen _ ?_ _ trivial hspared
  simp only [List.forall_mem_cons]
  exact ⟨⟨trivial, hraw _ _ _ _⟩, ⟨trivial, unmarshallable_sound _ _⟩, ⟨trivial, hraw _ _ _ _⟩,
    ⟨trivial, trivial⟩, by simp⟩

end RunDirectory

end ClusterEvidence
