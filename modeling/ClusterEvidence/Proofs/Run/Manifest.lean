import ClusterEvidence.Proofs.Files.Tree
import ClusterEvidence.Proofs.Json.Text
import ClusterEvidence.Run.Manifest

/-!
# The text of a manifest

The text written to a manifest is in its file, up to what waits in the buffer
(`Manifest.Holds`). Writing adds to the text, flushing takes nothing from it, and changes
elsewhere in the tree do not matter. Its lines have no newlines inside and tell the records
apart : no two names have the same line, and no record has the line of the run.
-/

namespace ClusterEvidence

namespace Manifest

variable {m : Manifest} {t t' : FileTree} {text : Bytes}

/-! ## Lines -/

/-- The lines of a manifest, each with its end. -/
def linesText (lines : List Bytes) : Bytes := lines.flatMap (· ++ [0x0a])

theorem render_recordLine (name : Bytes) (captured : Nanoseconds) (fingerprint bytes : Bytes) :
    ∃ rest, (recordLine name captured fingerprint bytes).render =
      0x7b :: (Json.quote "type" ++ 0x3a :: (Json.quote "record" ++ 0x2c ::
        (Json.quote "name" ++ 0x3a :: (Json.quote name ++ 0x2c :: rest)))) := by
  simp only [recordLine, Json.render, Json.field, Json.member, Json.renderMembers,
    List.append_assoc, List.cons_append]
  exact ⟨_, rfl⟩

theorem render_header (run : RunInfo) :
    ∃ rest, (header run).render =
      0x7b :: (Json.quote "type" ++ 0x3a :: (Json.quote "run_started" ++ 0x2c :: rest)) := by
  simp only [header, Json.render, Json.field, Json.member, Json.renderMembers,
    List.append_assoc, List.cons_append]
  exact ⟨_, rfl⟩

/-- A record that brings no fingerprint is listed with that of its bytes. -/
theorem recordLine_fingerprint (name : Bytes) (captured : Nanoseconds) (bytes : Bytes) :
    recordLine name captured [] bytes =
      recordLine name captured (Fnv.fingerprint bytes) bytes := by
  have hempty : (Fnv.fingerprint bytes).isEmpty = false := rfl
  simp only [recordLine, hempty, List.isEmpty_nil, if_true, Bool.false_eq_true, if_false]

/-- Records of different names have different lines. -/
theorem recordLine_inj {n n' : Bytes} {c c' : Nanoseconds} {f f' b b' : Bytes}
    (h : (recordLine n c f b).render = (recordLine n' c' f' b').render) : n = n' := by
  obtain ⟨rest, hrest⟩ := render_recordLine n c f b
  obtain ⟨rest', hrest'⟩ := render_recordLine n' c' f' b'
  rw [hrest, hrest', List.cons.injEq] at h
  have htype := List.cons.inj (Json.quote_append_inj h.2).2
  have hrecord := List.cons.inj (Json.quote_append_inj htype.2).2
  have hname := List.cons.inj (Json.quote_append_inj hrecord.2).2
  exact (Json.quote_append_inj hname.2).1

/-- The line of a record is not the one of the run. -/
theorem recordLine_ne_header (run : RunInfo) (n : Bytes) (c : Nanoseconds) (f b : Bytes) :
    (recordLine n c f b).render ≠ (header run).render := by
  intro h
  obtain ⟨rest, hrest⟩ := render_recordLine n c f b
  obtain ⟨rest', hrest'⟩ := render_header run
  rw [hrest, hrest', List.cons.injEq] at h
  have htype := List.cons.inj (Json.quote_append_inj h.2).2
  have hkind : (Bytes.ofString "record") = Bytes.ofString "run_started" :=
    (Json.quote_append_inj htype.2).1
  exact absurd hkind (by decide)

/-! ## What was written -/

/-- The text is in the file of the manifest, up to what waits. -/
def Holds (m : Manifest) (t : FileTree) (text : Bytes) : Prop :=
  ∃ content, t.at? m.location = some (.file content) ∧ content.length = m.written ∧
    content ++ m.buffer = text

/-- Changes elsewhere do not matter. -/
theorem Holds.congr (h : m.Holds t text) (hat : t'.at? m.location = t.at? m.location) :
    m.Holds t' text := by
  obtain ⟨content, hfile, hlen, htext⟩ := h
  exact ⟨content, hat.trans hfile, hlen, htext⟩

/-- When nothing waits, the file has the text. -/
theorem Holds.file (h : m.Holds t text) (hbuffer : m.buffer = []) :
    t.at? m.location = some (.file text) := by
  obtain ⟨content, hfile, -, htext⟩ := h
  rw [hbuffer, List.append_nil] at htext
  rwa [← htext]

/-- Flushing leaves the text of the manifest. -/
theorem holds_flush (h : m.Holds t text) : (m.flush t).1.Holds (m.flush t).2 text := by
  unfold flush
  split
  · exact h
  · obtain ⟨content, hfile, hlen, htext⟩ := h
    refine ⟨text, ?_, ?_, List.append_nil _⟩
    · simp only [FileTree.writeAt, hfile, ← hlen, FileTree.overwrite_end, htext]
      exact FileTree.at?_put_self (FileTree.isAbove_eq_false (by rw [hfile]; simp)) t _
    · rw [← htext, List.length_append, hlen]

theorem holds_write (h : m.Holds t text) (s : Bytes) :
    (m.write s t).1.Holds (m.write s t).2 (text ++ s) := by
  have hwait : Holds { m with buffer := m.buffer ++ s } t (text ++ s) := by
    obtain ⟨content, hfile, hlen, htext⟩ := h
    exact ⟨content, hfile, hlen, by rw [← htext, List.append_assoc]⟩
  unfold write
  dsimp only
  split
  · exact holds_flush hwait
  · exact hwait

theorem holds_writeLine (h : m.Holds t text) (j : Json) :
    (m.writeLine j t).1.Holds (m.writeLine j t).2 (text ++ (j.render ++ [0x0a])) := by
  rw [← List.append_assoc]
  exact holds_write (holds_write h j.render) [0x0a]

/-! ## What writing changes -/

/-- The manifest stays where it is, and of the tree only its file is changed. -/
structure Moves (m : Manifest) (t : FileTree) (m' : Manifest) (t' : FileTree) : Prop where
  location : m'.location = m.location
  extended : t.Extends t'
  elsewhere : ∀ l, l ≠ m.location → t'.at? l = t.at? l

theorem Moves.refl (m : Manifest) (t : FileTree) : m.Moves t m t :=
  ⟨rfl, .refl t, fun _ _ => rfl⟩

theorem Moves.trans {m' m'' : Manifest} {t'' : FileTree} (h : m.Moves t m' t')
    (h' : m'.Moves t' m'' t'') : m.Moves t m'' t'' where
  location := h'.location.trans h.location
  extended := h.extended.trans h'.extended
  elsewhere l hl := (h'.elsewhere l (h.location ▸ hl)).trans (h.elsewhere l hl)

theorem moves_flush (m : Manifest) (t : FileTree) : m.Moves t (m.flush t).1 (m.flush t).2 := by
  unfold flush
  split
  · exact .refl m t
  · unfold FileTree.writeAt
    dsimp only
    split
    · next old hold =>
      refine ⟨rfl, .put (by rw [hold]; simp), fun l hl => FileTree.at?_put_of_ne hl t _⟩
    · exact ⟨rfl, .refl t, fun _ _ => rfl⟩

/-- Writing moves on from what was written. -/
theorem moves_write (m : Manifest) (s : Bytes) (t : FileTree) :
    m.Moves t (m.write s t).1 (m.write s t).2 := by
  unfold write
  dsimp only
  split
  · obtain ⟨hlocation, hextended, helsewhere⟩ := moves_flush { m with buffer := m.buffer ++ s } t
    exact ⟨hlocation, hextended, helsewhere⟩
  · exact ⟨rfl, .refl t, fun _ _ => rfl⟩

theorem moves_writeLine (m : Manifest) (j : Json) (t : FileTree) :
    m.Moves t (m.writeLine j t).1 (m.writeLine j t).2 :=
  (moves_write m j.render t).trans (moves_write _ [0x0a] _)

theorem flush_buffer (m : Manifest) (t : FileTree) : (m.flush t).1.buffer = [] := by
  unfold flush
  split
  · next h => exact List.isEmpty_iff.1 h
  · rfl

end Manifest

end ClusterEvidence
