import ClusterEvidence.Proofs.Files.Contents
import ClusterEvidence.Proofs.Run.Accounting

/-!
# Interrupted flushes are resumed

A flush that is interrupted writes what its manifest holds so far to its file and leaves the
rest of the queue. Apart from that it is a part of the flush that would have been : what a run
directory is once its manifest is in its file (`settled`) does not depend on when that
happened (`settled_store`). So flushes that are interrupted anywhere, and one that is not, come
to what one flush comes to (`resumed_flush_eq`) : the same files, the same manifest and an
empty queue.

This is about runs that write no record over their manifest. One that does shifts it : what
follows is written behind as much as was in the file before, so it matters how much was
(`resumed_flush_shifts`).
-/

namespace ClusterEvidence

variable {ε : Type}

/-- What the content comes to does not depend on the surroundings. -/
def Content.Fixed (c : Content ε) : Prop := ∀ e e', (c.marshal e).1 = (c.marshal e').1

/-! ## The manifest in its file -/

namespace Manifest

variable {m : Manifest} {t : FileTree} {text : Bytes}

/-- After a flush the whole text is in the file, and nothing waits. -/
theorem Holds.flush_eq (h : m.Holds t text) :
    m.flush t = ({ location := m.location, written := text.length },
      t.put m.location (.file text)) := by
  obtain ⟨content, hfile, hlen, htext⟩ := h
  have habove : Path.isAbove m.location = false :=
    FileTree.isAbove_eq_false (by rw [hfile]; simp)
  unfold flush
  split
  · next hbuffer =>
    rw [List.isEmpty_iff] at hbuffer
    rw [hbuffer, List.append_nil] at htext
    subst htext
    rw [FileTree.put_of_at? habove hfile, hlen]
    exact congrArg (fun buffer => (({ m with buffer := buffer } : Manifest), t)) hbuffer
  · have hat : t.writeAt m.location m.written m.buffer = t.put m.location (.file text) := by
      simp only [FileTree.writeAt, hfile, ← hlen, FileTree.overwrite_end, htext]
    rw [hat, ← htext, List.length_append, hlen]

/-- Writing changes the tree in the file of the manifest only. -/
theorem put_write (m : Manifest) (s : Bytes) (t : FileTree) (e : Entry) :
    (m.write s t).2.put m.location e = t.put m.location e := by
  unfold write flush FileTree.writeAt
  dsimp only
  split
  · split
    · rfl
    · split
      · exact FileTree.put_put _ _ _ _
      · rfl
  · rfl

theorem put_writeLine (m : Manifest) (j : Json) (t : FileTree) (e : Entry) :
    (m.writeLine j t).2.put m.location e = t.put m.location e := by
  have hmoves := m.moves_write j.render t
  have hline := (m.write j.render t).1.put_write [0x0a] (m.write j.render t).2 e
  rw [hmoves.location] at hline
  exact hline.trans (m.put_write j.render t e)

end Manifest

namespace RunDirectory

variable {env : Surroundings ε} {t₀ : FileTree} {run : RunInfo} {d d' : RunDirectory ε}
  {j : Journal ε} {text : Bytes} {q : Queued ε}

/-- The open run has its manifest in its place, with this text up to what waits. -/
def Lists (d : RunDirectory ε) (text : Bytes) : Prop :=
  ∃ m, d.manifest = some m ∧ m.location = Path.locate d.manifestPath ∧ m.Holds d.tree text

/-- The run directory with the whole text in the file of its manifest. -/
def listing (d : RunDirectory ε) (text : Bytes) : RunDirectory ε :=
  { d with
    manifest := some { location := Path.locate d.manifestPath, written := text.length }
    tree := d.tree.put (Path.locate d.manifestPath) (.file text) }

/-- Flushing the manifest writes its text. -/
theorem Lists.flushManifest_eq (h : d.Lists text) : d.flushManifest = d.listing text := by
  obtain ⟨m, hm, hlocation, hholds⟩ := h
  rw [flushManifest_some hm, hholds.flush_eq, hlocation]
  rfl

theorem Lists.file (h : d.Lists text) :
    ∃ old, d.tree.at? (Path.locate d.manifestPath) = some (.file old) := by
  obtain ⟨m, -, hlocation, content, hfile, -⟩ := h
  exact ⟨content, hlocation ▸ hfile⟩

theorem Lists.listing (h : d.Lists text) : (d.listing text).Lists text := by
  obtain ⟨old, hfile⟩ := h.file
  refine ⟨_, rfl, rfl, text, ?_, rfl, List.append_nil _⟩
  exact FileTree.at?_put_self (FileTree.isAbove_eq_false (by rw [hfile]; simp)) _ _

/-- Changes elsewhere do not matter. -/
theorem Lists.congr (h : d.Lists text) {t : FileTree}
    (hat : t.at? (Path.locate d.manifestPath) = d.tree.at? (Path.locate d.manifestPath)) :
    Lists { d with tree := t } text := by
  obtain ⟨m, hm, hlocation, hholds⟩ := h
  exact ⟨m, hm, hlocation, hholds.congr (by rw [hlocation, hat])⟩

/-- A line is added to the text, whatever of it was in the file before. -/
theorem Lists.writeLine (h : d.Lists text) (j : Json) :
    (d.writeLine j).Lists (text ++ (j.render ++ [0x0a])) ∧
      (d.writeLine j).listing (text ++ (j.render ++ [0x0a])) =
        d.listing (text ++ (j.render ++ [0x0a])) := by
  obtain ⟨m, hm, hlocation, hholds⟩ := h
  have hmoves := m.moves_writeLine j d.tree
  rw [writeLine_some hm]
  refine ⟨⟨_, rfl, hmoves.location.trans hlocation, Manifest.holds_writeLine hholds j⟩, ?_⟩
  have hput := m.put_writeLine j d.tree (.file (text ++ (j.render ++ [0x0a])))
  rw [hlocation] at hput
  simp only [RunDirectory.listing, hput]

/-! ## Settled -/

/-- What a run directory is once its manifest is in its file, the queue left aside. -/
def settled (d : RunDirectory ε) : RunDirectory ε := { d.flushManifest with pending := [] }

theorem Lists.settled_eq (h : d.Lists text) :
    d.settled = { d.listing text with pending := [] } := by
  rw [settled, h.flushManifest_eq]

theorem Lists.settled (h : d.Lists text) : d.settled.Lists text := by
  rw [h.settled_eq]
  exact h.listing

/-- What is settled stays settled. -/
theorem Lists.settled_settled (h : d.Lists text) : d.settled.settled = d.settled := by
  rw [h.settled.settled_eq, h.settled_eq]
  simp only [RunDirectory.listing, FileTree.put_put]

/-- The same line is added, whether or not the manifest is in its file. -/
theorem Lists.settled_writeLine (h : d.Lists text) (j : Json) :
    (d.settled.writeLine j).settled = (d.writeLine j).settled := by
  obtain ⟨hlists, hlisting⟩ := h.writeLine j
  obtain ⟨hlists', hlisting'⟩ := h.settled.writeLine j
  rw [hlists.settled_eq, hlists'.settled_eq, hlisting, hlisting', h.settled_eq]
  simp only [RunDirectory.listing, FileTree.put_put]

/-- The manifest goes to its file in the same way in another tree. -/
theorem Lists.settled_tree (h : d.Lists text) {t : FileTree}
    (hat : t.at? (Path.locate d.manifestPath) = d.tree.at? (Path.locate d.manifestPath)) :
    { d.settled with tree := t.put (Path.locate d.manifestPath) (.file text) } =
      RunDirectory.settled { d with tree := t } := by
  rw [(h.congr hat).settled_eq, h.settled_eq]
  rfl

/-- A record is stored in the same way, whether or not the manifest is in its file, unless it
is stored there. -/
theorem Lists.settled_store (h : d.Lists text)
    (hq : Path.locate (d.filePath q) ≠ Path.locate d.manifestPath) (bytes : Bytes) :
    (∃ text', (d.store q bytes).2.Lists text') ∧
      (d.settled.store q bytes).1 = (d.store q bytes).1 ∧
      (d.settled.store q bytes).2.settled = (d.store q bytes).2.settled := by
  obtain ⟨old, hfile⟩ := h.file
  have hmade := ((d.tree.sameFiles_createDirectories (Path.parent (d.filePath q))).files
    (Path.locate d.manifestPath) old).2 hfile
  have hmade' := FileTree.createDirectories_put_file hfile text (Path.parent (d.filePath q))
  have hpath : d.settled.filePath q = d.filePath q := by
    rw [h.settled_eq]
    rfl
  have htree : d.settled.tree = d.tree.put (Path.locate d.manifestPath) (.file text) := by
    rw [h.settled_eq]
    rfl
  unfold store
  rw [hpath, htree]
  dsimp only
  rw [hmade']
  generalize d.tree.createDirectories (Path.parent (d.filePath q)) = made at hmade ⊢
  obtain ⟨t, _ | why⟩ := made
  · dsimp only at hmade ⊢
    rw [FileTree.writeFile_put_file hmade text hq]
    cases hwrite : t.writeFile (d.filePath q) bytes with
    | none =>
      dsimp only [Option.map_none]
      rw [h.settled_tree (hmade.trans hfile.symm)]
      have hlists := h.congr (hmade.trans hfile.symm)
      exact ⟨⟨text, hlists⟩, rfl, hlists.settled_settled⟩
    | some x =>
      obtain ⟨hresolve, -, hput⟩ := FileTree.writeFile_eq_some hwrite
      have hat :
          x.1.at? (Path.locate d.manifestPath) = d.tree.at? (Path.locate d.manifestPath) := by
        rw [hput, FileTree.at?_put_of_ne (FileTree.resolve_eq_locate hresolve ▸ Ne.symm hq), hmade,
          hfile]
      dsimp only [Option.map_some]
      rw [h.settled_tree hat]
      have hlists := h.congr hat
      exact ⟨⟨_, (hlists.writeLine _).1⟩, rfl, hlists.settled_writeLine _⟩
  · dsimp only at hmade ⊢
    rw [h.settled_tree (hmade.trans hfile.symm)]
    have hlists := h.congr (hmade.trans hfile.symm)
    exact ⟨⟨text, hlists⟩, rfl, hlists.settled_settled⟩

/-! ## Records one after the other -/

/-- A record whose content is fixed is written the same at any time. -/
theorem writeRecord_of_fixed (hq : q.content.Fixed) (d : RunDirectory ε) (e e' : ε) :
    (d.writeRecord q e).1 = (d.writeRecord q e').1 := by
  rw [writeRecord_run, writeRecord_run, hq e e']

/-- A record that spares the manifest is written alike, settled before or after. -/
theorem Lists.settled_writeRecord (h : d.Lists text)
    (hq : Path.locate (d.filePath q) ≠ Path.locate d.manifestPath) (e : ε) :
    (∃ text', (d.writeRecord q e).1.2.Lists text') ∧
      (d.settled.writeRecord q e).1.1 = (d.writeRecord q e).1.1 ∧
      (d.settled.writeRecord q e).1.2.settled = (d.writeRecord q e).1.2.settled := by
  rw [writeRecord_run, writeRecord_run]
  cases (q.content.marshal e).1 with
  | error st => exact ⟨⟨text, h⟩, rfl, h.settled_settled⟩
  | ok bytes => exact h.settled_store hq bytes

/-- The records are written in order, and the flag is not looked at. -/
def writeAll (e : ε) :
    List (Queued ε) → RunDirectory ε → List (Queued ε × Status) × RunDirectory ε
  | [], d => ([], d)
  | q :: qs, d =>
    let w := (d.writeRecord q e).1
    let rest := writeAll e qs w.2
    ((q, w.1) :: rest.1, rest.2)

/-- A queue can be written in two goes. -/
theorem writeAll_append (e : ε) (qs qs' : List (Queued ε)) (d : RunDirectory ε) :
    writeAll e (qs ++ qs') d =
      ((writeAll e qs d).1 ++ (writeAll e qs' (writeAll e qs d).2).1,
        (writeAll e qs' (writeAll e qs d).2).2) := by
  induction qs generalizing d with
  | nil => rfl
  | cons q qs ih => simp only [List.cons_append, writeAll, ih]

theorem sameRun_writeAll (e : ε) (qs : List (Queued ε)) (d : RunDirectory ε) :
    SameRun d (writeAll e qs d).2 := by
  induction qs generalizing d with
  | nil => exact .refl d
  | cons q qs ih => exact (sameRun_writeRecord q d e).trans (ih _)

theorem SameRun.spared (h : SameRun d d') {qs : List (Queued ε)} (hqs : d.Spared qs) :
    d'.Spared qs := by
  intro q hq
  rw [h.filePath, h.manifestPath]
  exact hqs q hq

variable (env) in
/-- A flush writes the records from the front of the queue, up to where it leaves the rest. -/
theorem flushQueue_eq_writeAll {qs : List (Queued ε)} (hqs : ∀ q ∈ qs, q.content.Fixed) (e₀ : ε)
    (d : RunDirectory ε) (e : ε) :
    ∃ done, qs = done ++ (flushQueue env qs d e).1.1.left ∧
      (flushQueue env qs d e).1.1.tried = (writeAll e₀ done d).1 ∧
      (flushQueue env qs d e).1.2 = (writeAll e₀ done d).2 := by
  induction qs generalizing d e with
  | nil => exact ⟨[], rfl, rfl, rfl⟩
  | cons q qs ih =>
    rw [List.forall_mem_cons] at hqs
    rw [flushQueue_cons]
    dsimp only
    split
    · exact ⟨[], rfl, rfl, rfl⟩
    · rw [writeRecord_of_fixed hqs.1 d _ e₀]
      obtain ⟨done, hqueue, htried, hend⟩ := ih hqs.2 (d.writeRecord q e₀).1.2
        (d.writeRecord q (env.cancelled e).2).2
      refine ⟨q :: done, by rw [List.cons_append, ← hqueue], ?_, hend⟩
      rw [writeAll, htried]

/-- Run directories that are the same once they are settled stay so, and write with the same
success. -/
theorem writeAll_settled {qs : List (Queued ε)} {text' : Bytes} (h : d.Lists text)
    (h' : d'.Lists text') (hsame : d.settled = d'.settled) (hqs : d.Spared qs) (e : ε) :
    (∃ text, (writeAll e qs d).2.Lists text) ∧ (writeAll e qs d).1 = (writeAll e qs d').1 ∧
      (writeAll e qs d).2.settled = (writeAll e qs d').2.settled := by
  induction qs generalizing d d' text text' with
  | nil => exact ⟨⟨text, h⟩, rfl, hsame⟩
  | cons q qs ih =>
    have hrun := sameRun_writeRecord q d e
    have hpath : d'.filePath q = d.filePath q ∧ d'.manifestPath = d.manifestPath := by
      have hdir : d.settled.filePath q = d'.settled.filePath q := by rw [hsame]
      have hmanifest : d.settled.manifestPath = d'.settled.manifestPath := by rw [hsame]
      rw [h.settled_eq, h'.settled_eq] at hdir hmanifest
      exact ⟨hdir.symm, hmanifest.symm⟩
    obtain ⟨⟨text₁, hlists⟩, hstatus, hwritten⟩ := h.settled_writeRecord
      (hqs q List.mem_cons_self) e
    obtain ⟨⟨text₁', hlists'⟩, hstatus', hwritten'⟩ := h'.settled_writeRecord
      (by rw [hpath.1, hpath.2]; exact hqs q List.mem_cons_self) e
    rw [hsame] at hstatus hwritten
    obtain ⟨hrest, htried, hend⟩ := ih hlists hlists' (hwritten.symm.trans hwritten')
      (hrun.spared fun q' hq' => hqs q' (List.mem_cons_of_mem _ hq'))
    refine ⟨hrest, ?_, hend⟩
    rw [writeAll, writeAll, htried, hstatus.symm.trans hstatus']

/-! ## Flushes one after the other -/

/-- An open run that can be flushed in parts. -/
structure Resumable (d : RunDirectory ε) : Prop where
  isOpen : d.isOpen = true
  lists : ∃ text, d.Lists text
  fixed : ∀ q ∈ d.pending, q.content.Fixed
  spared : d.Spared d.pending

/-- What the queue comes to when all of it is written, and what the run directory is then. -/
def outcome (e : ε) (d : RunDirectory ε) : List (Queued ε × Status) × RunDirectory ε :=
  ((writeAll e d.pending d).1, (writeAll e d.pending d).2.settled)

theorem Lists.queue (h : d.Lists text) (pending : List (Queued ε)) :
    Lists { d with pending } text := h

variable (env) in
/-- A flush takes its part of what the queue comes to, and leaves the rest of it. -/
theorem Resumable.flush (h : d.Resumable) (e₀ e : ε) :
    (d.flush env e).1.2.Resumable ∧
      (d.attempt env e).tried ++ (outcome e₀ (d.flush env e).1.2).1 = (outcome e₀ d).1 ∧
      (outcome e₀ (d.flush env e).1.2).2 = (outcome e₀ d).2 := by
  obtain ⟨hattempt, hflush⟩ := attempt_open env h.isOpen e
  obtain ⟨done, hqueue, htried, hend⟩ := flushQueue_eq_writeAll env h.fixed e₀ d e
  rw [hattempt, hflush, htried, hend]
  generalize (flushQueue env d.pending d e).1.1.left = left at hqueue
  have hrun := (sameRun_writeAll e₀ done d).trans (sameRun_flushManifest _)
  have hspared : d.Spared (done ++ left) := hqueue ▸ h.spared
  obtain ⟨text, hlists⟩ := h.lists
  obtain ⟨⟨text', hlists'⟩, -, -⟩ := writeAll_settled hlists hlists rfl
    (fun q hq => hspared q (List.mem_append_left _ hq)) e₀
  have hflushed : Lists { (writeAll e₀ done d).2.flushManifest with pending := left } text' := by
    rw [hlists'.flushManifest_eq]
    exact hlists'.listing.queue left
  have hsame : RunDirectory.settled { (writeAll e₀ done d).2.flushManifest with pending := left } =
      (writeAll e₀ done d).2.settled := by
    rw [hflushed.settled_eq, hlists'.flushManifest_eq, hlists'.settled_eq]
    simp only [RunDirectory.listing, FileTree.put_put]
  have hleft : RunDirectory.Spared { (writeAll e₀ done d).2.flushManifest with pending := left }
      left := hrun.spared fun q hq => hspared q (List.mem_append_right _ hq)
  obtain ⟨-, hrest, hsettled⟩ := writeAll_settled hflushed hlists' hsame hleft e₀
  refine ⟨⟨hrun.isOpen.trans h.isOpen, ⟨_, hflushed⟩, fun q hq => h.fixed q ?_, hleft⟩, ?_, ?_⟩
  · rw [hqueue]
    exact List.mem_append_right _ hq
  · show _ ++ (writeAll e₀ left _).1 = (writeAll e₀ d.pending d).1
    rw [hqueue, writeAll_append, hrest]
  · show (writeAll e₀ left _).2.settled = (writeAll e₀ d.pending d).2.settled
    rw [hqueue, writeAll_append, hsettled]

/-- A flush that is not interrupted comes to all of it. -/
theorem Resumable.flush_lowered {I : ε → Prop}
    (hlowered : Keeps I (fun raised => raised = false) env.cancelled) (h : d.Resumable)
    (hqs : ∀ q ∈ d.pending, Keeps I (fun _ => True) q.content.marshal) (e₀ : ε) {e : ε}
    (he : I e) :
    (d.attempt env e).tried = (outcome e₀ d).1 ∧ (d.flush env e).1.2 = (outcome e₀ d).2 := by
  have hleft := flushQueue_left hlowered hqs d he
  obtain ⟨hattempt, hflush⟩ := attempt_open env h.isOpen e
  obtain ⟨done, hqueue, htried, hend⟩ := flushQueue_eq_writeAll env h.fixed e₀ d e
  rw [hleft, List.append_nil] at hqueue
  rw [hattempt, hflush, htried, hend, hleft, outcome, ← hqueue]
  exact ⟨rfl, rfl⟩

/-- Flushes in a row that end with one that is not interrupted come to what the queue comes
to. -/
theorem Resumable.serve_flushes {I : ε → Prop}
    (hlowered : Keeps I (fun raised => raised = false) env.cancelled) (h : d.Resumable)
    (hqs : ∀ q ∈ d.pending, Keeps I (fun _ => True) q.content.marshal) (es : List ε) (e₀ : ε)
    {e : ε} (he : I e) :
    let y := serve env (es.map .flush ++ [.flush e]) (d, j)
    y.1 = (outcome e₀ d).2 ∧ y.2.tried = j.tried ++ (outcome e₀ d).1 ∧
      y.2.accepted = j.accepted := by
  induction es generalizing d j with
  | nil =>
    obtain ⟨htried, hend⟩ := h.flush_lowered hlowered hqs e₀ he
    refine ⟨hend, ?_, rfl⟩
    rw [← htried]
    exact Journal.tried_flush j (d.attempt env e, (d.flush env e).1.1)
  | cons e' es ih =>
    obtain ⟨hkept, htried, hend⟩ := h.flush env e₀ e'
    have hrest := ih (j := { j with
        flushes := j.flushes ++ [(d.attempt env e', (d.flush env e').1.1)] }) hkept
      fun q hq => hqs q (mem_pending_of_flush hq)
    rw [hend, Journal.tried_flush, List.append_assoc, htried] at hrest
    exact hrest

/-- A run whose records stay off its manifest has it in its place. -/
theorem Running.lists (h : Running t₀ run d j) (hspared : d.Spared j.accepted) :
    ∃ text, d.Lists text := by
  obtain ⟨W, hdisk, hwritten⟩ := h.onDisk
  obtain ⟨m, hm, hlocation, hholds⟩ := hdisk.manifest
  refine ⟨manifestText run W, m, hm, hlocation, hholds fun q hq => hspared q ?_⟩
  rw [hwritten] at hq
  rw [h.consistent.order]
  exact List.mem_append_left _ (written_subset hq)

/-- A run whose records spare the manifest can be resumed. -/
theorem Running.resumable (h : Running t₀ run d j) (hspared : d.Spared j.accepted)
    (hfixed : ∀ q ∈ d.pending, q.content.Fixed) : d.Resumable where
  isOpen := h.isOpen
  lists := h.lists hspared
  fixed := hfixed
  spared q hq := hspared q (by
    rw [h.consistent.order]
    exact List.mem_append_right _ (List.mem_append_right _ hq))

variable (env) in
/-- In a run that was opened, after any records and flushes, let the contents in the queue come
to the same in all surroundings, and let no record be at the manifest. Then flushes that are
interrupted anywhere and one that is not leave what one flush leaves : the same files, of them
the manifest with the lines of the records that could be written, in the order in which they
were accepted, and an empty queue. -/
theorem resumed_flush_eq {I : ε → Prop}
    (hlowered : Keeps I (fun raised => raised = false) env.cancelled)
    (x : RunDirectory ε × Journal ε) (run : RunInfo) (e : ε)
    (hopen : (x.1.openRun env run e).1.1.isOk = true) (l : List (Request ε))
    (hl : ∀ q ∈ l, q.InRun ∧ q.Sound) (es : List ε) {e₁ e₂ : ε} (h₁ : I e₁) (h₂ : I e₂) :
    let y := serve env (.openRun run e :: l) x
    let single := serve env [.flush e₁] y
    let resumed := serve env (es.map .flush ++ [.flush e₂]) y
    (∀ q ∈ y.1.pending, q.content.Fixed ∧ Keeps I (fun _ => True) q.content.marshal) →
      y.1.Spared y.2.accepted →
      resumed.1 = single.1 ∧ resumed.2.tried = single.2.tried ∧ single.1.pending = [] ∧
        single.2.tried.map Prod.fst = y.2.accepted ∧
        ∃ W, W.map Prod.fst = written single.2.tried ∧
          (∀ w ∈ W, ∃ e, (w.1.content.marshal e).1 = .ok w.2) ∧
          single.1.tree.readFile? single.1.manifestPath = some (manifestText run W) := by
  intro y single resumed hqs hspared
  have hrunning : Running _ run y.1 y.2 := running_serve env l hl (running_openRun hopen)
  have hresumable := hrunning.resumable hspared fun q hq => (hqs q hq).1
  obtain ⟨hend, htried, -⟩ := hresumable.serve_flushes (j := y.2) hlowered
    (fun q hq => (hqs q hq).2) [] e₁ h₁
  obtain ⟨hend', htried', -⟩ := hresumable.serve_flushes (j := y.2) hlowered
    (fun q hq => (hqs q hq).2) es e₁ h₂
  obtain ⟨hflushed, hread⟩ := running_flush hrunning e₁
  have hpending : single.1.pending = [] := congrArg pending hend
  have horder : single.2.tried.map Prod.fst = y.2.accepted := by
    have horder := hflushed.consistent.order
    rw [hflushed.consistent.kept hflushed.isOpen] at horder
    change y.2.accepted = single.2.tried.map Prod.fst ++ ([] ++ single.1.pending) at horder
    rw [horder, hpending, List.append_nil, List.append_nil]
  have hrun := (sameRun_flushQueue env y.1.pending y.1 e₁).trans (sameRun_flushManifest _)
  have hspared' : single.1.Spared (written single.2.tried) := by
    show RunDirectory.Spared (y.1.flush env e₁).1.2 _
    rw [(attempt_open _ hrunning.isOpen e₁).2]
    exact hrun.spared fun q hq => hspared q (horder ▸ written_subset hq)
  obtain ⟨W, hdisk, hwritten, hmanifest⟩ := hread hspared'
  exact ⟨hend'.trans hend.symm, htried'.trans htried.symm, hpending, horder, W, hwritten,
    hdisk.marshalled, hmanifest⟩

/-- Surroundings where the flag is found raised after it was looked at so many times, if ever. -/
def countdown : Surroundings (Option Nat) where
  cancelled
    | none => (false, none)
    | some 0 => (true, some 0)
    | some (n + 1) => (false, some n)
  note := fun _ _ => pure ()
  wallClock := pure 0
  stopwatch := pure 0

/-- A record that is written, one that fails and another that is written, where flushes are
interrupted after the first and after the second. -/
theorem resumed_three_records :
    let run : RunInfo := ⟨"out", "cfg.yaml", "abc", 1⟩
    let bad : Content (Option Nat) := .custom "json" fun e => (.error ⟨.internal, "boom"⟩, e)
    let y := serve countdown (.openRun run none ::
      [.record ⟨"a", 0, [], some (.raw "x")⟩, .record ⟨"b", 0, [], some bad⟩,
        .record ⟨"c", 0, [], some (.raw "y")⟩]) ({}, {})
    let interrupted := serve countdown ([some 1, some 0, some 1].map .flush) y
    let single := serve countdown [.flush none] y
    let resumed := serve countdown ([some 1, some 0, some 1].map .flush ++ [.flush none]) y
    y.2.accepted.length = 3 ∧ interrupted.1.pending.length = 1 ∧
      y.1.Spared y.2.accepted ∧ resumed.1 = single.1 ∧ single.1.pending = [] := by
  intro run bad y interrupted single resumed
  have hopen : (({} : RunDirectory (Option Nat)).openRun countdown run none).1.1.isOk = true := by
    decide +kernel
  have hspared : y.1.Spared y.2.accepted := by
    unfold Spared
    decide +kernel
  have hlowered : Keeps (· = none) (fun raised => raised = false) countdown.cancelled := by
    rintro _ rfl
    exact ⟨rfl, rfl⟩
  have hsound : bad.Sound := fun _ _ hst => by
    obtain rfl := Except.error.inj hst
    rfl
  have hraw : ∀ s : Bytes, (Content.raw s : Content (Option Nat)).Sound := fun s =>
    .of_ok fun e => ⟨s, rfl⟩
  have hqs : ∀ q ∈ y.1.pending,
      q.content.Fixed ∧ Keeps (· = none) (fun _ => True) q.content.marshal := by
    intro q hq
    have hadded := (mem_pending_of_serve _ hq).resolve_left List.not_mem_nil
    simp only [List.mem_cons, Request.record.injEq, Queued.record, Record.mk.injEq,
      Option.some.injEq, reduceCtorEq, List.not_mem_nil, or_false, false_or] at hadded
    rcases hadded with ⟨-, -, -, hq⟩ | ⟨-, -, -, hq⟩ | ⟨-, -, -, hq⟩
    all_goals
      rw [hq]
      exact ⟨fun _ _ => rfl, fun _ he => ⟨trivial, he⟩⟩
  have hl : ∀ request ∈ ([.record ⟨"a", 0, [], some (.raw "x")⟩, .record ⟨"b", 0, [], some bad⟩,
      .record ⟨"c", 0, [], some (.raw "y")⟩] : List (Request (Option Nat))),
      request.InRun ∧ request.Sound := by
    simp only [List.forall_mem_cons]
    exact ⟨⟨trivial, fun c hc => Option.some.inj hc ▸ hraw _⟩,
      ⟨trivial, fun c hc => Option.some.inj hc ▸ hsound⟩,
      ⟨trivial, fun c hc => Option.some.inj hc ▸ hraw _⟩, by simp⟩
  obtain ⟨hsame, -, hpending, -⟩ := resumed_flush_eq countdown hlowered ({}, {}) run none hopen
    _ hl [some 1, some 0, some 1] rfl rfl hqs hspared
  exact ⟨by decide +kernel, by decide +kernel, hspared, hsame, hpending⟩

/-- A record that is written over the manifest is followed by its line at the place where the
manifest was. After a flush that was interrupted this is behind the line of the run, and what is
before it is zero bytes. -/
theorem resumed_flush_shifts :
    let y := serve flagOnly
      [.openRun ⟨"out", "cfg.yaml", "abc", 1⟩ false,
        .record ⟨"manifest.jsonl", 0, [], some (.raw [])⟩] ({}, {})
    let single := serve flagOnly [.flush false] y
    let resumed := serve flagOnly [.flush true, .flush false] y
    y.1.pending.length = 1 ∧ single.1.pending.isEmpty ∧ resumed.1.pending.isEmpty ∧
      resumed.1.tree.readFile? resumed.1.manifestPath ≠
        single.1.tree.readFile? single.1.manifestPath := by
  decide +kernel

end RunDirectory

end ClusterEvidence
