import ClusterEvidence.Proofs.Run.Disk
import ClusterEvidence.Proofs.Run.Journal
import Mathlib.Data.List.Nodup
import Mathlib.Data.List.Pairwise

/-!
# Where the accepted records are

A run is opened, and records are added and flushed in any order. After a flush, every record
that was accepted is written, waits in the queue, or is named in the status of the flush
that tried it, and only one of these holds, unless it failed in a flush that was
interrupted (`accounted_iff_not_lost`). Such a flush takes the record out of the queue and
answers with the bare status of interrupted work, so nobody learns that the record is gone
(`interrupted_flush_loses`).

All this is said of runs that write no record over their manifest : one that does may lose
the lines of others (`overwriting_loses`).
-/

namespace ClusterEvidence

namespace RunDirectory

variable {ε : Type} {env : Surroundings ε} {t₀ : FileTree} {run : RunInfo} {d : RunDirectory ε}
  {j : Journal ε}

/-! ## Where a record can be -/

/-- Its file exists, and a line of the manifest is its. -/
def Written (d : RunDirectory ε) (q : Queued ε) : Prop :=
  (d.tree.readFile? (d.filePath q)).isSome ∧
    ∃ text bytes, d.tree.readFile? d.manifestPath = some text ∧
      line (q, bytes) ∈ Bytes.pieces 0x0a text

/-- It is in the queue. -/
def Waiting (d : RunDirectory ε) (q : Queued ε) : Prop := q.name ∈ d.pending.map Queued.name

/-- It could not be written, and the status of the flush that tried it says so. -/
def Reported (j : Journal ε) (q : Queued ε) : Prop :=
  ∃ f ∈ j.flushes, ∃ why, (q, why) ∈ f.1.tried ∧ why.isOk = false ∧
    unwritten q why ∈ f.1.errors ∧ f.2 = ⟨.ioError, Bytes.join ", " f.1.errors⟩

/-- It could not be written, and the flush that tried it was interrupted. -/
def Lost (j : Journal ε) (q : Queued ε) : Prop :=
  ∃ f ∈ j.flushes, ∃ why, (q, why) ∈ f.1.tried ∧ why.isOk = false ∧ f.2 = .interrupted

/-- One of three holds, and no other. -/
def OneOf (a b c : Prop) : Prop := (a ∧ ¬b ∧ ¬c) ∨ (¬a ∧ b ∧ ¬c) ∨ (¬a ∧ ¬b ∧ c)

/-! ## Tried once -/

/-- No name is tried twice. -/
theorem Consistent.tried_nodup (h : Consistent d j) :
    (j.tried.map fun x => x.1.name).Nodup := by
  have hdistinct := h.distinct
  rw [h.order, List.map_append, List.map_map] at hdistinct
  exact hdistinct.of_append_left

/-- No two flushes try records of one name, and no flush tries two. -/
theorem Consistent.tried_unique (h : Consistent d j) {f f' : Flushed ε × Status}
    (hf : f ∈ j.flushes) (hf' : f' ∈ j.flushes) {x x' : Queued ε × Status} (hx : x ∈ f.1.tried)
    (hx' : x' ∈ f'.1.tried) (hname : x.1.name = x'.1.name) : f = f' ∧ x = x' := by
  have hnodup := h.tried_nodup
  have hmem : ∀ f ∈ j.flushes, ∀ x ∈ f.1.tried, x ∈ j.tried := fun f hf x hx =>
    List.mem_flatMap.2 ⟨f, hf, hx⟩
  have heq := List.inj_on_of_nodup_map hnodup (hmem f hf x hx) (hmem f' hf' x' hx') hname
  refine ⟨?_, heq⟩
  by_contra hne
  rw [Journal.tried, List.map_flatMap, List.nodup_flatMap] at hnodup
  have hsymm : Std.Symm (Function.onFun List.Disjoint fun f : Flushed ε × Status =>
    f.1.tried.map fun x => x.1.name) := ⟨fun _ _ h _ hx hx' => h hx' hx⟩
  exact hnodup.2.forall hf hf' hne (List.mem_map_of_mem hx) (hname ▸ List.mem_map_of_mem hx')

/-- What is in the queue was not tried. -/
theorem Consistent.not_tried_of_waiting (h : Consistent d j) {q : Queued ε} (hq : Waiting d q)
    {x : Queued ε × Status} (hx : x ∈ j.tried) : x.1.name ≠ q.name := by
  have hdistinct := h.distinct
  rw [h.order, List.map_append, List.map_append, ← List.append_assoc,
    List.nodup_append] at hdistinct
  refine hdistinct.2.2 _ (List.mem_append_left _ ?_) _ hq
  exact List.mem_map.2 ⟨x.1, List.mem_map_of_mem hx, rfl⟩

/-! ## One run -/

/-- The request adds a record or flushes. -/
def Request.InRun : Request ε → Prop
  | .record _ => True
  | .flush _ => True
  | _ => False

/-- The contents that are added say so when they cannot be marshalled. -/
def Request.Sound : Request ε → Prop
  | .record r => ∀ c, r.item = some c → c.Sound
  | _ => True

/-- An open run with its journal : what could be written is on disk, and every flush was
interrupted or reported what it came to. -/
structure Running (t₀ : FileTree) (run : RunInfo) (d : RunDirectory ε) (j : Journal ε) : Prop where
  isOpen : d.isOpen = true
  consistent : Consistent d j
  onDisk : ∃ W, OnDisk t₀ run d W ∧ W.map Prod.fst = written j.tried
  sound : ∀ q ∈ d.pending, q.content.Sound
  answered : ∀ f ∈ j.flushes, f.2 = .interrupted ∨ f.2 = f.1.status

/-- A record that is handed over while a run is open keeps the account. -/
theorem running_record (h : Running t₀ run d j) {r : Record ε} (hr : (Request.record r).Sound) :
    Running t₀ run (d.record r).2
      { j with accepted := j.accepted ++ (d.accept r).toOption.toList } := by
  have hconsistent := record_consistent h.consistent r
  cases hq : d.accept r with
  | error why =>
    rw [record_of_error hq, hq] at hconsistent
    rw [record_of_error hq]
    exact ⟨h.isOpen, hconsistent, h.onDisk, h.sound, h.answered⟩
  | ok q =>
    rw [record_of_ok hq, hq] at hconsistent
    rw [record_of_ok hq]
    obtain ⟨W, hdisk, hwritten⟩ := h.onDisk
    refine ⟨h.isOpen, hconsistent, ⟨W, hdisk.queue _ _, hwritten⟩,
      fun q' hq' => ?_, h.answered⟩
    rcases List.mem_append.1 hq' with hq' | hq'
    · exact h.sound q' hq'
    · obtain rfl := List.mem_singleton.1 hq'
      obtain ⟨-, -, -, rfl⟩ := (accept_ok_iff r q').1 hq
      exact hr q'.content rfl

/-- A flush of an open run, after which the manifest is in its file. -/
theorem running_flush (h : Running t₀ run d j) (e : ε) :
    let d' := (d.flush env e).1.2
    let j' := { j with flushes := j.flushes ++ [(d.attempt env e, (d.flush env e).1.1)] }
    Running t₀ run d' j' ∧ (d'.Spared (written j'.tried) →
      ∃ W, OnDisk t₀ run d' W ∧ W.map Prod.fst = written j'.tried ∧
        d'.tree.readFile? d'.manifestPath = some (manifestText run W)) := by
  intro d' j'
  have hconsistent : Consistent d' j' := flush_consistent h.consistent e
  obtain ⟨W, hdisk, hwritten⟩ := h.onDisk
  obtain ⟨W', hdisk', hwritten', hread⟩ := onDisk_flush env hdisk h.isOpen h.sound e
  have htotal : (W ++ W').map Prod.fst = written j'.tried := by
    rw [List.map_append, hwritten, hwritten', Journal.tried_flush, written_append]
  have hopen : d'.isOpen = true := by
    show ((d.flush env e).1.2).isOpen = true
    rw [flush_open h.isOpen]
    have hsame := (sameRun_flushQueue env d.pending d e).trans (sameRun_flushManifest _)
    exact hsame.isOpen.trans h.isOpen
  refine ⟨⟨hopen, hconsistent, ⟨W ++ W', hdisk', htotal⟩,
    fun q hq => h.sound q (mem_pending_of_flush hq), fun f hf => ?_⟩,
    fun hspared => ⟨W ++ W', hdisk', htotal, hread (htotal ▸ hspared)⟩⟩
  rcases List.mem_append.1 hf with hf | hf
  · exact h.answered f hf
  · obtain rfl := List.mem_singleton.1 hf
    exact flush_status env d e

/-- A run that was opened has accepted and tried nothing yet. -/
theorem running_openRun {e : ε} (h : (d.openRun env run e).1.1.isOk = true) :
    Running (d.close env e).1.tree run (d.openRun env run e).1.2 {} := by
  have hdisk : OnDisk (d.close env e).1.tree run ((d.close env e).1.begin run).2 [] :=
    onDisk_begin h
  have hconsistent := consistent_openRun env run d e
  obtain ⟨m, hm, -⟩ := hdisk.manifest
  refine ⟨?_, hconsistent, ⟨[], hdisk, rfl⟩, fun q hq => ?_, by simp⟩
  · rw [openRun_run, isOpen, hm]
    rfl
  · have hempty : (d.openRun env run e).1.2.pending = [] := hconsistent.order.symm
    rw [hempty] at hq
    cases hq

variable (env) in
/-- Adding records and flushing keeps a run going. -/
theorem running_serve (l : List (Request ε)) (hl : ∀ q ∈ l, q.InRun ∧ q.Sound)
    (h : Running t₀ run d j) : Running t₀ run (serve env l (d, j)).1 (serve env l (d, j)).2 := by
  induction l generalizing d j with
  | nil => exact h
  | cons q l ih =>
    rw [List.forall_mem_cons] at hl
    refine ih hl.2 ?_
    cases q with
    | record r => exact running_record h hl.1.2
    | flush e => exact (running_flush h e).1
    | openRun _ _ => exact hl.1.1.elim
    | close _ => exact hl.1.1.elim
    | meanwhile _ => exact hl.1.1.elim

/-! ## After a flush -/

theorem line_ne_nil (w : Queued ε × Bytes) : line w ≠ [] := by
  obtain ⟨rest, hrest⟩ := Manifest.render_recordLine w.1.name w.1.captured w.1.fingerprint w.2
  rw [line, hrest]
  exact List.cons_ne_nil _ _

/-- A line of a record in the text of a manifest is the line of a record of its name that was
written. -/
theorem exists_of_line_mem {W : List (Queued ε × Bytes)} {w : Queued ε × Bytes}
    (h : line w ∈ Bytes.pieces 0x0a (manifestText run W)) :
    ∃ w' ∈ W, w'.1.name = w.1.name := by
  rw [pieces_manifestText] at h
  rcases List.mem_append.1 h with h | h
  · rcases List.mem_cons.1 h with h | h
    · exact absurd h (Manifest.recordLine_ne_header run _ _ _ _)
    · obtain ⟨w', hw', hline⟩ := List.mem_map.1 h
      exact ⟨w', hw', Manifest.recordLine_inj hline⟩
  · exact absurd (List.mem_singleton.1 h) (line_ne_nil w)

/-- What holds after a flush : the manifest in its file has the lines of all records that
could be written. -/
structure Settled (t₀ : FileTree) (run : RunInfo) (d : RunDirectory ε) (j : Journal ε) :
    Prop extends Running t₀ run d j where
  readable : ∃ W, OnDisk t₀ run d W ∧ W.map Prod.fst = written j.tried ∧
    d.tree.readFile? d.manifestPath = some (manifestText run W)

/-- The records that are written are those that could be written when they were tried. -/
theorem written_iff (h : Settled t₀ run d j) {q : Queued ε} (hq : q ∈ j.accepted) :
    Written d q ↔ ∃ why, (q, why) ∈ j.tried ∧ why.isOk = true := by
  obtain ⟨W, hdisk, hwritten, hread⟩ := h.readable
  have hmem : ∀ q, q ∈ W.map Prod.fst ↔ ∃ why, (q, why) ∈ j.tried ∧ why.isOk = true := by
    intro q
    rw [hwritten, written, List.mem_map]
    simp only [List.mem_filter, Prod.exists, exists_and_right, exists_eq_right]
  constructor
  · rintro ⟨-, text, bytes, htext, hline⟩
    obtain rfl := Option.some.inj (hread.symm.trans htext)
    obtain ⟨w, hw, hname⟩ := exists_of_line_mem hline
    have hw' := List.mem_map_of_mem (f := Prod.fst) hw
    obtain ⟨why, htried, hok⟩ := (hmem w.1).1 hw'
    have haccepted : w.1 ∈ j.accepted := by
      rw [h.consistent.order]
      exact List.mem_append_left _ (List.mem_map_of_mem htried)
    have heq := List.inj_on_of_nodup_map h.consistent.distinct haccepted hq hname
    exact ⟨why, heq ▸ htried, hok⟩
  · intro htried
    obtain ⟨w, hw, rfl⟩ := List.mem_map.1 ((hmem q).2 htried)
    have hplaced := List.mem_map_of_mem (f := fun w => (d.filePath w.1, w.2)) hw
    obtain ⟨s, hfile, -⟩ := hdisk.placed.files _ hplaced
    refine ⟨?_, manifestText run W, w.2, hread, ?_⟩
    · rw [FileTree.readFile?_of_at? (hdisk.placed.reached _ hplaced) hfile]
      rfl
    · rw [pieces_manifestText]
      exact List.mem_append_left _ (List.mem_cons_of_mem _ (List.mem_map_of_mem (f := line) hw))

/-- A record that failed in a flush that was not interrupted is reported. -/
theorem mem_errors {f : Flushed ε} {q : Queued ε} {why : Status} (h : (q, why) ∈ f.tried)
    (hwhy : why.isOk = false) :
    unwritten q why ∈ f.errors ∧ f.status = ⟨.ioError, Bytes.join ", " f.errors⟩ := by
  have hmem : unwritten q why ∈ f.errors :=
    List.mem_map.2 ⟨(q, why), List.mem_filter.2 ⟨h, by rw [hwhy]; rfl⟩, rfl⟩
  refine ⟨hmem, ?_⟩
  rw [Flushed.status, if_neg]
  rw [List.isEmpty_iff]
  exact List.ne_nil_of_mem hmem

/-- What is said of some flush that tried a record is said of the one that did. -/
theorem Consistent.exists_tried_iff (h : Consistent d j) {f : Flushed ε × Status}
    (hf : f ∈ j.flushes) {q : Queued ε} {why : Status} (hx : (q, why) ∈ f.1.tried)
    {P : Flushed ε × Status → Status → Prop} :
    (∃ f' ∈ j.flushes, ∃ why', (q, why') ∈ f'.1.tried ∧ P f' why') ↔ P f why := by
  refine ⟨?_, fun hp => ⟨f, hf, why, hx, hp⟩⟩
  rintro ⟨f', hf', why', hx', hp⟩
  obtain ⟨rfl, heq⟩ := h.tried_unique hf' hf hx' hx rfl
  obtain rfl : why' = why := congrArg Prod.snd heq
  exact hp

/-- A record that was tried is in one place only, unless it was lost. -/
theorem oneOf_iff_of_tried (h : Settled t₀ run d j) {q : Queued ε} (hq : q ∈ j.accepted)
    {f : Flushed ε × Status} (hf : f ∈ j.flushes) {why : Status} (hx : (q, why) ∈ f.1.tried) :
    OneOf (Written d q) (Waiting d q) (Reported j q) ↔ ¬ Lost j q := by
  have hmem : (q, why) ∈ j.tried := List.mem_flatMap.2 ⟨f, hf, hx⟩
  have hwaiting : ¬ Waiting d q := fun hw => h.consistent.not_tried_of_waiting hw hmem rfl
  have hwritten : Written d q ↔ why.isOk = true := by
    rw [written_iff h hq, ← h.consistent.exists_tried_iff hf hx (P := fun _ why => why.isOk = true)]
    constructor
    · rintro ⟨why', hx', hok⟩
      obtain ⟨f', hf', hx'⟩ := List.mem_flatMap.1 hx'
      exact ⟨f', hf', why', hx', hok⟩
    · rintro ⟨f', hf', why', hx', hok⟩
      exact ⟨why', List.mem_flatMap.2 ⟨f', hf', hx'⟩, hok⟩
  have hreported : Reported j q ↔ why.isOk = false ∧ f.2 ≠ .interrupted := by
    rw [Reported, h.consistent.exists_tried_iff hf hx]
    constructor
    · rintro ⟨hwhy, -, hreport⟩
      refine ⟨hwhy, ?_⟩
      rw [hreport]
      rintro ⟨⟩
    · rintro ⟨hwhy, hanswer⟩
      obtain ⟨herror, hstatus⟩ := mem_errors hx hwhy
      exact ⟨hwhy, herror, ((h.answered f hf).resolve_left hanswer).trans hstatus⟩
  have hlost : Lost j q ↔ why.isOk = false ∧ f.2 = .interrupted :=
    h.consistent.exists_tried_iff hf hx
  rw [OneOf, hwritten, hreported, hlost]
  cases why.isOk with
  | true => simp [hwaiting]
  | false => simp [hwaiting]

/-- A record in the queue is nowhere else. -/
theorem oneOf_of_waiting (h : Settled t₀ run d j) {q : Queued ε} (hq : q ∈ j.accepted)
    (hwaiting : Waiting d q) :
    OneOf (Written d q) (Waiting d q) (Reported j q) ∧ ¬ Lost j q := by
  have hnot : ∀ f ∈ j.flushes, ∀ why, (q, why) ∉ f.1.tried := fun f hf why hx =>
    h.consistent.not_tried_of_waiting hwaiting (List.mem_flatMap.2 ⟨f, hf, hx⟩) rfl
  refine ⟨.inr (.inl ⟨?_, hwaiting, fun ⟨f, hf, why, hx, _⟩ => hnot f hf why hx⟩),
    fun ⟨f, hf, why, hx, _⟩ => hnot f hf why hx⟩
  rw [written_iff h hq]
  rintro ⟨why, hx, -⟩
  obtain ⟨f, hf, hx⟩ := List.mem_flatMap.1 hx
  exact hnot f hf why hx

/-- Every accepted record is in one place only, unless it was lost. -/
theorem oneOf_iff_not_lost (h : Settled t₀ run d j) {q : Queued ε} (hq : q ∈ j.accepted) :
    OneOf (Written d q) (Waiting d q) (Reported j q) ↔ ¬ Lost j q := by
  have hcases := hq
  rw [h.consistent.order, h.consistent.kept h.isOpen, List.nil_append, List.mem_append] at hcases
  rcases hcases with htried | hpending
  · obtain ⟨⟨q', why⟩, hx, rfl⟩ := List.mem_map.1 htried
    obtain ⟨f, hf, hx⟩ := List.mem_flatMap.1 hx
    exact oneOf_iff_of_tried h hq hf hx
  · obtain ⟨hone, hlost⟩ := oneOf_of_waiting h hq (List.mem_map_of_mem hpending)
    exact iff_of_true hone hlost

variable (env) in
/-- In a run that was opened and that writes no record over its manifest, after any records
and flushes and one flush more, every accepted record is written, or waits, or is reported
by the flush that tried it, and only one of these, just when it did not fail in a flush that
was interrupted. -/
theorem accounted_iff_not_lost (x : RunDirectory ε × Journal ε) (run : RunInfo) (e : ε)
    (hopen : (x.1.openRun env run e).1.1.isOk = true) (l : List (Request ε))
    (hl : ∀ q ∈ l, q.InRun ∧ q.Sound) (e' : ε) :
    let y := serve env (.openRun run e :: l ++ [.flush e']) x
    y.1.Spared (written y.2.tried) → ∀ q ∈ y.2.accepted,
      (OneOf (Written y.1 q) (Waiting y.1 q) (Reported y.2 q) ↔ ¬ Lost y.2 q) := by
  intro y hspared q hq
  have hrunning := running_serve env l hl (running_openRun hopen)
  obtain ⟨hflushed, hread⟩ := running_flush hrunning e'
  have hy : y = ((Request.flush e').serve env
      (serve env l ((x.1.openRun env run e).1.2, {}))) := by
    show List.foldl _ _ (.openRun run e :: l ++ [.flush e']) = _
    rw [List.foldl_append]
    rfl
  rw [hy] at hspared hq ⊢
  exact oneOf_iff_not_lost ⟨hflushed, hread hspared⟩ hq

/-! ## Runs of few records -/

/-- Surroundings that are a cancellation flag and nothing else. -/
def flagOnly : Surroundings Bool where
  cancelled := get
  note := fun _ _ => pure ()
  wallClock := pure 0
  stopwatch := pure 0

/-- A record that cannot be marshalled, and that raises the flag on the occasion if told to. -/
def unmarshallable (name : Bytes) (raises : Bool) : Record Bool where
  name := name
  item := some (.custom "json" fun raised => (.error ⟨.internal, "boom"⟩, raised || raises))

theorem unmarshallable_sound (name : Bytes) (raises : Bool) :
    (Request.record (unmarshallable name raises)).Sound := by
  intro c hc e st hst
  obtain rfl := Option.some.inj hc
  obtain rfl := Except.error.inj hst
  rfl

/-- A record that is written, one that fails in a flush that goes on, and one that waits. -/
theorem accounted_three_records :
    let run : RunInfo := ⟨"out", "cfg.yaml", "abc", 1⟩
    let y := serve flagOnly (.openRun run false ::
      [.record ⟨"a", 0, [], some (.raw "x")⟩, .record (unmarshallable "b" false), .flush false,
        .record ⟨"c", 0, [], some (.raw "y")⟩] ++ [.flush true]) ({}, {})
    (({} : RunDirectory Bool).openRun flagOnly run false).1.1.isOk = true ∧
      y.1.Spared (written y.2.tried) ∧ y.2.accepted.length = 3 ∧ ∀ q ∈ y.2.accepted,
        (OneOf (Written y.1 q) (Waiting y.1 q) (Reported y.2 q) ↔ ¬ Lost y.2 q) := by
  intro run y
  have hopen : (({} : RunDirectory Bool).openRun flagOnly run false).1.1.isOk = true := by
    decide +kernel
  have hspared : y.1.Spared (written y.2.tried) := by
    unfold Spared
    decide +kernel
  refine ⟨hopen, hspared, by decide +kernel, ?_⟩
  refine accounted_iff_not_lost flagOnly ({}, {}) run false hopen _ ?_ true hspared
  have hraw : ∀ name s : Bytes,
      (Request.record ⟨name, 0, [], some (.raw s)⟩ : Request Bool).Sound :=
    fun name s c hc => Option.some.inj hc ▸ .of_ok fun e => ⟨s, rfl⟩
  simp only [List.forall_mem_cons]
  exact ⟨⟨trivial, hraw _ _⟩, ⟨trivial, unmarshallable_sound _ _⟩, ⟨trivial, trivial⟩,
    ⟨trivial, hraw _ _⟩, by simp⟩

/-- A record that fails while the flag is raised is out of the queue, is not on disk, and
nobody is told. -/
theorem interrupted_flush_loses :
    let y := serve flagOnly
      [.openRun ⟨"out", "cfg.yaml", "abc", 1⟩ false, .record (unmarshallable "bad" true),
        .flush false] ({}, {})
    ¬ ∀ q ∈ y.2.accepted, OneOf (Written y.1 q) (Waiting y.1 q) (Reported y.2 q) := by
  intro y hall
  have haccepted : y.2.accepted.isEmpty = false := by decide +kernel
  obtain ⟨q, hq⟩ := List.exists_mem_of_ne_nil y.2.accepted (by
    rintro hempty
    rw [hempty] at haccepted
    cases haccepted)
  have hfile : ∀ q ∈ y.2.accepted, y.1.tree.readFile? (y.1.filePath q) = none := by decide +kernel
  have hpending : y.1.pending.map Queued.name = [] := by decide +kernel
  have hstatus : ∀ st ∈ y.2.flushes.map Prod.snd, st = .interrupted := by decide +kernel
  rcases hall q hq with ⟨⟨hwritten, -⟩, -⟩ | ⟨-, hwaiting, -⟩ | ⟨-, -, f, hf, why, -, -, -, hreport⟩
  · rw [hfile q hq] at hwritten
    cases hwritten
  · rw [Waiting, hpending] at hwaiting
    cases hwaiting
  · rw [hstatus f.2 (List.mem_map_of_mem hf)] at hreport
    cases hreport

/-- A record that is written over the manifest takes the line of another with it. -/
theorem overwriting_loses :
    let y := serve flagOnly
      [.openRun ⟨"out", "cfg.yaml", "abc", 1⟩ false, .record ⟨"a", 0, [], some (.raw "x")⟩,
        .flush false, .record ⟨"manifest.jsonl", 0, [], some (.raw [])⟩, .flush false] ({}, {})
    y.2.flushes.map Prod.snd = [.ok, .ok] ∧ y.1.pending.isEmpty ∧
      ((y.1.tree.readFile? y.1.manifestPath).map fun text =>
        (Bytes.pieces 0x0a text).length) = some 2 := by
  decide +kernel

end RunDirectory

end ClusterEvidence
