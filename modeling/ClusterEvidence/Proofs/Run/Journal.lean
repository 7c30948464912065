import ClusterEvidence.Proofs.Run.Flush
import ClusterEvidence.Proofs.Run.Name

/-!
# The journal of a recorder

A recorder is asked to open, record, flush and close in any order, and between two calls
the surroundings may move and the files may change (`Request`). A `Journal` beside it keeps
what the recorder forgets : the records accepted since it was opened last, the flushes
since then, and what was in the queue when it was closed.

`Consistent` ties the two together, and every request keeps it (`Request.serve_consistent`).
So the queue and the names of a recorder say what they should after any requests
(`serve_invariants`). The records that were accepted are those that flushes tried, each
once and in order, then those in the queue, as long as the run is open. Closing gives the
queue up with a warning, so afterwards the records that were dropped stand in its place.
-/

namespace ClusterEvidence

variable {ε : Type}

/-- The record that is in the queue. -/
def Queued.record (q : Queued ε) : Record ε := ⟨q.name, q.captured, q.fingerprint, some q.content⟩

namespace RunDirectory

/-- What a recorder can be asked to do, with the surroundings it is asked in, and what may
happen to its files without it. -/
inductive Request (ε : Type)
  | openRun (run : RunInfo) (e : ε)
  | record (r : Record ε)
  | flush (e : ε)
  | close (e : ε)
  | meanwhile (t : FileTree)

/-- What happened since a recorder was opened last : the records it accepted, how far each
flush came and what it answered, and the records that closing dropped. -/
structure Journal (ε : Type) where
  accepted : List (Queued ε) := []
  flushes : List (Flushed ε × Status) := []
  dropped : List (Queued ε) := []

/-- The records that flushes tried, in order, each with the status of its writing. -/
def Journal.tried (j : Journal ε) : List (Queued ε × Status) := j.flushes.flatMap fun f => f.1.tried

/-- A request is served, and noted. -/
def Request.serve (env : Surroundings ε) :
    Request ε → RunDirectory ε × Journal ε → RunDirectory ε × Journal ε
  | .openRun run e, (d, _) => ((d.openRun env run e).1.2, {})
  | .record r, (d, j) =>
    ((d.record r).2, { j with accepted := j.accepted ++ (d.accept r).toOption.toList })
  | .flush e, (d, j) =>
    ((d.flush env e).1.2,
      { j with flushes := j.flushes ++ [(d.attempt env e, (d.flush env e).1.1)] })
  | .close e, (d, j) => ((d.close env e).1, { j with dropped := j.dropped ++ d.pending })
  | .meanwhile t, (d, j) => ({ d with tree := t }, j)

/-- Requests are served in order. -/
def serve (env : Surroundings ε) (l : List (Request ε)) (x : RunDirectory ε × Journal ε) :
    RunDirectory ε × Journal ε :=
  l.foldl (fun x q => q.serve env x) x

theorem serve_concat (env : Surroundings ε) (l : List (Request ε)) (q : Request ε)
    (x : RunDirectory ε × Journal ε) : serve env (l ++ [q]) x = q.serve env (serve env l x) := by
  rw [serve, List.foldl_append]
  rfl

/-! ## The invariant -/

/-- The recorder is in a state that fits the journal. -/
structure Consistent (d : RunDirectory ε) (j : Journal ε) : Prop where
  idle : d.isOpen = false → d.pending = [] ∧ d.names = []
  names : d.isOpen = true → d.names = (j.accepted.map Queued.name).reverse
  distinct : (j.accepted.map Queued.name).Nodup
  safe : ∀ q ∈ j.accepted, RecordName.Safe q.name
  order : j.accepted = j.tried.map Prod.fst ++ (j.dropped ++ d.pending)
  kept : d.isOpen = true → j.dropped = []

variable {env : Surroundings ε} {d d' : RunDirectory ε} {j : Journal ε}

/-- Nothing has happened to a recorder without a queue and without names. -/
theorem consistent_start (hpending : d.pending = []) (hnames : d.names = []) :
    Consistent d {} where
  idle := fun _ => ⟨hpending, hnames⟩
  names := fun _ => hnames
  distinct := .nil
  safe := by simp
  order := hpending.symm
  kept := fun _ => rfl

/-- Closing writes what is left of the manifest and forgets the run. -/
theorem close_eq (d : RunDirectory ε) (e : ε) :
    (d.close env e).1 = { d.flushManifest with manifest := none, pending := [], names := [] } := by
  show ((if !d.pending.isEmpty then _ else _ : StateM ε _) e).1 = _
  split
  · rfl
  · rfl

theorem begin_queue (run : RunInfo) (d : RunDirectory ε) :
    (d.begin run).2.pending = d.pending ∧ (d.begin run).2.names = d.names := by
  unfold begin
  dsimp only
  split
  · exact ⟨rfl, rfl⟩
  · split
    · exact ⟨rfl, rfl⟩
    · have h := sameRun_writeLine (ε := ε) (Manifest.header run)
      exact ⟨(h _).pending, (h _).names⟩

/-- Opening starts a run after the one before was closed. -/
theorem openRun_run (run : RunInfo) (d : RunDirectory ε) (e : ε) :
    (d.openRun env run e).1 = ((d.close env e).1.begin run) :=
  rfl

variable (env) in
/-- A run starts with nothing, whatever was before it. -/
theorem consistent_openRun (run : RunInfo) (d : RunDirectory ε) (e : ε) :
    Consistent (d.openRun env run e).1.2 {} := by
  obtain ⟨hpending, hnames⟩ := begin_queue run (d.close env e).1
  exact consistent_start (hpending.trans (by rw [close_eq])) (hnames.trans (by rw [close_eq]))

/-! ## Accepting -/

/-- A record is accepted if the run is open, and it has a content and a safe name that no
record before it has. -/
theorem accept_ok_iff (r : Record ε) (q : Queued ε) :
    d.accept r = .ok q ↔ d.isOpen = true ∧ RecordName.Safe r.name ∧ r.name ∉ d.names ∧
      r = q.record := by
  obtain ⟨name, captured, fingerprint, item⟩ := r
  obtain ⟨name', captured', fingerprint', content⟩ := q
  rw [← RecordName.isSafe_iff, Queued.record, Record.mk.injEq]
  cases item with
  | none =>
    simp only [accept, reduceCtorEq, and_false, iff_false]
    split
    · simp
    · simp
  | some c =>
    simp only [accept, List.contains_iff_mem]
    constructor
    · intro h
      split at h
      · cases h
      · split at h
        · cases h
        · split at h
          · cases h
          · simp_all
    · rintro ⟨hopen, hsafe, hfresh, rfl, rfl, rfl, hc⟩
      obtain rfl : c = content := Option.some.inj hc
      rw [if_neg (by simp [hopen]), if_neg (by simp [hsafe]), if_neg hfresh]

/-- A record that is accepted is queued. -/
theorem record_of_ok {r : Record ε} {q : Queued ε} (h : d.accept r = .ok q) :
    d.record r = (.ok, { d with pending := d.pending ++ [q], names := r.name :: d.names }) := by
  rw [record, h]

theorem record_of_error {r : Record ε} {why : Refusal} (h : d.accept r = .error why) :
    d.record r = (⟨.invalidArgument, why.message⟩, d) := by
  rw [record, h]

/-! ## Requests -/

theorem Journal.tried_flush (j : Journal ε) (f : Flushed ε × Status) :
    ({ j with flushes := j.flushes ++ [f] } : Journal ε).tried = j.tried ++ f.1.tried := by
  simp [Journal.tried]

/-- A record keeps the journal and the queue in step. -/
theorem record_consistent (h : Consistent d j) (r : Record ε) :
    Consistent (d.record r).2
      { j with accepted := j.accepted ++ (d.accept r).toOption.toList } := by
  cases hr : d.accept r with
  | error why =>
    rw [record_of_error hr]
    simp only [Except.toOption, Option.toList_none, List.append_nil]
    exact h
  | ok q =>
    rw [record_of_ok hr]
    obtain ⟨hopen, hsafe, hfresh, rfl⟩ := (accept_ok_iff r q).1 hr
    have hfresh : q.name ∉ j.accepted.map Queued.name := by
      rwa [h.names hopen, List.mem_reverse] at hfresh
    refine ⟨fun hclosed => ?_, fun _ => ?_, ?_, ?_, ?_, h.kept⟩
    · exact absurd (hopen.symm.trans hclosed) (by decide)
    · simp [Except.toOption, h.names hopen, Queued.record]
    · simp only [Except.toOption, Option.toList_some, List.map_append, List.map_cons, List.map_nil]
      exact List.nodup_append.2 ⟨h.distinct, by simp, fun n hn m hm heq => by
        rw [List.mem_singleton] at hm
        exact hfresh (hm ▸ heq ▸ hn)⟩
    · simp only [Except.toOption, Option.toList_some, List.mem_append, List.mem_singleton]
      rintro q' (hq' | rfl)
      · exact h.safe q' hq'
      · exact hsafe
    · show j.accepted ++ [q] = j.tried.map Prod.fst ++ (j.dropped ++ (d.pending ++ [q]))
      rw [h.order, List.append_assoc, List.append_assoc]

theorem flush_consistent (h : Consistent d j) (e : ε) :
    Consistent (d.flush env e).1.2
      { j with flushes := j.flushes ++ [(d.attempt env e, (d.flush env e).1.1)] } := by
  have hsplit := attempt_split env d e
  cases hopen : d.isOpen with
  | false =>
    have hpending := (h.idle hopen).1
    rw [hpending, List.append_eq_nil_iff] at hsplit
    rw [flush_closed hopen]
    refine ⟨h.idle, h.names, h.distinct, h.safe, ?_, h.kept⟩
    rw [Journal.tried_flush, List.map_append, hsplit.1, List.append_nil]
    exact h.order
  | true =>
    have hsame := (sameRun_flushQueue env d.pending d e).trans (sameRun_flushManifest _)
    rw [attempt, if_pos hopen] at hsplit ⊢
    rw [flush_open hopen]
    refine ⟨fun hclosed => ?_, fun _ => ?_, h.distinct, h.safe, ?_, fun _ => h.kept hopen⟩
    · exact absurd (hclosed.symm.trans (hsame.isOpen.trans hopen)) (by decide)
    · exact hsame.names.trans (h.names hopen)
    · rw [Journal.tried_flush, List.map_append, List.append_assoc]
      have horder := h.order
      rw [h.kept hopen, List.nil_append, ← hsplit] at horder
      show j.accepted = _
      rw [horder, h.kept hopen, List.nil_append]

theorem close_consistent (h : Consistent d j) (e : ε) :
    Consistent (d.close env e).1 { j with dropped := j.dropped ++ d.pending } := by
  rw [close_eq]
  refine ⟨fun _ => ⟨rfl, rfl⟩, fun hopen => ?_, h.distinct, h.safe, ?_, fun hopen => ?_⟩
  · exact absurd hopen (by simp [isOpen])
  · show j.accepted = _
    rw [List.append_nil]
    exact h.order
  · exact absurd hopen (by simp [isOpen])

/-- Every request keeps the recorder in a state that fits the journal. -/
theorem Request.serve_consistent (q : Request ε) (h : Consistent d j) :
    Consistent (q.serve env (d, j)).1 (q.serve env (d, j)).2 := by
  cases q with
  | openRun run e => exact consistent_openRun env run d e
  | record r => exact record_consistent h r
  | flush e => exact flush_consistent h e
  | close e => exact close_consistent h e
  | meanwhile t => exact ⟨h.idle, h.names, h.distinct, h.safe, h.order, h.kept⟩

/-- So does any history of requests. -/
theorem consistent_serve (l : List (Request ε)) (h : Consistent d j) :
    Consistent (serve env l (d, j)).1 (serve env l (d, j)).2 := by
  induction l generalizing d j with
  | nil => exact h
  | cons q l ih => exact ih (q.serve_consistent h)

/-- What is in the queue was in it before, or is what was added. -/
theorem Request.mem_pending (request : Request ε) {x : RunDirectory ε × Journal ε} {q : Queued ε}
    (hq : q ∈ (request.serve env x).1.pending) :
    q ∈ x.1.pending ∨ request = .record q.record := by
  obtain ⟨d, j⟩ := x
  cases request with
  | openRun run e =>
    have hempty : (Request.serve env (.openRun run e) (d, j)).1.pending = [] :=
      (begin_queue run (d.close env e).1).1.trans (by rw [close_eq])
    rw [hempty] at hq
    cases hq
  | record r =>
    change q ∈ (d.record r).2.pending at hq
    cases hr : d.accept r with
    | error why =>
      rw [record_of_error hr] at hq
      exact .inl hq
    | ok q' =>
      rw [record_of_ok hr] at hq
      obtain ⟨-, -, -, rfl⟩ := (accept_ok_iff r q').1 hr
      rcases List.mem_append.1 hq with hq | hq
      · exact .inl hq
      · obtain rfl := List.mem_singleton.1 hq
        exact .inr rfl
  | flush e => exact .inl (mem_pending_of_flush hq)
  | close e =>
    change q ∈ (d.close env e).1.pending at hq
    rw [close_eq] at hq
    cases hq
  | meanwhile t => exact .inl hq

/-- Whatever is queued was asked for. -/
theorem mem_pending_of_serve (l : List (Request ε)) {x : RunDirectory ε × Journal ε}
    {q : Queued ε} (hq : q ∈ (serve env l x).1.pending) :
    q ∈ x.1.pending ∨ .record q.record ∈ l := by
  induction l generalizing x with
  | nil => exact .inl hq
  | cons request l ih =>
    rcases ih hq with hq | hq
    · rcases request.mem_pending hq with hq | rfl
      · exact .inl hq
      · exact .inr List.mem_cons_self
    · exact .inr (List.mem_cons_of_mem _ hq)

/-! ## What the queue and the names say -/

/-- A record is accepted if a run is open and its content, its name and no namesake are there. -/
theorem record_ok_iff (r : Record ε) :
    (d.record r).1.isOk = true ↔ d.isOpen = true ∧ r.item.isSome = true ∧
      RecordName.Safe r.name ∧ r.name ∉ d.names := by
  constructor
  · intro hok
    cases hr : d.accept r with
    | error why =>
      rw [record_of_error hr] at hok
      exact absurd hok Bool.false_ne_true
    | ok q =>
      obtain ⟨hopen, hsafe, hfresh, rfl⟩ := (accept_ok_iff r q).1 hr
      exact ⟨hopen, rfl, hsafe, hfresh⟩
  · rintro ⟨hopen, hitem, hsafe, hfresh⟩
    obtain ⟨c, hc⟩ := Option.isSome_iff_exists.1 hitem
    have hr : d.accept r = .ok ⟨r.name, r.captured, r.fingerprint, c⟩ :=
      (accept_ok_iff r _).2 ⟨hopen, hsafe, hfresh, by rw [Queued.record, ← hc]⟩
    rw [record_of_ok hr]
    rfl

/-- The namesakes are those that were accepted in the run. -/
theorem record_isOk_iff (h : Consistent d j) (r : Record ε) :
    (d.record r).1.isOk = true ↔ d.isOpen = true ∧ r.item.isSome = true ∧
      RecordName.Safe r.name ∧ r.name ∉ j.accepted.map Queued.name := by
  rw [record_ok_iff]
  refine and_congr_right fun hopen => ?_
  rw [h.names hopen, List.mem_reverse]

/-- A record that is refused leaves the recorder as it is. -/
theorem record_refused {r : Record ε} (h : (d.record r).1.isOk = false) : (d.record r).2 = d := by
  cases hr : d.accept r with
  | error why => rw [record_of_error hr]
  | ok q =>
    rw [record_of_ok hr] at h
    exact absurd h.symm Bool.false_ne_true

variable (env) in
/-- After any requests, a recorder that is not open has no queue and no names; the queued
names differ, are safe and are among the names; a record is accepted just when it should
be, and a refused one changes nothing; and the accepted records are, in order, those that
flushes tried, then those in the queue, or those that closing dropped from it. -/
theorem serve_invariants (keepLast : Nat) (tree : FileTree) (l : List (Request ε)) :
    let x := serve env l ({ keepLast := keepLast, tree := tree }, {})
    let d := x.1
    let j := x.2
    (d.isOpen = false → d.pending = [] ∧ d.names = []) ∧
      ((d.pending.map Queued.name).Nodup ∧
        ∀ q ∈ d.pending, RecordName.Safe q.name ∧ q.name ∈ d.names) ∧
      (∀ r, ((d.record r).1.isOk = true ↔ d.isOpen = true ∧ r.item.isSome = true ∧
          RecordName.Safe r.name ∧ r.name ∉ j.accepted.map Queued.name) ∧
        ((d.record r).1.isOk = false → (d.record r).2 = d)) ∧
      (j.accepted.map Queued.name).Nodup ∧
      (d.isOpen = true → j.accepted = j.tried.map Prod.fst ++ d.pending) ∧
      (d.isOpen = false → j.accepted = j.tried.map Prod.fst ++ j.dropped) := by
  intro x d j
  have h : Consistent d j := consistent_serve l (consistent_start rfl rfl)
  have hqueued : ∀ q ∈ d.pending, q ∈ j.accepted := fun q hq => by
    rw [h.order]
    exact List.mem_append_right _ (List.mem_append_right _ hq)
  have hsub : (d.pending.map Queued.name).Sublist (j.accepted.map Queued.name) := by
    rw [h.order, ← List.append_assoc]
    exact (List.sublist_append_right _ _).map _
  refine ⟨h.idle, ⟨h.distinct.sublist hsub, fun q hq => ⟨h.safe q (hqueued q hq), ?_⟩⟩,
    fun r => ⟨record_isOk_iff h r, record_refused⟩, h.distinct, fun hopen => ?_, fun hclosed => ?_⟩
  · cases hopen : d.isOpen with
    | true =>
      rw [h.names hopen, List.mem_reverse]
      exact List.mem_map_of_mem (hqueued q hq)
    | false =>
      rw [(h.idle hopen).1] at hq
      exact absurd hq (by simp)
  · have horder := h.order
    rwa [h.kept hopen, List.nil_append] at horder
  · have horder := h.order
    rwa [(h.idle hclosed).1, List.append_nil] at horder

/-- Surroundings where nothing happens. -/
def quiet : Surroundings Unit where
  cancelled := pure false
  note := fun _ _ => pure ()
  wallClock := pure 0
  stopwatch := pure 0

/-- A record that was accepted and not flushed is neither tried nor queued once the run is
closed. -/
theorem closing_forgets :
    let x := serve quiet
      [.openRun ⟨"out", "cfg.yaml", "abc", 1⟩ (), .record ⟨"a", 0, [], some (.raw "x")⟩, .close ()]
      ({}, {})
    x.2.accepted ≠ x.2.tried.map Prod.fst ++ x.1.pending :=
  fun h => absurd (congrArg (List.map Queued.name) h) (by decide +kernel)

end RunDirectory

end ClusterEvidence
