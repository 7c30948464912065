import ClusterEvidence.Proofs.Batch.Course
import ClusterEvidence.Proofs.Run.Journal
import Mathlib.Data.List.Sort

/-!
# The status of a batch is canonical

Messages are told in three places : by the routines, where a record is refused, and where the report
is (`Told`). They are collected in the order of events, but the verdict on them is a matter of which
messages there are (`verdict_congr`) : a list in strict order has each string once, and there is one
such list of the same strings. So a batch that is not interrupted has the same status in whatever
order its routines run, and whatever the order of the records and errors in each of them
(`collect_canonical`), if the routines produce the same in any order and the recorder answers by
name.
-/

namespace ClusterEvidence

variable {σ ε : Type} {env : Surroundings σ} {record : Record ε → StateM σ Status}

/-! ## The same messages -/

/-- The verdict joins the distinct messages in order. -/
theorem verdict_eq_join (errors : List Bytes) :
    ∃ messages : List Bytes, messages.Pairwise (· < ·) ∧ (∀ m, m ∈ messages ↔ m ∈ errors) ∧
      verdict errors =
        if messages = [] then .ok else ⟨.gatherFailed, Bytes.join ", " messages⟩ := by
  cases errors with
  | nil => exact ⟨[], .nil, fun m => Iff.rfl, rfl⟩
  | cons error errors =>
    obtain ⟨messages, hst, hsorted, hmem⟩ :=
      verdict_of_mem (List.mem_cons_self : error ∈ error :: errors)
    have hne : messages ≠ [] := List.ne_nil_of_mem ((hmem error).2 List.mem_cons_self)
    exact ⟨messages, hsorted, hmem, by rw [hst, if_neg hne]⟩

/-- The verdict on messages that are known in order, each once. -/
theorem verdict_of_pairwise {errors messages : List Bytes} (hsorted : messages.Pairwise (· < ·))
    (hmem : ∀ m, m ∈ messages ↔ m ∈ errors) (hne : messages ≠ []) :
    verdict errors = ⟨.gatherFailed, Bytes.join ", " messages⟩ := by
  obtain ⟨messages', hsorted', hmem', hst⟩ := verdict_eq_join errors
  have hsame : messages' = messages :=
    Bytes.eq_of_pairwise_lt hsorted' hsorted fun m => by rw [hmem, hmem']
  rw [hst, hsame, if_neg hne]

/-- The verdict is a matter of which messages there are. -/
theorem verdict_congr {errors errors' : List Bytes} (h : ∀ m, m ∈ errors ↔ m ∈ errors') :
    verdict errors = verdict errors' := by
  obtain ⟨messages, hsorted, hmem, hst⟩ := verdict_eq_join errors
  obtain ⟨messages', hsorted', hmem', hst'⟩ := verdict_eq_join errors'
  have hsame : messages = messages' :=
    Bytes.eq_of_pairwise_lt hsorted hsorted' fun m => by rw [hmem, hmem', h]
  rw [hst, hst', hsame]

/-- What is told of a batch : the errors of routines, the refused records, and the report if it was
refused. -/
inductive Told (all : List (Ran ε)) (answer : Status) : Bytes → Prop
  | error {x : Ran ε} (hx : x ∈ all) {e : Status} (he : e ∈ x.outcome.errors) :
      Told all answer e.message
  | refused {x : Ran ε} (hx : x ∈ all) {r : Record ε} {st : Status} (h : (r, st) ∈ x.handed)
      (hst : st.isOk = false) :
      Told all answer ("unable to record " ++ r.name ++ ": " ++ st.message)
  | unreported (hanswer : answer.isOk = false) :
      Told all answer ("unable to record io status reports: " ++ answer.message)

/-- What a routine has told : its errors, and the refusals of its records. -/
theorem Ran.mem_messages {x : Ran ε} {m : Bytes} :
    m ∈ x.messages ↔ (∃ e ∈ x.outcome.errors, e.message = m) ∨
      ∃ h ∈ x.handed, h.2.isOk = false ∧
        "unable to record " ++ h.1.name ++ ": " ++ h.2.message = m := by
  simp [Ran.messages, refusals, and_assoc]

/-- What a batch tells is what its routines have, and that the report is refused. -/
theorem told_iff {all : List (Ran ε)} {answer : Status} {m : Bytes} :
    Told all answer m ↔ m ∈ all.flatMap Ran.messages ++ if answer.isOk then []
      else ["unable to record io status reports: " ++ answer.message] := by
  rw [List.mem_append, List.mem_flatMap]
  constructor
  · intro h
    cases h with
    | error hx he => exact .inl ⟨_, hx, Ran.mem_messages.2 (.inl ⟨_, he, rfl⟩)⟩
    | refused hx h hst => exact .inl ⟨_, hx, Ran.mem_messages.2 (.inr ⟨_, h, hst, rfl⟩)⟩
    | unreported hanswer => exact .inr (by simp [hanswer])
  · rintro (⟨x, hx, hm⟩ | hm)
    · rcases Ran.mem_messages.1 hm with ⟨e, he, rfl⟩ | ⟨h, hh, hst, rfl⟩
      · exact .error hx he
      · exact .refused hx hh hst
    · cases hanswer : answer.isOk with
      | true => simp [hanswer] at hm
      | false =>
        obtain rfl : m = _ := by simpa [hanswer] using hm
        exact .unreported hanswer

/-! ## Routines in another order -/

/-- The second routine produces what the first does, in whatever order and in whatever state :
records of the same names, and the same errors. -/
structure Routine.Shuffled (x x' : Routine σ ε) : Prop where
  records : ∀ s s',
    ((x.run s).1.records.map Record.name).Perm ((x'.run s').1.records.map Record.name)
  errors : ∀ s s', (x.run s).1.errors.Perm (x'.run s').1.errors

variable (env record) in
/-- Each routine has its turn in some state. -/
theorem turns_forall₂ (xs : List (Routine σ ε)) (s : σ) :
    List.Forall₂ (fun x t => ∃ s₀, t = (x.turn env record s₀).1) xs (turns env record xs s) := by
  induction xs generalizing s with
  | nil => exact .nil
  | cons x xs ih => exact .cons ⟨s, rfl⟩ (ih _)

variable {answer : Bytes → Status}

/-- A recorder that answers by name refuses the records of some names. -/
theorem refusals_handAll (hrecord : ∀ r s, (record r s).1 = answer r.name) (rs : List (Record ε))
    (s : σ) : refusals (handAll record rs s).1 =
      ((rs.map Record.name).filter fun name => !(answer name).isOk).map fun name =>
        "unable to record " ++ name ++ ": " ++ (answer name).message := by
  induction rs generalizing s with
  | nil => rfl
  | cons r rs ih =>
    rw [handAll, refusals_cons, hrecord, ih, List.map_cons, List.filter_cons]
    cases (answer r.name).isOk with
    | true => rfl
    | false => rfl

/-- A routine that answers in another order tells the same messages, in some order. -/
theorem Routine.Shuffled.messages_perm {x x' : Routine σ ε} (hx : x.Shuffled x')
    (hrecord : ∀ r s, (record r s).1 = answer r.name) (s s' : σ) :
    (x.turn env record s).1.messages.Perm (x'.turn env record s').1.messages := by
  simp only [Routine.turn, Ran.messages, refusals_handAll hrecord]
  exact ((hx.errors _ _).map _).append (((hx.records _ _).filter _).map _)

theorem Routine.Shuffled.symm {x x' : Routine σ ε} (hx : x.Shuffled x') : x'.Shuffled x :=
  ⟨fun s s' => (hx.records s' s).symm, fun s s' => (hx.errors s' s).symm⟩

/-- The routines of the second list are those of the first in another order, each of them
shuffled. -/
def ShuffledBatch (xs xs' : List (Routine σ ε)) : Prop :=
  ∃ ys, xs.Perm ys ∧ List.Forall₂ Routine.Shuffled ys xs'

theorem exists_of_forall₂ {α β : Type} {R : α → β → Prop} {l : List α} {l' : List β}
    (h : List.Forall₂ R l l') {a : α} (ha : a ∈ l) : ∃ b ∈ l', R a b := by
  induction h with
  | nil => cases ha
  | cons hab _ ih =>
    rcases List.mem_cons.1 ha with rfl | ha
    · exact ⟨_, List.mem_cons_self, hab⟩
    · obtain ⟨b, hb, hab⟩ := ih ha
      exact ⟨b, List.mem_cons_of_mem _ hb, hab⟩

variable {xs xs' : List (Routine σ ε)} {m : Bytes}

/-- Every routine of either list is shuffled in the other. -/
theorem ShuffledBatch.exists_shuffled (h : ShuffledBatch xs xs') :
    (∀ x ∈ xs, ∃ x' ∈ xs', x.Shuffled x') ∧ ∀ x' ∈ xs', ∃ x ∈ xs, x'.Shuffled x := by
  obtain ⟨ys, hperm, hshuffled⟩ := h
  refine ⟨fun x hx => exists_of_forall₂ hshuffled (hperm.subset hx), fun x' hx' => ?_⟩
  have hback : List.Forall₂ (fun x' y => x'.Shuffled y) xs' ys :=
    (hshuffled.imp fun _ _ hx => hx.symm).flip
  obtain ⟨y, hy, hxy⟩ := exists_of_forall₂ hback hx'
  exact ⟨y, hperm.symm.subset hy, hxy⟩

/-- What a routine tells is told in whatever turn it is shuffled into. -/
theorem mem_messages_of_shuffled (hrecord : ∀ r s, (record r s).1 = answer r.name)
    (h : ∀ x ∈ xs, ∃ x' ∈ xs', x.Shuffled x') (s s' : σ)
    (hm : m ∈ (turns env record xs s).flatMap Ran.messages) :
    m ∈ (turns env record xs' s').flatMap Ran.messages := by
  obtain ⟨t, ht, hm⟩ := List.mem_flatMap.1 hm
  have hturns : List.Forall₂ (fun t x => ∃ s₀, t = (x.turn env record s₀).1)
      (turns env record xs s) xs := (turns_forall₂ env record xs s).flip
  obtain ⟨x, hx, s₀, rfl⟩ := exists_of_forall₂ hturns ht
  obtain ⟨x', hx', hxx'⟩ := h x hx
  obtain ⟨_, ht', s₁, rfl⟩ := exists_of_forall₂ (turns_forall₂ env record xs' s') hx'
  exact List.mem_flatMap.2 ⟨_, ht', (hxx'.messages_perm hrecord s₀ s₁).mem_iff.1 hm⟩

/-! ## The status -/

variable (env record) in
/-- The status of a batch that is never found interrupted. It joins the distinct messages that were
told, in order, and is OK if there are none. If the recorder answers by name, another batch of the
same routines, in another order and each with its records and errors in another order, ends with
the same status. -/
theorem collect_canonical (ns : Bytes) (xs : List (Routine σ ε)) (s : σ)
    (hlowered : ∀ x ∈ turns env record xs s, x.raised = false) :
    let all := turns env record xs s
    let st := (collect env record ns xs s).1
    ∃ (report : Record ε) (answer : Status),
      batchTrace env record ns xs s = all.flatMap Ran.events ++ [.handed report answer] ∧
        report.name = ns ++ "/gathers" ∧
      (∃ messages : List Bytes, messages.Pairwise (· < ·) ∧
        (∀ m, m ∈ messages ↔ Told all answer m) ∧
        st = if messages = [] then .ok else ⟨.gatherFailed, Bytes.join ", " messages⟩) ∧
      ∀ (byName : Bytes → Status) (xs' : List (Routine σ ε)) (s' : σ),
        (∀ r s, (record r s).1 = byName r.name) → ShuffledBatch xs xs' →
        (∀ x ∈ turns env record xs' s', x.raised = false) →
        (collect env record ns xs' s').1 = st := by
  intro all st
  obtain ⟨entries, -, hlog, hrun⟩ := collect_of_lowered ns hlowered
  refine ⟨_, _, hlog, rfl, ?_, fun byName xs' s' hrecord hshuffled hlowered' => ?_⟩
  · show ∃ messages, _ ∧ _ ∧ (collect env record ns xs s).1 = _
    rw [hrun]
    simp only [told_iff]
    exact verdict_eq_join _
  · obtain ⟨entries', -, -, hrun'⟩ := collect_of_lowered ns hlowered'
    obtain ⟨hthere, hback⟩ := hshuffled.exists_shuffled
    show _ = (collect env record ns xs s).1
    rw [hrun, hrun', hrecord, hrecord]
    refine verdict_congr fun m => ?_
    rw [List.mem_append, List.mem_append]
    exact or_congr_left ⟨mem_messages_of_shuffled hrecord hback s' s,
      mem_messages_of_shuffled hrecord hthere s s'⟩

/-- There is no room for records of these names. -/
def roomFor (full : List Bytes) (name : Bytes) : Status :=
  if full.contains name then ⟨.ioError, "no room"⟩ else .ok

/-- A routine that yields records of these names, and these errors. -/
def yields (name : Bytes) (records : List Bytes) (errors : List Status) : Routine Unit Unit where
  name := name
  run := pure
    { records := records.map fun n => { name := n, item := none }
      errors := errors }

theorem yields_shuffled (name : Bytes) {records records' : List Bytes}
    {errors errors' : List Status}
    (hrecords : records.Perm records') (herrors : errors.Perm errors') :
    (yields name records errors).Shuffled (yields name records' errors') where
  records _ _ := by
    show ((records.map _).map Record.name).Perm ((records'.map _).map Record.name)
    exact (hrecords.map _).map _
  errors _ _ := herrors

/-- Two routines with an error in common and a record that is refused, the other way round. -/
theorem full_batch_shuffled :
    let refused : Status := ⟨.ioError, "refused"⟩
    let timeout : Status := ⟨.ioError, "timeout"⟩
    let record : Record Unit → StateM Unit Status := fun r => pure (roomFor ["pod/b"] r.name)
    let xs := [yields "pods" ["pod/a", "pod/b"] [timeout, refused], yields "nodes" [] [timeout]]
    let xs' := [yields "nodes" [] [timeout], yields "pods" ["pod/b", "pod/a"] [refused, timeout]]
    (∀ x ∈ turns RunDirectory.quiet record xs (), x.raised = false) ∧
      (collect RunDirectory.quiet record "evidence" xs' ()).1 =
        (collect RunDirectory.quiet record "evidence" xs ()).1 ∧
      (collect RunDirectory.quiet record "evidence" xs ()).1 =
        ⟨.gatherFailed, "refused, timeout, unable to record pod/b: no room"⟩ := by
  intro refused timeout record xs xs'
  have hlowered : ∀ x ∈ turns RunDirectory.quiet record xs (), x.raised = false := by
    decide +kernel
  have hlowered' : ∀ x ∈ turns RunDirectory.quiet record xs' (), x.raised = false := by
    decide +kernel
  have hshuffled : ShuffledBatch xs xs' := by
    refine ⟨[yields "nodes" [] [timeout], yields "pods" ["pod/a", "pod/b"] [timeout, refused]],
      .swap _ _ _, .cons ?_ (.cons ?_ .nil)⟩
    · exact yields_shuffled _ (.refl _) (.refl _)
    · exact yields_shuffled _ (.swap _ _ _) (.swap _ _ _)
  obtain ⟨report, answer, -, -, -, hsame⟩ :=
    collect_canonical RunDirectory.quiet record "evidence" xs () hlowered
  let messages : List Bytes :=
    ["timeout", "refused", "unable to record pod/b: no room", "timeout"]
  have hverdict : (collect RunDirectory.quiet record "evidence" xs ()).1 = verdict messages := rfl
  have hmessages : verdict messages =
      ⟨.gatherFailed, "refused, timeout, unable to record pod/b: no room"⟩ := by
    let told : List Bytes := ["refused", "timeout", "unable to record pod/b: no room"]
    have hsorted : told.Pairwise (· < ·) := by decide +kernel
    have hmem : ∀ m, m ∈ told ↔ m ∈ messages := by simp [told, messages, or_comm]
    rw [verdict_of_pairwise hsorted hmem (List.cons_ne_nil _ _)]
    decide +kernel
  exact ⟨hlowered, hsame (roomFor ["pod/b"]) xs' () (fun _ _ => rfl) hshuffled hlowered',
    hverdict.trans hmessages⟩

end ClusterEvidence
