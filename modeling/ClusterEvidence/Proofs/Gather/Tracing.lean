import ClusterEvidence.Proofs.Gather.Evidence

/-!
# Batches over a traced source

A batch uses its source, its surroundings and its recorder by what they answer only : if they
answer the same in related states, and lead to related states, so does the batch
(`Gatherer.gather_same`). What the first question brings about is there at the end if the rest
of the batch keeps it (`Gatherer.gather_leads`).

A source with a list beside it of what it was asked answers as it does without, so over such a
source a batch is the same, and the list shows that it asked for the operators first
(`Gatherer.gather_traced`).
-/

namespace ClusterEvidence

open Surroundings (onSnd)

variable {σ τ ε : Type}

/-! ## The same answers -/

/-- In related states looking around gives the same. -/
structure Surroundings.Same (R : σ → τ → Prop) (env : Surroundings σ) (env' : Surroundings τ) :
    Prop where
  cancelled : Agree R Eq env.cancelled env'.cancelled
  note : ∀ l text, Agree R Eq (env.note l text) (env'.note l text)
  wallClock : Agree R Eq env.wallClock env'.wallClock
  stopwatch : Agree R Eq env.stopwatch env'.stopwatch

/-- In related states the sources answer the same. -/
structure Source.Same (R : σ → τ → Prop) (src : Source σ) (src' : Source τ) : Prop where
  operators : Agree R Eq src.operators src'.operators
  nodes : Agree R Eq src.nodes src'.nodes
  pods : ∀ ns, Agree R Eq (src.pods ns) (src'.pods ns)
  get : ∀ k name, Agree R Eq (src.get k name) (src'.get k name)

variable {R : σ → τ → Prop} {env : Surroundings σ} {env' : Surroundings τ} {src : Source σ}
  {src' : Source τ} {record : Record ε → StateM σ Status} {record' : Record ε → StateM τ Status}

theorem Surroundings.Same.beside (henv : env.Same R env') (κ : Type) :
    (env.beside κ).Same (fun x y => x.1 = y.1 ∧ R x.2 y.2) (env'.beside κ) where
  cancelled := henv.cancelled.onSnd
  note l text := (henv.note l text).onSnd
  wallClock := henv.wallClock.onSnd
  stopwatch := henv.stopwatch.onSnd

/-- Steps for each item are the same if each is. -/
theorem mapM_same {α β : Type} {l : List α} {f : α → StateM σ β} {f' : α → StateM τ β}
    (h : ∀ a ∈ l, Agree R Eq (f a) (f' a)) : Agree R Eq (l.mapM f) (l.mapM f') :=
  (Agree.mapM (List.forall₂_same.2 h)).mono fun _ _ => List.forall₂_eq_eq_eq ▸ id

theorem Record.now_same (henv : env.Same R env') (name : Bytes) (c : Content ε) :
    Agree R Eq (Record.now env name c) (Record.now env' name c) :=
  henv.wallClock.bind_eq fun _ => .pure rfl

/-! ## Routines -/

namespace Gatherer

variable {g : Gatherer}

theorem whenFetched_same {α : Type} {r : Fetched α} {act : α → StateM σ (Outcome ε)}
    {act' : α → StateM τ (Outcome ε)} (h : ∀ a, Agree R Eq (act a) (act' a)) :
    Agree R Eq (whenFetched r act) (whenFetched r act') := by
  cases r with
  | error st => exact .pure rfl
  | ok a => exact h a

theorem single_same (henv : env.Same R env') (name : Bytes) (c : Content ε) :
    Agree R Eq (single env name c) (single env' name c) :=
  (Record.now_same henv name c).bind_eq fun _ => .pure rfl

theorem podRecords_same (henv : env.Same R env') (hsrc : src.Same R src')
    (ns operator : Bytes) :
    Agree R Eq (g.podRecords (ε := ε) env src ns operator)
      (g.podRecords env' src' ns operator) := by
  refine (hsrc.pods ns).bind_eq fun r => ?_
  cases r with
  | error st => exact (henv.note _ _).bind_eq fun _ => .pure rfl
  | ok pods => exact mapM_same fun p _ => Record.now_same henv _ _

/-- The routine of the operators does not notice the log. -/
theorem clusterOperators_same (henv : env.Same R env') (hsrc : src.Same R src') :
    Agree R Eq (g.clusterOperators (ε := ε) env src) (g.clusterOperators env' src') := by
  refine hsrc.operators.bind_eq fun r => whenFetched_same fun l => ?_
  refine (mapM_same fun o _ => Record.now_same henv _ _).bind_eq fun operators => ?_
  refine (mapM_same fun x _ => podRecords_same henv hsrc x.1 x.2).bind_eq fun pods => ?_
  exact .pure rfl

/-- Neither does that of the nodes. -/
theorem nodes_same (henv : env.Same R env') (hsrc : src.Same R src') :
    Agree R Eq (g.nodes (ε := ε) env src) (g.nodes env' src') := by
  refine hsrc.nodes.bind_eq fun r => whenFetched_same fun l => ?_
  exact (mapM_same fun o _ => Record.now_same henv _ _).bind_eq fun _ => .pure rfl

/-- Neither does that of a singleton. -/
theorem singleton_same (henv : env.Same R env') (hsrc : src.Same R src') (k : Kind) (name : Bytes)
    (content : k.Object → Content ε) :
    Agree R Eq (g.singleton env src k name content) (g.singleton env' src' k name content) :=
  (hsrc.get k _).bind_eq fun _ => whenFetched_same fun _ => single_same henv _ _

/-- Equal cached versions, beside related states. -/
def CacheSame (R : σ → τ → Prop) (x : VersionCache × σ) (y : VersionCache × τ) : Prop :=
  x.1 = y.1 ∧ R x.2 y.2

theorem remember_same (henv : env.Same R env') (v : ClusterVersion) :
    Agree (CacheSame R) Eq (remember env v) (remember env' v) := by
  rintro ⟨c, s⟩ ⟨_, t⟩ ⟨rfl, hr⟩
  rw [remember_run, remember_run]
  dsimp only
  split
  · exact (henv.note _ _).onSnd (K := Eq) _ _ ⟨rfl, hr⟩
  · exact ⟨rfl, rfl, hr⟩

/-- The routine of the version does not notice it, and neither does the cache. -/
theorem clusterVersion_same (henv : env.Same R env') (hsrc : src.Same R src') :
    Agree (CacheSame R) Eq (g.clusterVersion (ε := ε) env src) (g.clusterVersion env' src') := by
  refine (hsrc.get .clusterVersion _).onSnd.bind_eq fun r => whenFetched_same fun v => ?_
  exact (remember_same henv v).bind_eq fun _ => (single_same henv _ _).onSnd

theorem clusterId_same (henv : env.Same R env') :
    Agree (CacheSame R) Eq (clusterId (ε := ε) env) (clusterId env') := by
  rintro ⟨⟨e⟩, s⟩ ⟨_, t⟩ ⟨rfl, hr⟩
  cases e with
  | none => exact ⟨rfl, rfl, hr⟩
  | some e => exact (single_same henv "config/id" (.raw e.2.clusterId)).onSnd (K := Eq) _ _ ⟨rfl, hr⟩

/-- All routines run the same in surroundings that are the same. -/
theorem routines_same (henv : env.Same R env') (hsrc : src.Same R src') :
    List.Forall₂ (fun x y => x.name = y.name ∧ Agree (CacheSame R) Eq x.run y.run)
      (g.routines (ε := ε) env src) (g.routines env' src') := by
  have hstateless : ∀ (name : Bytes) {x : StateM σ (Outcome ε)} {y : StateM τ (Outcome ε)},
      Agree R Eq x y → (stateless name x).name = (stateless name y).name ∧
        Agree (CacheSame R) Eq (stateless name x).run (stateless name y).run :=
    fun _ _ _ h => ⟨rfl, h.onSnd⟩
  have hsingleton := fun (name : Bytes) (k : Kind) (file : Bytes) (content : k.Object → Content ε) =>
    hstateless name (singleton_same (g := g) henv hsrc k file content)
  exact .cons (hstateless _ (clusterOperators_same henv hsrc)) <|
    .cons (hstateless _ (nodes_same henv hsrc)) <|
    .cons ⟨rfl, clusterVersion_same henv hsrc⟩ <|
    .cons ⟨rfl, clusterId_same henv⟩ <|
    .cons (hsingleton _ _ _ _) <| .cons (hsingleton _ _ _ _) <| .cons (hsingleton _ _ _ _) <|
    .cons (hsingleton _ _ _ _) <| .cons (hsingleton _ _ _ _) <| .cons (hsingleton _ _ _ _) <|
    .cons (hsingleton _ _ _ _) .nil

end Gatherer

/-! ## Batches -/

theorem runRoutine_same (henv : env.Same R env') {x : Routine σ ε} {y : Routine τ ε}
    (hname : x.name = y.name) (hrun : Agree R Eq x.run y.run) :
    Agree R Eq (runRoutine env x) (runRoutine env' y) := by
  unfold runRoutine
  rw [hname]
  refine (henv.note _ _).bind_eq fun _ => henv.stopwatch.bind_eq fun _ => ?_
  refine hrun.bind_eq fun _ => henv.stopwatch.bind_eq fun _ => ?_
  exact (henv.note _ _).bind_eq fun _ => .pure rfl

theorem forward_same (hrec : ∀ r, Agree R Eq (record r) (record' r)) (rs : List (Record ε)) :
    Agree R Eq (forward record rs) (forward record' rs) := by
  induction rs with
  | nil => exact .pure rfl
  | cons r rs ih => exact (hrec r).bind_eq fun _ => ih.bind_eq fun _ => .pure rfl

/-- Lists of routines that are the same run the same. -/
theorem runRoutines_same (henv : env.Same R env')
    (hrec : ∀ r, Agree R Eq (record r) (record' r)) {xs : List (Routine σ ε)}
    {ys : List (Routine τ ε)}
    (h : List.Forall₂ (fun x y => x.name = y.name ∧ Agree R Eq x.run y.run) xs ys) :
    Agree R Eq (runRoutines env record xs) (runRoutines env' record' ys) := by
  induction h with
  | nil => exact .pure rfl
  | cons hx _ ih =>
    refine (runRoutine_same henv hx.1 hx.2).bind_eq fun x => ?_
    refine (forward_same hrec _).bind_eq fun _ => henv.cancelled.bind_eq fun raised => ?_
    cases raised with
    | true => exact .pure rfl
    | false => exact ih.bind_eq fun _ => .pure rfl

/-- Batches of routines that are the same end the same. -/
theorem collect_same (henv : env.Same R env') (hrec : ∀ r, Agree R Eq (record r) (record' r))
    (ns : Bytes) {xs : List (Routine σ ε)} {ys : List (Routine τ ε)}
    (h : List.Forall₂ (fun x y => x.name = y.name ∧ Agree R Eq x.run y.run) xs ys) :
    Agree R Eq (collect env record ns xs) (collect env' record' ns ys) := by
  refine (runRoutines_same henv hrec h).bind_eq fun r => ?_
  cases r with
  | error st => exact .pure rfl
  | ok p =>
    exact (Record.now_same henv _ _).bind_eq fun r => (hrec r).bind_eq fun _ => .pure rfl

namespace Gatherer

variable {g : Gatherer}

/-- From equal answers a batch makes the same. -/
theorem gather_same (henv : env.Same R env') (hsrc : src.Same R src')
    (hrec : ∀ r, Agree R Eq (record r) (record' r)) (ns : Bytes) :
    Agree (CacheSame R) Eq (g.gather env src record ns) (g.gather env' src' record' ns) :=
  collect_same (henv.beside VersionCache) (fun r => (hrec r).onSnd) ns (routines_same henv hsrc)

end Gatherer

/-! ## What is asked first -/

/-- From states with `I` the action ends in states with `J`. -/
def Leads {α : Type} (I J : σ → Prop) (x : StateM σ α) : Prop := ∀ s, I s → J (x s).2

section Leads

variable {α β : Type} {I J K : σ → Prop}

/-- What a step keeps it also leads to. -/
theorem Keeps.leads {P : α → Prop} {x : StateM σ α} (hx : Keeps I P x) : Leads I I x :=
  fun s hs => (hx s hs).2

theorem Leads.pure (a : α) : Leads I I (Pure.pure a : StateM σ α) := fun _ hs => hs

/-- One step leads on from where the other has led. -/
theorem Leads.bind {x : StateM σ α} {f : α → StateM σ β} (hx : Leads I J x)
    (hf : ∀ a, Leads J K (f a)) : Leads I K (x >>= f) :=
  fun s hs => hf _ _ (hx s hs)

theorem Leads.onSnd {κ : Type} {x : StateM σ α} (hx : Leads I J x) :
    Leads (fun s : κ × σ => I s.2) (fun s => J s.2) (onSnd x) :=
  fun s hs => hx s.2 hs

end Leads

variable {I J : σ → Prop}

/-- A routine leads where its own steps lead. -/
theorem runRoutine_leads (hbefore : env.Steady I) (henv : env.Steady J) {x : Routine σ ε}
    (hx : Leads I J x.run) : Leads I J (runRoutine env x) := by
  refine (hbefore.note _ _).leads.bind fun _ => hbefore.stopwatch.leads.bind fun _ => ?_
  refine hx.bind fun _ => henv.stopwatch.leads.bind fun _ => ?_
  exact (henv.note _ _).leads.bind fun _ => .pure _

/-- What the first routine of a batch brings about is there at the end if the rest keeps it. -/
theorem collect_leads (hbefore : env.Steady I) (henv : env.Steady J)
    (hrec : ∀ r, True → Keeps J (fun _ => True) (record r)) (ns : Bytes) {x : Routine σ ε}
    {xs : List (Routine σ ε)} (hx : Leads I J x.run)
    (hxs : ∀ x ∈ xs, Keeps J (fun out => ∀ r ∈ out.records, True) x.run) :
    Leads I J (collect env record ns (x :: xs)) := by
  have hroutines : Leads I J (runRoutines env record (x :: xs)) := by
    refine (runRoutine_leads hbefore henv hx).bind fun _ => ?_
    refine (forward_keeps hrec fun _ _ => trivial).leads.bind fun _ => ?_
    refine henv.cancelled.leads.bind fun raised => ?_
    cases raised with
    | true => exact .pure _
    | false => exact (runRoutines_keeps henv hrec hxs).leads.bind fun _ => .pure _
  refine hroutines.bind fun r => ?_
  cases r with
  | error st => exact .pure _
  | ok p =>
    refine (Record.now_keeps (P := fun _ => True) henv _ fun _ => trivial).leads.bind fun r => ?_
    exact (hrec r trivial).leads.bind fun _ => .pure _

namespace Gatherer

variable {g : Gatherer}

/-- The routine of the operators leads where asking for them does. -/
theorem clusterOperators_leads (henv : env.Steady J) (hfirst : Leads I J src.operators)
    (hsrc : src.Gives (fun _ _ => True) J) :
    Leads I J (g.clusterOperators (ε := ε) env src) := by
  refine hfirst.bind fun r => ?_
  cases r with
  | error st => exact .pure _
  | ok l =>
    refine (Keeps.mapM fun o _ =>
      Record.now_keeps (P := fun _ => True) henv _ fun _ => trivial).leads.bind fun _ => ?_
    refine (Keeps.mapM fun x _ => podRecords_make makes_any henv hsrc x.1 x.2).leads.bind fun _ => ?_
    exact .pure _

/-- Before the operators are asked for, nothing but a clock and the log is used, and what that
question brings about is there at the end if the rest of the batch keeps it. -/
theorem gather_leads (hbefore : env.Steady I) (henv : env.Steady J)
    (hfirst : Leads I J src.operators) (hsrc : src.Gives (fun _ _ => True) J)
    (hrec : ∀ r, Keeps J (fun _ => True) (record r)) (ns : Bytes) :
    Leads (fun x => I x.2) (fun x => J x.2) (g.gather env src record ns) := by
  have hroutines := routines_make (g := g) (ε := ε) makes_any henv hsrc
  rw [routines, List.forall_mem_cons] at hroutines
  exact collect_leads (.beside fun _ => hbefore) (.beside fun _ => henv)
    (fun r _ => .onSnd fun _ => hrec r) ns (clusterOperators_leads henv hfirst hsrc).onSnd
    hroutines.2

end Gatherer

/-! ## The list -/

/-- The same state with something beside it. -/
def Listed {κ : Type} (x : κ × σ) (s : σ) : Prop := x.2 = s

theorem onSnd_listed {κ α : Type} (act : StateM σ α) :
    Agree (Listed (κ := κ)) Eq (onSnd act) act := by
  rintro ⟨log, s⟩ _ rfl
  exact ⟨rfl, rfl⟩

theorem noting_listed {α : Type} (asked : α → Asked) (act : StateM σ α) :
    Agree Listed Eq (noting asked act) act := by
  rintro ⟨log, s⟩ _ rfl
  exact ⟨rfl, rfl⟩

theorem Surroundings.beside_listed (env : Surroundings σ) (κ : Type) :
    (env.beside κ).Same Listed env :=
  ⟨onSnd_listed _, fun _ _ => onSnd_listed _, onSnd_listed _, onSnd_listed _⟩

/-- The list changes no answer. -/
theorem Source.traced_listed (src : Source σ) : src.traced.Same Listed src :=
  ⟨noting_listed _ _, noting_listed _ _, fun _ => noting_listed _ _, fun _ _ => noting_listed _ _⟩

/-- The operators were the first to be asked for. -/
def Asks (log : List Asked) : Prop := ∃ answer rest, log = .operators answer :: rest

/-- A call that is logged leaves an entry. -/
theorem noting_asks {α : Type} {P : α → Prop} (hP : ∀ a, P a) (asked : α → Asked)
    (act : StateM σ α) : Keeps (fun x => Asks x.1) P (noting asked act) := by
  rintro ⟨log, s⟩ ⟨answer, rest, rfl⟩
  exact ⟨hP _, answer, rest ++ [asked (act s).1], rfl⟩

theorem Source.traced_asks (src : Source σ) :
    src.traced.Gives (fun _ _ => True) fun x => Asks x.1 :=
  ⟨noting_asks (fun _ _ _ _ _ => trivial) _ _, noting_asks (fun _ _ _ _ _ => trivial) _ _,
    fun _ => noting_asks (fun _ _ _ _ _ => trivial) _ _,
    fun _ _ => noting_asks (fun _ => trivial) _ _⟩

namespace Gatherer

variable (g : Gatherer) (env src record)

/-- A batch over a traced source is the batch, and asks for the operators first. -/
theorem gather_traced (ns : Bytes) (c : VersionCache) (s : σ) :
    let traced := g.gather (env.beside (List Asked)) src.traced (fun r => onSnd (record r)) ns
      (c, ([], s))
    g.gather env src record ns (c, s) = (traced.1, (traced.2.1, traced.2.2.2)) ∧
      Asks traced.2.2.1 := by
  intro traced
  obtain ⟨hstatus, hcache, hstate⟩ := gather_same (g := g) (env.beside_listed (List Asked))
    src.traced_listed (fun r => onSnd_listed (record r)) ns (c, ([], s)) (c, s) ⟨rfl, rfl⟩
  have hfirst : Leads (fun x => x.1 = []) (fun x => Asks x.1) src.traced.operators := by
    rintro ⟨_, s⟩ rfl
    exact ⟨(src.operators s).1, [], rfl⟩
  have hasks := gather_leads (g := g) (.fst (· = []) env) (.fst Asks env) hfirst src.traced_asks
    (fun r => .fst (record r)) ns (c, ([], s)) rfl
  exact ⟨Prod.ext hstatus.symm (Prod.ext hcache.symm hstate.symm), hasks⟩

end Gatherer

end ClusterEvidence
